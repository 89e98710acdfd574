import Idlestat.Library.ParallelWalk
import Idlestat.Model.Recorder

/-! A trace and its baseline: `merge_pstates`, then `assign_baseline_in_topo`,
which walks the two trees by position. The baseline pointers of a node are kept
beside it. -/
namespace Idlestat.Model.Baseline

open Idlestat.Library.ParallelWalk Idlestat.Model.Topology Idlestat.Model.Recorder

/-- `base_cstates` and `base_pstates` of a node. -/
structure BaseRefs where
  cstates : Option RecordRef := none
  pstates : Option RecordRef := none
  deriving DecidableEq, Repr

structure CpuPair where
  cpu : CpuCpu
  base : BaseRefs := {}
  deriving DecidableEq, Repr

structure CorePair where
  core : CpuCore
  base : BaseRefs := {}
  cpus : List CpuPair
  deriving DecidableEq, Repr

structure ClusterPair where
  phy : CpuPhysical
  base : BaseRefs := {}
  cores : List CorePair
  deriving DecidableEq, Repr

def cpuRecords (cpu : CpuCpu) : BaseRefs :=
  { cstates := cpu.cstates, pstates := cpu.pstates }

def coreRecords (core : CpuCore) : BaseRefs :=
  { cstates := core.cstates, pstates := core.pstates }

def clusterRecords (phy : CpuPhysical) : BaseRefs :=
  { cstates := phy.cstates, pstates := phy.pstates }

def assignCpu (mainCpu baseCpu : CpuCpu) : Except Fault CpuPair :=
  .ok { cpu := mainCpu, base := cpuRecords baseCpu }

def assignCore (mainCore baseCore : CpuCore) : Except Fault CorePair := do
  let cpus ← walk .outOfBounds assignCpu mainCore.cpuHead baseCore.cpuHead
  .ok { core := mainCore, base := coreRecords baseCore, cpus := cpus }

def assignCluster (mainPhy basePhy : CpuPhysical) : Except Fault ClusterPair := do
  let cores ← walk .outOfBounds assignCore mainPhy.coreHead basePhy.coreHead
  .ok { phy := mainPhy, base := clusterRecords basePhy, cores := cores }

def unpairedCore (core : CpuCore) : CorePair :=
  { core := core, cpus := core.cpuHead.map fun cpu => { cpu := cpu } }

def unpairedCluster (phy : CpuPhysical) : ClusterPair :=
  { phy := phy, cores := phy.coreHead.map unpairedCore }

/-- Without a baseline the pointers stay null. -/
def assignBaselineInTopo (topo : CpuTopology) (baseTopo : Option CpuTopology) :
    Except Fault (List ClusterPair) :=
  match baseTopo with
  | none => .ok (topo.physicalHead.map unpairedCluster)
  | some baseTopo => walk .outOfBounds assignCluster topo.physicalHead baseTopo.physicalHead

structure Paired where
  datas : CpuidleDatas
  baseline : CpuidleDatas
  topo : List ClusterPair

def pairBaseline (datas baseline : CpuidleDatas) : Except Fault Paired := do
  let (datas, baseline) ← mergePstates datas baseline
  let topo ← assignBaselineInTopo datas.topo (some baseline.topo)
  .ok { datas := datas, baseline := baseline, topo := topo }

end Idlestat.Model.Baseline
