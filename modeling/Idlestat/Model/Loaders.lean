import Idlestat.Model.Recorder

/-! The state in which event processing starts: the per-CPU records as the
loaders fill them, and `setup_topo_states`, which maps them into the topology
and allocates the core and cluster records. -/
namespace Idlestat.Model.Loaders

open Idlestat.Library Idlestat.Model.Topology Idlestat.Model.Cstates Idlestat.Model.Pstates
  Idlestat.Model.Recorder

/-- What a loader learns about one C-state of one CPU. -/
structure CstateInfo where
  name : Option (List Char)
  targetResidency : Int
  deriving DecidableEq

def callocCstate : CpuidleCstate :=
  { name := none, data := [], nrdata := 0, earlyWakings := 0, lateWakings := 0, avgTime := 0,
    maxTime := 0, minTime := 0, duration := 0, targetResidency := 0 }

/-- A `calloc`ed record with its two state fields set to -1. -/
def emptyCstates : CpuidleCstates :=
  { cstate := fun _ => callocCstate, wakeinfo := [], currentCstate := -1, cstateMax := -1,
    wakeirq := none, actualResidency := .asExpected }

def initCstate (info : CstateInfo) : CpuidleCstate :=
  { name := info.name, data := [], nrdata := 0, earlyWakings := 0, lateWakings := 0,
    avgTime := 0, maxTime := 0, minTime := dblMax, duration := 0,
    targetResidency := info.targetResidency }

/-- One element of the array of `build_cstate_info`. -/
def buildCstateInfo (info : Fin maxcstate → CstateInfo) : CpuidleCstates :=
  { emptyCstates with cstate := fun i => initCstate (info i) }

/-- One element of the array of `load_and_build_cstate_info`: the records of
offline CPUs are left as they were allocated. -/
def loadAndBuildCstateInfo (online : Bool) (info : Fin maxcstate → CstateInfo) :
    CpuidleCstates :=
  if online then buildCstateInfo info else emptyCstates

inductive Loader
  | native
  | sysfs
  deriving DecidableEq

def cpuRecord (loader : Loader) (topo : CpuTopology)
    (info : Int → Fin maxcstate → CstateInfo) (cpu : Int) : CpuidleCstates :=
  match loader with
  | .native => loadAndBuildCstateInfo ((cpuIsOnline topo cpu).toOption.getD false) (info cpu)
  | .sysfs => buildCstateInfo (info cpu)

/-- The datas a loader has built when it calls `setup_topo_states`. -/
def loadedDatas (loader : Loader) (nrcpus : Int) (topo : CpuTopology)
    (info : Int → Fin maxcstate → CstateInfo) : CpuidleDatas :=
  { nrcpus := nrcpus
    topo := topo
    cstates := fun
      | .percpu cpu => cpuRecord loader topo info cpu
      | _ => emptyCstates
    pstates := fun _ => buildPstateInfo }

def createStates (source : Fin maxcstate → CpuidleCstate) : CpuidleCstates :=
  { emptyCstates with
    cstate := fun i =>
      match (source i).name with
      | none => callocCstate
      | some name =>
        { callocCstate with
          minTime := dblMax
          targetResidency := (source i).targetResidency
          name := some name } }

def createCoreStates (datas : CpuidleDatas) (core : CpuCore) : Except Fault CpuidleCstates :=
  match core.cpuHead with
  | [] => .error .assertion
  | originCpu :: _ => do
    let ref ← deref originCpu.cstates
    .ok (createStates (datas.cstates ref).cstate)

def createClusterStates (datas : CpuidleDatas) (phy : CpuPhysical) :
    Except Fault CpuidleCstates :=
  match phy.coreHead with
  | [] => .error .assertion
  | originCore :: _ => do
    let ref ← deref originCore.cstates
    .ok (createStates (datas.cstates ref).cstate)

/-! `find_cpu_point` returns the first node in tree order, so mapping CPU `i`
rewrites the first CPU node with that id in the first core that has one, in the
first cluster that has one. -/

def mapCpuNode (i : Int) (cpu : CpuCpu) : CpuCpu :=
  { cpu with cstates := some (.percpu i), pstates := some (.percpu i) }

def mapCpuInCore (i : Int) (core : CpuCore) : CpuCore :=
  { core with
    cpuHead := SortedKeys.modifyFirst (fun cpu => cpu.cpuId = i) (mapCpuNode i) core.cpuHead }

def mapCpuInCluster (i : Int) (phy : CpuPhysical) : CpuPhysical :=
  { phy with
    coreHead := SortedKeys.modifyFirst (coreContains i) (mapCpuInCore i) phy.coreHead }

def mapCpuPoint (i : Int) (topo : CpuTopology) : CpuTopology :=
  { topo with
    physicalHead := SortedKeys.modifyFirst (fun phy => phy.coreHead.any (coreContains i))
      (mapCpuInCluster i) topo.physicalHead }

def mapCpuStates (topo : CpuTopology) (nrcpus : Nat) : Except Fault CpuTopology :=
  (List.range nrcpus).foldlM (fun topo (i : Nat) => do
    let online ← cpuIsOnline topo i
    .ok (if online then mapCpuPoint i topo else topo)) topo

def setupCores (physicalId : Int) (datas : CpuidleDatas) :
    List CpuCore → Except Fault (CpuidleDatas × List CpuCore)
  | [] => .ok (datas, [])
  | core :: rest => do
    let states ← createCoreStates datas core
    let ref := RecordRef.core physicalId core.coreId
    let (datas, rest) ← setupCores physicalId (datas.setCstates ref states) rest
    .ok (datas, { core with cstates := some ref } :: rest)

def setupClusters (datas : CpuidleDatas) :
    List CpuPhysical → Except Fault (CpuidleDatas × List CpuPhysical)
  | [] => .ok (datas, [])
  | phy :: rest => do
    let (datas, cores) ← setupCores phy.physicalId datas phy.coreHead
    let phy := { phy with coreHead := cores }
    let states ← createClusterStates datas phy
    let ref := RecordRef.cluster phy.physicalId
    let (datas, rest) ← setupClusters (datas.setCstates ref states) rest
    .ok (datas, { phy with cstates := some ref } :: rest)

def setupTopoStates (datas : CpuidleDatas) : Except Fault CpuidleDatas := do
  let topo ← mapCpuStates datas.topo datas.nrcpus.toNat
  let (datas, phys) ← setupClusters { datas with topo := topo } topo.physicalHead
  .ok { datas with topo := { topo with physicalHead := phys } }

end Idlestat.Model.Loaders
