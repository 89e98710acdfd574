import Idlestat.Model.Baseline
import Idlestat.Model.Report
import Idlestat.Model.TopologyFile

/-! `dump_cpu_topo_info`: one call of a display function for each cluster, each
core with more than one CPU, and each CPU, with the node's record, its baseline
record and its name. -/
namespace Idlestat.Model.TopologyDump

open Idlestat.Library.Scan Idlestat.Library.TextFile Idlestat.Model.Topology
  Idlestat.Model.Recorder Idlestat.Model.Report Idlestat.Model.TopologyFile
  Idlestat.Model.Baseline

structure DumpCall where
  arg : Option RecordRef
  baseline : Option RecordRef
  cpu : List Char

/-- `"cluster%c"` with `physical_id + 'A'` -/
def clusterName (physicalId : Int) : List Char :=
  cString ("cluster".toList ++ [printChar (physicalId + 65)])

/-- `"core%d"` -/
def coreName (coreId : Int) : List Char :=
  "core".toList ++ printInt coreId

/-- `"cpu%d"` -/
def cpuName (cpuId : Int) : List Char :=
  "cpu".toList ++ printInt cpuId

def cpuCall (cstate : Bool) (cpu : CpuPair) : DumpCall :=
  { arg := if cstate then cpu.cpu.cstates else cpu.cpu.pstates
    baseline := if cstate then cpu.base.cstates else cpu.base.pstates
    cpu := cpuName cpu.cpu.cpuId }

def coreCall (cstate : Bool) (core : CorePair) : DumpCall :=
  { arg := if cstate then core.core.cstates else core.core.pstates
    baseline := if cstate then core.base.cstates else core.base.pstates
    cpu := coreName core.core.coreId }

def clusterCall (cstate : Bool) (cluster : ClusterPair) : DumpCall :=
  { arg := if cstate then cluster.phy.cstates else cluster.phy.pstates
    baseline := if cstate then cluster.base.cstates else cluster.base.pstates
    cpu := clusterName cluster.phy.physicalId }

def coreCalls (cstate : Bool) (core : CorePair) : List DumpCall :=
  (if core.core.isHt then [coreCall cstate core] else []) ++ core.cpus.map (cpuCall cstate)

def clusterCalls (cstate : Bool) (cluster : ClusterPair) : List DumpCall :=
  clusterCall cstate cluster :: cluster.cores.flatMap (coreCalls cstate)

def dumpCalls (cstate : Bool) (topo : List ClusterPair) : List DumpCall :=
  topo.flatMap (clusterCalls cstate)

section Dump

variable {σ : Type}

def dumpCpuTopoInfo (dump : DumpCall → σ → Except Fault σ) (reportData : σ)
    (topo : List ClusterPair) (cstate : Bool) : Except Fault σ :=
  (dumpCalls cstate topo).foldlM (fun reportData call => dump call reportData) reportData

def dumpCstates (ops : ReportOps Cstates.CpuidleCstate σ) (paired : Paired) (call : DumpCall)
    (reportData : σ) : Except Fault σ := do
  let cstates ← deref call.arg
  displayCstates ops (paired.datas.cstates cstates) (call.baseline.map paired.baseline.cstates)
    call.cpu reportData

def dumpPstates (ops : ReportOps Pstates.CpufreqPstate σ) (paired : Paired) (call : DumpCall)
    (reportData : σ) : Except Fault σ := do
  let pstates ← deref call.arg
  displayPstates ops (paired.datas.pstates pstates) (call.baseline.map paired.baseline.pstates)
    call.cpu reportData

end Dump

end Idlestat.Model.TopologyDump
