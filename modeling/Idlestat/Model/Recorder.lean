import Idlestat.Model.Pstates

/-! The event handlers of `idlestat.c`: what one `cpu_idle` or `cpu_frequency`
event does to the records of its CPU, core and cluster. -/
namespace Idlestat.Model.Recorder

open Idlestat.Model.Topology Idlestat.Model.Cstates Idlestat.Model.Pstates

/-- `cstates` and `pstates` hold both the per-CPU arrays (`nrcpus` long) and the
structures the cores and clusters point to. -/
@[ext] structure CpuidleDatas where
  nrcpus : Int
  cstates : RecordRef → CpuidleCstates
  pstates : RecordRef → CpufreqPstates
  topo : CpuTopology

namespace CpuidleDatas

def percpu (datas : CpuidleDatas) (cpu : Int) : Except Fault RecordRef :=
  if 0 ≤ cpu ∧ cpu < datas.nrcpus then .ok (.percpu cpu) else .error .outOfBounds

def setCstates (datas : CpuidleDatas) (ref : RecordRef) (cstates : CpuidleCstates) :
    CpuidleDatas :=
  { datas with cstates := Function.update datas.cstates ref cstates }

def setPstates (datas : CpuidleDatas) (ref : RecordRef) (pstates : CpufreqPstates) :
    CpuidleDatas :=
  { datas with pstates := Function.update datas.pstates ref pstates }

end CpuidleDatas

def deref {α : Type} : Option α → Except Fault α
  | some a => .ok a
  | none => .error .nullDeref

/-- The loop shared by `core_get_least_cstate` and `cluster_get_least_cstate`. -/
def leastCstate (datas : CpuidleDatas) (cpus : List CpuCpu) : Except Fault Int :=
  cpus.foldlM (fun ret cpu => do
    let ref ← deref cpu.cstates
    let cpuCstate := (datas.cstates ref).currentCstate
    .ok (if cpuCstate < ret then cpuCstate else ret)) (maxcstate : Int)

def coreGetLeastCstate (datas : CpuidleDatas) (core : CpuCore) : Except Fault Int :=
  leastCstate datas core.cpuHead

def clusterGetLeastCstate (datas : CpuidleDatas) (clust : CpuPhysical) : Except Fault Int :=
  leastCstate datas clust.enumCpus

def pstateFreq (ps : CpufreqPstates) : Nat :=
  (ps.pstate[ps.current.toNat]?.map CpufreqPstate.freq).getD 0

def clusterGetHighestFreq (datas : CpuidleDatas) (clust : CpuPhysical) : Except Fault Nat :=
  clust.enumCpus.foldlM (fun ret cpu => do
    let ref ← deref cpu.pstates
    let ps := datas.pstates ref
    if ps.current < 0 then .ok ret
    else if ps.idle > 0 then .ok ret
    else .ok (if pstateFreq ps > ret then pstateFreq ps else ret)) 0

/-- Unlike the cluster's, this loop does not skip idle CPUs. -/
def coreGetHighestFreq (datas : CpuidleDatas) (core : CpuCore) : Except Fault Nat :=
  core.cpuHead.foldlM (fun ret cpu => do
    let ref ← deref cpu.pstates
    let ps := datas.pstates ref
    if ps.current < 0 then .ok ret
    else .ok (if pstateFreq ps > ret then pstateFreq ps else ret)) 0

def checkPstateComposite (datas : CpuidleDatas) (cpu : Int) (time : ℚ) :
    Except Fault CpuidleDatas := do
  let affCore ← deref (cpuToCore cpu datas.topo)
  let freq ← coreGetHighestFreq datas affCore
  let ref ← deref affCore.pstates
  let datas := datas.setPstates ref (recordGroupFreq (datas.pstates ref) time freq)
  let affCluster ← deref (cpuToCluster cpu datas.topo)
  let freq ← clusterGetHighestFreq datas affCluster
  let ref ← deref affCluster.pstates
  .ok (datas.setPstates ref (recordGroupFreq (datas.pstates ref) time freq))

/-- The idle flag of the CPU and its record. A CPU number past the array is
answered by -2 and no record; `cpu == nrcpus` passes the test. -/
def getCurrentPstate (datas : CpuidleDatas) (cpu : Int) :
    Except Fault (Int × Option RecordRef) :=
  if cpu < 0 ∨ cpu > datas.nrcpus then .ok (-2, none)
  else do
    let ref ← datas.percpu cpu
    .ok ((datas.pstates ref).idle, some ref)

def cpuChangePstate (datas : CpuidleDatas) (cpu : Int) (freq : Nat) (time : ℚ) :
    Except Fault CpuidleDatas := do
  let (cur, ps) ← getCurrentPstate datas cpu
  let ref ← deref ps
  let known : Bool := (datas.pstates ref).current ≠ -1
  let (ps, next) := allocPstate (datas.pstates ref) freq
  if cur = 1 then .ok (datas.setPstates ref { ps with current := next })
  else if cur = -1 then
    checkPstateComposite (datas.setPstates ref (openNextPstate ps next time)) cpu time
  else if cur = 0 then
    let ps := if known then closeCurrentPstate ps time else ps
    checkPstateComposite (datas.setPstates ref (openNextPstate ps next time)) cpu time
  else .error .illegalPstate

def cpuPstateIdle (datas : CpuidleDatas) (cpu : Int) (time : ℚ) :
    Except Fault CpuidleDatas := do
  let ref ← datas.percpu cpu
  let ps := datas.pstates ref
  let ps := if ps.current ≠ -1 then closeCurrentPstate ps time else ps
  checkPstateComposite (datas.setPstates ref { ps with idle := 1 }) cpu time

def cpuPstateRunning (datas : CpuidleDatas) (cpu : Int) (time : ℚ) :
    Except Fault CpuidleDatas := do
  let ref ← datas.percpu cpu
  let ps := { datas.pstates ref with idle := 0 }
  let ps := if ps.current ≠ -1 then openCurrentPstate ps time else ps
  checkPstateComposite (datas.setPstates ref ps) cpu time

def updatePstates (datas : CpuidleDatas) (pstate : List CpufreqPstate) (cpu state : Int)
    (time : ℚ) : Except Fault CpuidleDatas :=
  if pstate = [] then .ok datas
  else if state = -1 then cpuPstateRunning datas cpu time
  else cpuPstateIdle datas cpu time

def recordGroupCstate (datas : CpuidleDatas) (cstates : Option RecordRef) (time : ℚ)
    (state : Int) : Except Fault CpuidleDatas := do
  let ref ← deref cstates
  let recorded ← recordCstateEvent (datas.cstates ref) time state
  .ok (datas.setCstates ref recorded)

def storeData (time : ℚ) (state cpu : Int) (datas : CpuidleDatas) :
    Except Fault CpuidleDatas := do
  let ref ← datas.percpu cpu
  let pstate := (datas.pstates ref).pstate
  if state = -1 ∧ (datas.cstates ref).cstateMax = -1 then .ok datas
  else do
    let recorded ← recordCstateEvent (datas.cstates ref) time state
    let datas := datas.setCstates ref recorded
    let datas ← updatePstates datas pstate cpu state time
    let affCore ← deref (cpuToCore cpu datas.topo)
    let state ← coreGetLeastCstate datas affCore
    let datas ← recordGroupCstate datas affCore.cstates time state
    let affCluster ← deref (cpuToCluster cpu datas.topo)
    let state ← clusterGetLeastCstate datas affCluster
    recordGroupCstate datas affCluster.cstates time state

inductive PowerEvent
  | storeData (time : ℚ) (state cpu : Int)
  | cpuChangePstate (cpu : Int) (freq : Nat) (time : ℚ)
  deriving DecidableEq

namespace PowerEvent

def time : PowerEvent → ℚ
  | .storeData time _ _ => time
  | .cpuChangePstate _ _ time => time

def cpu : PowerEvent → Int
  | .storeData _ _ cpu => cpu
  | .cpuChangePstate cpu _ _ => cpu

end PowerEvent

def step (datas : CpuidleDatas) : PowerEvent → Except Fault CpuidleDatas
  | .storeData time state cpu => storeData time state cpu datas
  | .cpuChangePstate cpu freq time => cpuChangePstate datas cpu freq time

/-- `merge_pstates` on one CPU: each table gets an empty entry for every
frequency only the other one has. -/
def mergePstatesCpu (a b : CpufreqPstates) : CpufreqPstates × CpufreqPstates :=
  let b := a.pstate.foldl (fun b p => (allocPstate b p.freq).1) b
  let a := b.pstate.foldl (fun a p => (allocPstate a p.freq).1) a
  (a, b)

def mergePstates (datas baseline : CpuidleDatas) :
    Except Fault (CpuidleDatas × CpuidleDatas) :=
  (List.range datas.nrcpus.toNat).foldlM (fun both (cpu : Nat) => do
    let refA ← both.1.percpu cpu
    let refB ← both.2.percpu cpu
    let (a, b) := mergePstatesCpu (both.1.pstates refA) (both.2.pstates refB)
    .ok (both.1.setPstates refA a, both.2.setPstates refB b)) (datas, baseline)

end Idlestat.Model.Recorder
