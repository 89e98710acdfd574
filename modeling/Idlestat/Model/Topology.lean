import Idlestat.Library.SortedKeys

/-! The CPU topology tree of `topology.c`. List heads are lists of nodes; the
records of a node live outside the tree and are named by a `RecordRef`, so a
pointer field is an optional `RecordRef`. -/
namespace Idlestat.Model.Topology

open Idlestat.Library

/-- What stops the program: an index outside an array, a null pointer that is
followed, a failed `assert`, and the `exit` of an illegal P-state. -/
inductive Fault
  | outOfBounds
  | nullDeref
  | assertion
  | illegalPstate
  deriving DecidableEq, Repr

/-- Where statistics are kept: `&datas->cstates[cpu]` (and `&datas->pstates[cpu]`),
or the structure allocated for one core or one cluster. -/
inductive RecordRef
  | percpu (cpu : Int)
  | core (physicalId coreId : Int)
  | cluster (physicalId : Int)
  deriving DecidableEq, Repr

structure TopologyInfo where
  physicalId : Int
  coreId : Int
  cpuId : Int
  deriving DecidableEq, Repr

structure CpuCpu where
  cpuId : Int
  cstates : Option RecordRef := none
  pstates : Option RecordRef := none
  deriving DecidableEq, Repr

structure CpuCore where
  coreId : Int
  cpuHead : List CpuCpu := []
  cpuNum : Nat := 0
  isHt : Bool := false
  cstates : Option RecordRef := none
  pstates : Option RecordRef := none
  deriving DecidableEq, Repr

/-- A `list_phy_enum` link: the node of one CPU inside a cluster. -/
structure CpuRef where
  coreId : Int
  cpuId : Int
  deriving DecidableEq, Repr

structure CpuPhysical where
  physicalId : Int
  coreHead : List CpuCore := []
  coreNum : Nat := 0
  cpuEnumHead : List CpuRef := []
  cstates : Option RecordRef := none
  pstates : Option RecordRef := none
  deriving DecidableEq, Repr

structure CpuTopology where
  physicalHead : List CpuPhysical := []
  onlineCpus : List Bool := []
  onlineArraySize : Int := 0
  deriving DecidableEq, Repr

def allocCpuTopoInfo : CpuTopology := {}

def checkExistFromHead {α : Type} (key : α → Int) (head : List α) (id : Int) : Option α :=
  SortedKeys.lookup key id head

/-- The node before which `list_add_tail` links a node with this id. -/
def checkPosFromHead {α : Type} (key : α → Int) (head : List α) (id : Int) : Nat :=
  SortedKeys.position key id head

def newPhysical (physicalId : Int) : CpuPhysical :=
  { physicalId := physicalId, pstates := some (.cluster physicalId) }

def newCore (physicalId coreId : Int) : CpuCore :=
  { coreId := coreId, pstates := some (.core physicalId coreId) }

/-- The CPU part of `add_topo_info`: nothing if the core already has the CPU. -/
def CpuCore.addCpu (core : CpuCore) (cpuId : Int) : CpuCore :=
  match checkExistFromHead CpuCpu.cpuId core.cpuHead cpuId with
  | some _ => core
  | none =>
    { core with
      cpuHead := core.cpuHead.insertIdx
        (checkPosFromHead CpuCpu.cpuId core.cpuHead cpuId) { cpuId := cpuId }
      cpuNum := core.cpuNum + 1
      isHt := if core.cpuNum + 1 > 1 then true else core.isHt }

def CpuCore.hasCpu (core : CpuCore) (cpuId : Int) : Bool :=
  (checkExistFromHead CpuCpu.cpuId core.cpuHead cpuId).isSome

def CpuPhysical.hasCpu (phy : CpuPhysical) (coreId cpuId : Int) : Bool :=
  match checkExistFromHead CpuCore.coreId phy.coreHead coreId with
  | some core => core.hasCpu cpuId
  | none => false

def CpuTopology.hasCpu (topo : CpuTopology) (info : TopologyInfo) : Bool :=
  match checkExistFromHead CpuPhysical.physicalId topo.physicalHead info.physicalId with
  | some phy => phy.hasCpu info.coreId info.cpuId
  | none => false

/-- The core part of `add_topo_info`, with the CPU part inside it. A CPU that
is new to its core is also linked at the end of the cluster's enumeration. -/
def CpuPhysical.addCore (phy : CpuPhysical) (coreId cpuId : Int) : CpuPhysical :=
  { phy with
    coreHead := SortedKeys.upsert CpuCore.coreId coreId (newCore phy.physicalId coreId)
      (·.addCpu cpuId) phy.coreHead
    coreNum :=
      if (checkExistFromHead CpuCore.coreId phy.coreHead coreId).isSome then phy.coreNum
      else phy.coreNum + 1
    cpuEnumHead :=
      if phy.hasCpu coreId cpuId then phy.cpuEnumHead
      else phy.cpuEnumHead ++ [{ coreId := coreId, cpuId := cpuId }] }

/-- Grow the online array to hold `cpuId`, zeroing the new part, and set its flag. -/
def CpuTopology.setOnline (topo : CpuTopology) (cpuId : Int) : CpuTopology :=
  if topo.onlineArraySize ≤ cpuId then
    { topo with
      onlineCpus := (topo.onlineCpus ++
        List.replicate (cpuId + 1 - topo.onlineArraySize).toNat false).set cpuId.toNat true
      onlineArraySize := cpuId + 1 }
  else
    { topo with onlineCpus := topo.onlineCpus.set cpuId.toNat true }

def addTopoInfo (topoList : CpuTopology) (info : TopologyInfo) : Except Fault CpuTopology :=
  if info.physicalId < 0 ∨ info.coreId < 0 ∨ info.cpuId < 0 then .error .assertion
  else
    let linked := { topoList with
      physicalHead := SortedKeys.upsert CpuPhysical.physicalId info.physicalId
        (newPhysical info.physicalId) (·.addCore info.coreId info.cpuId)
        topoList.physicalHead }
    if topoList.hasCpu info then .ok linked else .ok (linked.setOnline info.cpuId)

def cpuIsOnline (topo : CpuTopology) (cpuid : Int) : Except Fault Bool :=
  if cpuid < 0 then .error .assertion
  else if topo.onlineArraySize ≤ cpuid then .ok false
  else .ok (topo.onlineCpus.getD cpuid.toNat false)

def CpuPhysical.enumCpus (phy : CpuPhysical) : List CpuCpu :=
  phy.cpuEnumHead.filterMap fun link =>
    (phy.coreHead.find? fun core => core.coreId = link.coreId).bind fun core =>
      core.cpuHead.find? fun cpu => cpu.cpuId = link.cpuId

def enumContains (cpuid : Int) (phy : CpuPhysical) : Bool :=
  phy.enumCpus.any fun cpu => cpu.cpuId = cpuid

def coreContains (cpuid : Int) (core : CpuCore) : Bool :=
  core.cpuHead.any fun cpu => cpu.cpuId = cpuid

def cpuToCluster (cpuid : Int) (topo : CpuTopology) : Option CpuPhysical :=
  topo.physicalHead.find? (enumContains cpuid)

def cpuToCore (cpuid : Int) (topo : CpuTopology) : Option CpuCore :=
  topo.physicalHead.findSome? fun phy => phy.coreHead.find? (coreContains cpuid)

end Idlestat.Model.Topology
