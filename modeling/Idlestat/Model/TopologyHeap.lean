import Idlestat.Library.LinkedList
import Idlestat.Model.Pstates
import Idlestat.Model.Topology

/-! The topology tree as `topology.c` keeps it: objects from `calloc` with the
links of their lists inside them. A node is its number in the order of
allocation, a link is the member of the object that holds it, and a record of
`build_pstate_info` is known by the node it is for. `none` is a program that has
followed a pointer that leads nowhere, touched freed memory, failed an
assertion, or is in a loop that does not end. -/
namespace Idlestat.Model.TopologyHeap

open Idlestat.Library Idlestat.Library.LinkedList Idlestat.Model.Topology
open Idlestat.Model.Pstates (CpufreqPstates)

/-- The members of type `struct list_head`. -/
inductive Link
  | physicalHead
  | listPhysical (physical : Nat)
  | coreHead (physical : Nat)
  | cpuEnumHead (physical : Nat)
  | listCore (core : Nat)
  | cpuHead (core : Nat)
  | listCpu (cpu : Nat)
  | listPhyEnum (cpu : Nat)
  deriving DecidableEq

/-! The other members. -/

structure Physical where
  physicalId : Int
  coreNum : Nat
  cstates : Option RecordRef
  pstates : Option RecordRef

structure Core where
  coreId : Int
  cpuNum : Nat
  isHt : Bool
  cstates : Option RecordRef
  pstates : Option RecordRef

structure Cpu where
  cpuId : Int
  cstates : Option RecordRef
  pstates : Option RecordRef

/-- A node is allocated as long as its links are. Each record and the array
`online_cpus` are objects of their own. -/
structure Heap where
  links : Links Link
  physical : Nat → Physical
  core : Nat → Core
  cpu : Nat → Cpu
  callocs : Nat
  pstates : RecordRef → Option CpufreqPstates
  onlineCpus : Option (List Bool)
  onlineArraySize : Int

namespace Heap

/-- A list is not longer than there are objects. -/
def fuel (h : Heap) : Nat := h.callocs + 1

def readPhysical (h : Heap) (n : Nat) : Option Physical :=
  if (h.links (.listPhysical n)).isSome then some (h.physical n) else none

def readCore (h : Heap) (n : Nat) : Option Core :=
  if (h.links (.listCore n)).isSome then some (h.core n) else none

def readCpu (h : Heap) (n : Nat) : Option Cpu :=
  if (h.links (.listCpu n)).isSome then some (h.cpu n) else none

def alloc (link : Link) (h : Heap) : Heap :=
  { h with links := allocate link h.links }

def free (link : Link) (h : Heap) : Option Heap := do
  some { h with links := ← LinkedList.free link h.links }

def callocPhysical (h : Heap) (fields : Physical) : Heap × Nat :=
  let n := h.callocs
  let h := ((h.alloc (.listPhysical n)).alloc (.cpuEnumHead n)).alloc (.coreHead n)
  ({ h with physical := Function.update h.physical n fields, callocs := n + 1 }, n)

def callocCore (h : Heap) (fields : Core) : Heap × Nat :=
  let n := h.callocs
  let h := (h.alloc (.listCore n)).alloc (.cpuHead n)
  ({ h with core := Function.update h.core n fields, callocs := n + 1 }, n)

def callocCpu (h : Heap) (fields : Cpu) : Heap × Nat :=
  let n := h.callocs
  let h := (h.alloc (.listPhyEnum n)).alloc (.listCpu n)
  ({ h with cpu := Function.update h.cpu n fields, callocs := n + 1 }, n)

def buildPstateInfo (ref : RecordRef) (h : Heap) : Heap :=
  { h with pstates := Function.update h.pstates ref (some Pstates.buildPstateInfo) }

/-- `free(pstates->pstate)`: the array goes, the record stays. -/
def freePstate (ref : RecordRef) (h : Heap) : Option Heap := do
  let record ← h.pstates ref
  some { h with pstates := Function.update h.pstates ref (some { record with pstate := [] }) }

/-- `free(topo->online_cpus)` -/
def freeOnlineCpus (h : Heap) : Option Heap :=
  if (h.links .physicalHead).isSome then some { h with onlineCpus := none } else none

def writePhysical (h : Heap) (n : Nat) (fields : Physical) : Option Heap :=
  if (h.links (.listPhysical n)).isSome then
    some { h with physical := Function.update h.physical n fields }
  else none

def writeCore (h : Heap) (n : Nat) (fields : Core) : Option Heap :=
  if (h.links (.listCore n)).isSome then
    some { h with core := Function.update h.core n fields }
  else none

def initListHead (list : Link) (h : Heap) : Option Heap := do
  some { h with links := ← LinkedList.initListHead list h.links }

def listAddTail (new head : Link) (h : Heap) : Option Heap := do
  some { h with links := ← LinkedList.listAddTail new head h.links }

def listDel (entry : Link) (h : Heap) : Option Heap := do
  some { h with links := ← LinkedList.listDel entry h.links }

end Heap

/-! `list_entry`: the object around a link. -/

def physicalOf : Link → Option Nat
  | .listPhysical n => some n
  | _ => none

def coreOf : Link → Option Nat
  | .listCore n => some n
  | _ => none

def cpuOf : Link → Option Nat
  | .listCpu n => some n
  | _ => none

def enumOf : Link → Option Nat
  | .listPhyEnum n => some n
  | _ => none

/-! ## Building -/

/-- `((struct list_info *)tmp)->id`: the member behind the first link. -/
def idOf (h : Heap) : Link → Option Int
  | .listPhysical n => (h.readPhysical n).map Physical.physicalId
  | .listCore n => (h.readCore n).map Core.coreId
  | .listCpu n => (h.readCpu n).map Cpu.cpuId
  | _ => none

def checkExistFromHead (h : Heap) (head : Link) (id : Int) : Option (Option Link) :=
  listForEach h.links head (fun tmp => do
    let other ← idOf h tmp
    some (if id = other then some tmp else none)) h.fuel

/-- The cursor is at the head when the loop runs to its end. -/
def checkPosFromHead (h : Heap) (head : Link) (id : Int) : Option Link := do
  let tmp ← listForEach h.links head (fun tmp => do
    let other ← idOf h tmp
    some (if id < other then some tmp else none)) h.fuel
  some (tmp.getD head)

def addPhysical (h : Heap) (physicalId : Int) : Option (Heap × Nat) := do
  match ← checkExistFromHead h .physicalHead physicalId with
  | some ptr =>
    let n ← physicalOf ptr
    some (h, n)
  | none =>
    let (h, n) := h.callocPhysical ⟨physicalId, 0, none, some (.cluster physicalId)⟩
    let h := h.buildPstateInfo (.cluster physicalId)
    let h ← h.initListHead (.coreHead n)
    let h ← h.initListHead (.cpuEnumHead n)
    let ptr ← checkPosFromHead h .physicalHead physicalId
    let h ← h.listAddTail (.listPhysical n) ptr
    some (h, n)

def addCore (h : Heap) (phy : Nat) (coreId : Int) : Option (Heap × Nat) := do
  match ← checkExistFromHead h (.coreHead phy) coreId with
  | some ptr =>
    let n ← coreOf ptr
    some (h, n)
  | none =>
    let fields ← h.readPhysical phy
    let (h, n) := h.callocCore ⟨coreId, 0, false, none, some (.core fields.physicalId coreId)⟩
    let h := h.buildPstateInfo (.core fields.physicalId coreId)
    let h ← h.initListHead (.cpuHead n)
    let ptr ← checkPosFromHead h (.coreHead phy) coreId
    let h ← h.listAddTail (.listCore n) ptr
    let h ← h.writePhysical phy { fields with coreNum := fields.coreNum + 1 }
    some (h, n)

def setOnline (h : Heap) (cpuId : Int) : Heap :=
  let topo := CpuTopology.setOnline
    { onlineCpus := h.onlineCpus.getD [], onlineArraySize := h.onlineArraySize } cpuId
  { h with onlineCpus := some topo.onlineCpus, onlineArraySize := topo.onlineArraySize }

def addCpu (h : Heap) (phy core : Nat) (cpuId : Int) : Option Heap := do
  match ← checkExistFromHead h (.cpuHead core) cpuId with
  | some _ => some h
  | none =>
    let (h, n) := h.callocCpu ⟨cpuId, none, none⟩
    let ptr ← checkPosFromHead h (.cpuHead core) cpuId
    let h ← h.listAddTail (.listCpu n) ptr
    let fields ← h.readCore core
    let h ← h.writeCore core
      { fields with
        cpuNum := fields.cpuNum + 1
        isHt := if fields.cpuNum + 1 > 1 then true else fields.isHt }
    let h ← h.listAddTail (.listPhyEnum n) (.cpuEnumHead phy)
    some (setOnline h cpuId)

def addTopoInfo (h : Heap) (info : TopologyInfo) : Option Heap :=
  if info.physicalId < 0 ∨ info.coreId < 0 ∨ info.cpuId < 0 then none
  else do
    let (h, phy) ← addPhysical h info.physicalId
    let (h, core) ← addCore h phy info.coreId
    addCpu h phy core info.cpuId

def noMemory : Heap :=
  { links := fun _ => none
    physical := fun _ => ⟨0, 0, none, none⟩
    core := fun _ => ⟨0, 0, false, none, none⟩
    cpu := fun _ => ⟨0, none, none⟩
    callocs := 0
    pstates := fun _ => none
    onlineCpus := none
    onlineArraySize := 0 }

def allocCpuTopoInfo : Option Heap :=
  (noMemory.alloc .physicalHead).initListHead .physicalHead

/-! ## Looking CPUs up -/

/-- The cluster that lists the CPU first, or a null pointer. -/
def cpuToCluster (h : Heap) (cpuid : Int) : Option (Option Nat) :=
  listForEach h.links .physicalHead (fun ptr => do
    let phy ← physicalOf ptr
    listForEach h.links (.cpuEnumHead phy) (fun ptr => do
      let cpu ← h.readCpu (← enumOf ptr)
      some (if cpu.cpuId = cpuid then some phy else none)) h.fuel) h.fuel

def cpuToCore (h : Heap) (cpuid : Int) : Option (Option Nat) :=
  listForEach h.links .physicalHead (fun ptr => do
    let phy ← physicalOf ptr
    listForEach h.links (.coreHead phy) (fun ptr => do
      let core ← coreOf ptr
      listForEach h.links (.cpuHead core) (fun ptr => do
        let cpu ← h.readCpu (← cpuOf ptr)
        some (if cpu.cpuId = cpuid then some core else none)) h.fuel) h.fuel) h.fuel

/-! ## Releasing -/

def freeCpu (n : Nat) (h : Heap) : Option Heap := do
  let h ← h.free (.listPhyEnum n)
  h.free (.listCpu n)

def freeCore (n : Nat) (h : Heap) : Option Heap := do
  let h ← h.free (.cpuHead n)
  h.free (.listCore n)

def freePhysical (n : Nat) (h : Heap) : Option Heap := do
  let h ← h.free (.coreHead n)
  let h ← h.free (.cpuEnumHead n)
  h.free (.listPhysical n)

def freeCpuCpuList (head : Link) (h : Heap) : Option Heap :=
  listForEachSafe Heap.links head (fun lcpu h => do
    let n ← cpuOf lcpu
    let h ← h.listDel (.listCpu n)
    let h ← h.listDel (.listPhyEnum n)
    freeCpu n h) h.fuel h

def freeCpuCoreList (head : Link) (h : Heap) : Option Heap :=
  listForEachSafe Heap.links head (fun lcore h => do
    let n ← coreOf lcore
    let h ← freeCpuCpuList (.cpuHead n) h
    let h ← h.listDel (.listCore n)
    freeCore n h) h.fuel h

def freeCpuTopology (head : Link) (h : Heap) : Option Heap :=
  listForEachSafe Heap.links head (fun lphysical h => do
    let n ← physicalOf lphysical
    let h ← freeCpuCoreList (.coreHead n) h
    let h ← h.listDel (.listPhysical n)
    let fields ← h.readPhysical n
    let h ← h.freePstate (← fields.pstates)
    freePhysical n h) h.fuel h

def releaseCpuTopoInfo (h : Heap) : Option Heap := do
  let h ← freeCpuTopology .physicalHead h
  let h ← h.freeOnlineCpus
  h.free .physicalHead

end Idlestat.Model.TopologyHeap
