import Mathlib.Data.List.Find
import Idlestat.Theory.HeapTopology
import Idlestat.Theory.TopologyCanonical

/-! A topology built in memory, CPU after CPU, and what the lookups find there.
The pointers that `cpu_to_cluster` and `cpu_to_core` return lead to the nodes
that the lookups of the tree find. -/
namespace Idlestat.Theory.HeapLookup

open Idlestat.Library Idlestat.Library.LinkedList Idlestat.Model.TopologyHeap
open Idlestat.Theory.HeapTopology Idlestat.Theory.TopologyTree Idlestat.Theory.TopologyLookup
open Idlestat.Theory.TopologyCanonical
open Idlestat.Model.Topology (CpuTopology RecordRef TopologyInfo Fault enumContains coreContains)

/-! ## Building -/

def buildTopology (infos : List TopologyInfo) : Option Heap := do
  infos.foldlM addTopoInfo (← allocCpuTopoInfo)

theorem allocCpuTopoInfo_spec : ∃ h, allocCpuTopoInfo = some h ∧ Holds h [] [] ∧
    treeOf h [] = Model.Topology.allocCpuTopoInfo ∧ ∀ ref, h.pstates ref = none := by
  have hnothing : Memory noMemory.links ([] : List (Link × List Link)) [] := {
    rings := ⟨List.nodup_nil, by simp⟩
    apart := by simp
    nodup := List.nodup_nil
    live := by simp [noMemory, footprint] }
  have halloc : Memory (noMemory.alloc .physicalHead).links ([] ++ []) [.physicalHead] :=
    hnothing.allocate rfl
  obtain ⟨links, hinit, hmemory, hlive⟩ := halloc.init
  refine ⟨{ noMemory.alloc .physicalHead with links := links }, ?_, ?_, rfl, fun _ => rfl⟩
  · simp only [allocCpuTopoInfo, Heap.initListHead, hinit, Option.bind_eq_bind, Option.bind_some]
  · exact {
      memory := hmemory
      fresh := fun link hlink n hn => by
        have hlive' : ((noMemory.alloc .physicalHead).links link).isSome := hlive link ▸ hlink
        by_cases hhead : link = .physicalHead
        · rw [hhead] at hn
          cases hn
        · have hfree : (noMemory.alloc .physicalHead).links link = none :=
            allocate_of_ne hhead
          rw [hfree] at hlive'
          cases hlive'
      enum := by simp
      recorded := ⟨by simp, by simp, by simp⟩ }

/-- The records of the clusters and the cores of these CPUs. -/
def RecordFor (infos : List TopologyInfo) (ref : RecordRef) : Prop :=
  ∃ info ∈ infos, ref = .cluster info.physicalId ∨ ref = .core info.physicalId info.coreId

theorem foldlM_ok {infos : List TopologyInfo} {h : Heap} {s : Shape} (hs : Holds h s [])
    {topo : CpuTopology}
    (hrun : Runs.run Model.Topology.addTopoInfo (treeOf h s) infos = .ok topo) :
    ∃ h' s', infos.foldlM addTopoInfo h = some h' ∧ Holds h' s' [] ∧ treeOf h' s' = topo ∧
      ∀ ref, (h'.pstates ref).isSome ↔ (h.pstates ref).isSome ∨ RecordFor infos ref := by
  induction infos generalizing h s with
  | nil => exact ⟨h, s, rfl, hs, Except.ok.inj hrun, fun ref => by simp [RecordFor]⟩
  | cons info rest ih =>
    obtain ⟨next, hadd, hrest⟩ := Runs.bind_eq_ok hrun
    obtain ⟨h₁, s₁, hheap, hs₁, htree, hone⟩ := addTopoInfo_spec hs hadd
    rw [← htree] at hrest
    obtain ⟨h', s', hfold, hs', htree', hall⟩ := ih hs₁ hrest
    refine ⟨h', s', ?_, hs', htree', fun ref => ?_⟩
    · rw [List.foldlM_cons, hheap]
      exact hfold
    · rw [hall, hone, or_assoc]
      simp [RecordFor]

/-- The program stops on memory at the same CPU as on the tree. -/
theorem foldlM_error {infos : List TopologyInfo} {h : Heap} {s : Shape} (hs : Holds h s [])
    {fault : Fault}
    (hrun : Runs.run Model.Topology.addTopoInfo (treeOf h s) infos = .error fault) :
    infos.foldlM addTopoInfo h = none := by
  induction infos generalizing h s with
  | nil => cases hrun
  | cons info rest ih =>
    rw [List.foldlM_cons]
    rw [Runs.run_cons] at hrun
    cases hadd : Model.Topology.addTopoInfo (treeOf h s) info with
    | error e =>
      by_cases hneg : info.physicalId < 0 ∨ info.coreId < 0 ∨ info.cpuId < 0
      · rw [addTopoInfo, if_pos hneg]
        rfl
      · rw [Model.Topology.addTopoInfo, if_neg hneg] at hadd
        split at hadd <;> cases hadd
    | ok next =>
      obtain ⟨h₁, s₁, hheap, hs₁, htree, -⟩ := addTopoInfo_spec hs hadd
      rw [hadd, ← htree] at hrun
      rw [hheap]
      exact ih hs₁ hrun

theorem buildTopology_error {infos : List TopologyInfo} {fault : Fault}
    (hrun : addTopoInfos infos = .error fault) : buildTopology infos = none := by
  obtain ⟨start, halloc, hstart, hempty, -⟩ := allocCpuTopoInfo_spec
  rw [addTopoInfos, ← hempty] at hrun
  simp only [buildTopology, halloc, Option.bind_eq_bind, Option.bind_some]
  exact foldlM_error hstart hrun

theorem buildTopology_ok {infos : List TopologyInfo} {topo : CpuTopology}
    (hrun : addTopoInfos infos = .ok topo) :
    ∃ h s, buildTopology infos = some h ∧ Holds h s [] ∧ treeOf h s = topo ∧
      ∀ ref, (h.pstates ref).isSome ↔ RecordFor infos ref := by
  obtain ⟨start, halloc, hstart, hempty, hnone⟩ := allocCpuTopoInfo_spec
  rw [addTopoInfos, ← hempty] at hrun
  obtain ⟨h, s, hfold, hs, htree, hrecords⟩ := foldlM_ok hstart hrun
  refine ⟨h, s, ?_, hs, htree, fun ref => ?_⟩
  · simp only [buildTopology, halloc, Option.bind_eq_bind, Option.bind_some, hfold]
  · rw [hrecords, hnone]
    simp

theorem nonNegative_of_ok {infos : List TopologyInfo} {topo : CpuTopology}
    (hbuilt : addTopoInfos infos = .ok topo) : ∀ info ∈ infos, NonNegative info := by
  intro info hinfo
  rw [addTopoInfos, ← Runs.foldlM_eq_run] at hbuilt
  obtain ⟨state, next, hadd⟩ := Runs.foldlM_ok_of_mem hbuilt hinfo
  by_contra hneg
  have hids : info.physicalId < 0 ∨ info.coreId < 0 ∨ info.cpuId < 0 := by
    rw [NonNegative] at hneg
    omega
  rw [Model.Topology.addTopoInfo, if_pos hids] at hadd
  cases hadd

section Lookup

variable {h : Heap} {s : Shape} {P : PhysicalShape} {loose : List Link} (cpuid : Int)

def enumHas (h : Heap) (cpuid : Int) (P : PhysicalShape) : Bool :=
  P.enum.any fun entry => (h.cpu entry.2).cpuId = cpuid

def coreHas (h : Heap) (cpuid : Int) (C : CoreShape) : Bool :=
  C.cpus.any fun n => (h.cpu n).cpuId = cpuid

theorem findSome_const {α β : Type} {p : α → Bool} {y : β} (l : List α) :
    (l.findSome? fun x => if p x then some y else none) = if l.any p then some y else none := by
  induction l with
  | nil => rfl
  | cons x rest ih => by_cases hx : p x <;> simp [hx, ih]

theorem findSome_find {α β : Type} {p : α → Bool} {f : α → β} (l : List α) :
    (l.findSome? fun x => if p x then some (f x) else none) = (l.find? p).map f := by
  induction l with
  | nil => rfl
  | cons x rest ih => by_cases hx : p x <;> simp [hx, ih]

theorem Holds.readCpu (hs : Holds h s loose) (hP : P ∈ s) {C : CoreShape} (hC : C ∈ P.cores)
    {n : Nat} (hn : n ∈ C.cpus) : h.readCpu n = some (h.cpu n) := by
  simp only [Heap.readCpu, hs.live_cpu hP hC hn, if_true]

private theorem enum_loop (hs : Holds h s loose) (hP : P ∈ s) :
    listForEach h.links (.cpuEnumHead P.addr) (fun ptr => do
      let cpu ← h.readCpu (← enumOf ptr)
      some (if cpu.cpuId = cpuid then some P.addr else none)) h.fuel =
        some (if enumHas h cpuid P then some P.addr else none) := by
  have hring : Ring h.links (.cpuEnumHead P.addr) (P.enum.map fun entry => .listPhyEnum entry.2) :=
    hs.memory.rings.ring _ (mem_rings_enum hP)
  have hshort : P.enum.length < h.fuel := by
    simpa [PhysicalShape.enumRing] using hs.short (mem_rings_enum hP)
  have hvisit : ∀ entry ∈ P.enum, (do
      let cpu ← h.readCpu (← enumOf (.listPhyEnum entry.2))
      some (if cpu.cpuId = cpuid then some P.addr else none)) =
        some (if decide ((h.cpu entry.2).cpuId = cpuid) then some P.addr else none) := by
    intro entry hentry
    obtain ⟨C, hC, hmem⟩ := List.mem_flatMap.mp ((hs.enum P hP).mem_iff.mp hentry)
    obtain ⟨n, hn, rfl⟩ := List.mem_map.mp hmem
    simp [enumOf, Holds.readCpu hs hP hC hn]
  rw [forEach_eq hring hshort hvisit, findSome_const]
  rfl

theorem cpuToCluster_eq (hs : Holds h s loose) :
    cpuToCluster h cpuid = some ((s.find? (enumHas h cpuid)).map PhysicalShape.addr) := by
  have hring := hs.memory.rings.ring _ mem_rings_top
  have hshort : s.length < h.fuel := by simpa using hs.short mem_rings_top
  have hvisit : ∀ P ∈ s, (do
      let phy ← physicalOf P.link
      listForEach h.links (.cpuEnumHead phy) (fun ptr => do
        let cpu ← h.readCpu (← enumOf ptr)
        some (if cpu.cpuId = cpuid then some phy else none)) h.fuel) =
          some (if enumHas h cpuid P then some P.addr else none) :=
    fun P hP => enum_loop cpuid hs hP
  rw [cpuToCluster, forEach_eq hring hshort hvisit, findSome_find]

private theorem cpu_loop (hs : Holds h s loose) (hP : P ∈ s) {C : CoreShape} (hC : C ∈ P.cores) :
    listForEach h.links (.cpuHead C.addr) (fun ptr => do
      let cpu ← h.readCpu (← cpuOf ptr)
      some (if cpu.cpuId = cpuid then some C.addr else none)) h.fuel =
        some (if coreHas h cpuid C then some C.addr else none) := by
  have hring : Ring h.links (.cpuHead C.addr) (C.cpus.map .listCpu) :=
    hs.memory.rings.ring _ (mem_rings_cpus hP hC)
  have hshort : C.cpus.length < h.fuel := by
    simpa [CoreShape.ring] using hs.short (mem_rings_cpus hP hC)
  have hvisit : ∀ n ∈ C.cpus, (do
      let cpu ← h.readCpu (← cpuOf (.listCpu n))
      some (if cpu.cpuId = cpuid then some C.addr else none)) =
        some (if decide ((h.cpu n).cpuId = cpuid) then some C.addr else none) := by
    intro n hn
    simp [cpuOf, Holds.readCpu hs hP hC hn]
  rw [forEach_eq hring hshort hvisit, findSome_const]
  rfl

private theorem core_loop (hs : Holds h s loose) (hP : P ∈ s) :
    listForEach h.links (.coreHead P.addr) (fun ptr => do
      let core ← coreOf ptr
      listForEach h.links (.cpuHead core) (fun ptr => do
        let cpu ← h.readCpu (← cpuOf ptr)
        some (if cpu.cpuId = cpuid then some core else none)) h.fuel) h.fuel =
          some ((P.cores.find? (coreHas h cpuid)).map CoreShape.addr) := by
  have hshort : P.cores.length < h.fuel := by
    simpa [PhysicalShape.coreRing] using hs.short (mem_rings_cores hP)
  have hvisit : ∀ C ∈ P.cores, (do
      let core ← coreOf C.link
      listForEach h.links (.cpuHead core) (fun ptr => do
        let cpu ← h.readCpu (← cpuOf ptr)
        some (if cpu.cpuId = cpuid then some core else none)) h.fuel) =
          some (if coreHas h cpuid C then some C.addr else none) :=
    fun C hC => cpu_loop cpuid hs hP hC
  rw [forEach_eq (hs.coreRing hP) hshort hvisit, findSome_find]

theorem cpuToCore_eq (hs : Holds h s loose) :
    cpuToCore h cpuid =
      some (s.findSome? fun P => (P.cores.find? (coreHas h cpuid)).map CoreShape.addr) := by
  have hring := hs.memory.rings.ring _ mem_rings_top
  have hshort : s.length < h.fuel := by simpa using hs.short mem_rings_top
  have hvisit : ∀ P ∈ s, (do
      let phy ← physicalOf P.link
      listForEach h.links (.coreHead phy) (fun ptr => do
        let core ← coreOf ptr
        listForEach h.links (.cpuHead core) (fun ptr => do
          let cpu ← h.readCpu (← cpuOf ptr)
          some (if cpu.cpuId = cpuid then some core else none)) h.fuel) h.fuel) =
            some ((P.cores.find? (coreHas h cpuid)).map CoreShape.addr) :=
    fun P hP => core_loop cpuid hs hP
  rw [cpuToCore, forEach_eq hring hshort hvisit]

theorem coreContains_eq (C : CoreShape) : coreContains cpuid (coreAt h C) = coreHas h cpuid C :=
  List.any_map

theorem enumContains_eq (hs : Holds h s loose) (hshape : TopoShape (treeOf h s)) (hP : P ∈ s) :
    enumContains cpuid (physicalAt h P) = enumHas h cpuid P := by
  rw [Bool.eq_iff_iff, hshape.enumContains_iff (List.mem_map_of_mem hP), enumHas, List.any_eq_true]
  constructor
  · rintro ⟨core, hcore, cpu, hcpu, hid⟩
    obtain ⟨C, hC, rfl⟩ := List.mem_map.mp hcore
    obtain ⟨n, hn, rfl⟩ := List.mem_map.mp hcpu
    refine ⟨(C.addr, n), (hs.enum P hP).mem_iff.mpr ?_, decide_eq_true hid⟩
    exact List.mem_flatMap.mpr ⟨C, hC, List.mem_map_of_mem hn⟩
  · rintro ⟨entry, hentry, hid⟩
    obtain ⟨C, hC, hmem⟩ := List.mem_flatMap.mp ((hs.enum P hP).mem_iff.mp hentry)
    obtain ⟨n, hn, rfl⟩ := List.mem_map.mp hmem
    exact ⟨coreAt h C, List.mem_map_of_mem hC, cpuAt h n, List.mem_map_of_mem hn,
      of_decide_eq_true hid⟩

/-- A lookup in memory returns the node that the lookup in the tree finds. -/
structure LookupsAgree (h : Heap) (s : Shape) (topo : CpuTopology) (cpuid : Int) : Prop where
  cluster : ∃ found : Option PhysicalShape, (∀ P ∈ found, P ∈ s) ∧
    cpuToCluster h cpuid = some (found.map PhysicalShape.addr) ∧
    Model.Topology.cpuToCluster cpuid topo = found.map (physicalAt h)
  core : ∃ found : Option CoreShape, (∀ C ∈ found, ∃ P ∈ s, C ∈ P.cores) ∧
    cpuToCore h cpuid = some (found.map CoreShape.addr) ∧
    Model.Topology.cpuToCore cpuid topo = found.map (coreAt h)

theorem lookupsAgree (hs : Holds h s loose) (hshape : TopoShape (treeOf h s)) :
    LookupsAgree h s (treeOf h s) cpuid := by
  have hcore : ∀ P : PhysicalShape, (P.cores.map (coreAt h)).find? (coreContains cpuid) =
      (P.cores.find? (coreHas h cpuid)).map (coreAt h) := by
    intro P
    rw [List.find?_map]
    congr 2
    funext C
    exact coreContains_eq cpuid C
  constructor
  · refine ⟨s.find? (enumHas h cpuid), fun P hP => List.mem_of_find?_eq_some hP,
      cpuToCluster_eq cpuid hs, ?_⟩
    rw [Model.Topology.cpuToCluster, treeOf, List.find?_map]
    congr 1
    exact List.find?_congr fun P hP => enumContains_eq cpuid hs hshape hP
  · refine ⟨s.findSome? fun P => P.cores.find? (coreHas h cpuid), fun C hC => ?_, ?_, ?_⟩
    · obtain ⟨P, hP, hfound⟩ := List.exists_of_findSome?_eq_some hC
      exact ⟨P, hP, List.mem_of_find?_eq_some hfound⟩
    · rw [cpuToCore_eq cpuid hs, List.map_findSome?]
      rfl
    · rw [Model.Topology.cpuToCore, treeOf, List.findSome?_map, List.map_findSome?]
      congr 1
      funext P
      exact hcore P

/-- A topology in memory is the tree, and a CPU that stops the one stops the
other. -/
theorem topology_in_memory (infos : List TopologyInfo) :
    (∀ fault, addTopoInfos infos = .error fault → buildTopology infos = none) ∧
    ∀ topo, addTopoInfos infos = .ok topo →
      ∃ h s, buildTopology infos = some h ∧ Holds h s [] ∧ treeOf h s = topo ∧
        ∀ cpuid, LookupsAgree h s topo cpuid := by
  refine ⟨fun fault hrun => buildTopology_error hrun, fun topo hrun => ?_⟩
  obtain ⟨h, s, hbuild, hs, rfl, -⟩ := buildTopology_ok hrun
  obtain ⟨topo, hbuilt, hwf, -⟩ := addTopoInfos_spec (nonNegative_of_ok hrun)
  obtain rfl : treeOf h s = topo := Except.ok.inj (hrun.symm.trans hbuilt)
  exact ⟨h, s, hbuild, hs, rfl, fun cpuid => lookupsAgree cpuid hs (TopoWf.shape hwf)⟩

theorem topology_in_memory_pair :
    ∃ topo, addTopoInfos [⟨1, 0, 4⟩, ⟨0, 2, 1⟩] = .ok topo ∧
      ∃ h s, buildTopology [⟨1, 0, 4⟩, ⟨0, 2, 1⟩] = some h ∧ Holds h s [] ∧ treeOf h s = topo ∧
        ∀ cpuid, LookupsAgree h s topo cpuid := by
  have hids : ∀ info ∈ [(⟨1, 0, 4⟩ : TopologyInfo), ⟨0, 2, 1⟩], NonNegative info := by
    simp [NonNegative]
  obtain ⟨topo, hbuilt, -⟩ := addTopoInfos_spec hids
  exact ⟨topo, hbuilt, (topology_in_memory _).2 topo hbuilt⟩

end Lookup

end Idlestat.Theory.HeapLookup
