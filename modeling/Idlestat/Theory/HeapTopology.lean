import Idlestat.Model.TopologyHeap
import Idlestat.Theory.TopologyCanonical

/-! The objects and links of `topology.c` against the tree of the model. A shape
says which objects hang where; read through it, memory is a tree, and adding a
CPU to memory is adding it to that tree. -/
namespace Idlestat.Theory.HeapTopology

open Idlestat.Library Idlestat.Library.LinkedList Idlestat.Model.TopologyHeap
open Idlestat.Model.Topology (CpuCpu CpuCore CpuRef CpuPhysical CpuTopology RecordRef TopologyInfo
  Fault)

/-! ## Shapes -/

structure CoreShape where
  addr : Nat
  cpus : List Nat

/-- `enum` holds each CPU with the core that it is in. -/
structure PhysicalShape where
  addr : Nat
  cores : List CoreShape
  enum : List (Nat × Nat)

abbrev Shape := List PhysicalShape

def CoreShape.link (C : CoreShape) : Link := .listCore C.addr

def PhysicalShape.link (P : PhysicalShape) : Link := .listPhysical P.addr

def CoreShape.ring (C : CoreShape) : Link × List Link :=
  (.cpuHead C.addr, C.cpus.map .listCpu)

def PhysicalShape.coreRing (P : PhysicalShape) : Link × List Link :=
  (.coreHead P.addr, P.cores.map CoreShape.link)

def PhysicalShape.enumRing (P : PhysicalShape) : Link × List Link :=
  (.cpuEnumHead P.addr, P.enum.map fun entry => .listPhyEnum entry.2)

def PhysicalShape.rings (P : PhysicalShape) : List (Link × List Link) :=
  P.coreRing :: P.enumRing :: P.cores.map CoreShape.ring

def ringsOf (s : Shape) : List (Link × List Link) :=
  (.physicalHead, s.map PhysicalShape.link) :: s.flatMap PhysicalShape.rings

def object : Link → Option Nat
  | .physicalHead => none
  | .listPhysical n | .coreHead n | .cpuEnumHead n => some n
  | .listCore n | .cpuHead n => some n
  | .listCpu n | .listPhyEnum n => some n

structure Recorded (h : Heap) (s : Shape) : Prop where
  pointer : ∀ P ∈ s, (h.physical P.addr).pstates = some (.cluster (h.physical P.addr).physicalId)
  cluster : ∀ P ∈ s, (h.pstates (.cluster (h.physical P.addr).physicalId)).isSome
  core : ∀ P ∈ s, ∀ C ∈ P.cores,
    (h.pstates (.core (h.physical P.addr).physicalId (h.core C.addr).coreId)).isSome

/-- Memory has this shape, and besides it only the loose links. -/
structure Holds (h : Heap) (s : Shape) (loose : List Link) : Prop where
  memory : Memory h.links (ringsOf s) loose
  fresh : ∀ link, (h.links link).isSome → ∀ n ∈ object link, n < h.callocs
  enum : ∀ P ∈ s, P.enum.Perm (P.cores.flatMap fun C => C.cpus.map (C.addr, ·))
  recorded : Recorded h s

/-! ## The tree in memory -/

def cpuAt (h : Heap) (n : Nat) : CpuCpu :=
  { cpuId := (h.cpu n).cpuId, cstates := (h.cpu n).cstates, pstates := (h.cpu n).pstates }

def coreAt (h : Heap) (C : CoreShape) : CpuCore :=
  { coreId := (h.core C.addr).coreId
    cpuHead := C.cpus.map (cpuAt h)
    cpuNum := (h.core C.addr).cpuNum
    isHt := (h.core C.addr).isHt
    cstates := (h.core C.addr).cstates
    pstates := (h.core C.addr).pstates }

def refAt (h : Heap) (entry : Nat × Nat) : CpuRef :=
  { coreId := (h.core entry.1).coreId, cpuId := (h.cpu entry.2).cpuId }

def physicalAt (h : Heap) (P : PhysicalShape) : CpuPhysical :=
  { physicalId := (h.physical P.addr).physicalId
    coreHead := P.cores.map (coreAt h)
    coreNum := (h.physical P.addr).coreNum
    cpuEnumHead := P.enum.map (refAt h)
    cstates := (h.physical P.addr).cstates
    pstates := (h.physical P.addr).pstates }

def treeOf (h : Heap) (s : Shape) : CpuTopology :=
  { physicalHead := s.map (physicalAt h)
    onlineCpus := h.onlineCpus.getD []
    onlineArraySize := h.onlineArraySize }

section Reading

variable {h h' : Heap} {s A B : Shape} {P : PhysicalShape} {C : CoreShape} {loose : List Link}

theorem coreAt_congr (hcore : h'.core C.addr = h.core C.addr)
    (hcpu : ∀ n ∈ C.cpus, h'.cpu n = h.cpu n) : coreAt h' C = coreAt h C := by
  have hcpus : C.cpus.map (cpuAt h') = C.cpus.map (cpuAt h) :=
    List.map_congr_left fun n hn => by simp only [cpuAt, hcpu n hn]
  simp only [coreAt, hcore, hcpus]

theorem refs_congr (henum : P.enum.Perm (P.cores.flatMap fun C => C.cpus.map (C.addr, ·)))
    (hcore : ∀ C ∈ P.cores, h'.core C.addr = h.core C.addr)
    (hcpu : ∀ C ∈ P.cores, ∀ n ∈ C.cpus, h'.cpu n = h.cpu n) :
    P.enum.map (refAt h') = P.enum.map (refAt h) := by
  apply List.map_congr_left
  intro entry hentry
  obtain ⟨C, hC, hmem⟩ := List.mem_flatMap.mp (henum.mem_iff.mp hentry)
  obtain ⟨n, hn, rfl⟩ := List.mem_map.mp hmem
  simp only [refAt, hcore C hC, hcpu C hC n hn]

theorem physicalAt_congr (henum : P.enum.Perm (P.cores.flatMap fun C => C.cpus.map (C.addr, ·)))
    (hphysical : h'.physical P.addr = h.physical P.addr)
    (hcore : ∀ C ∈ P.cores, h'.core C.addr = h.core C.addr)
    (hcpu : ∀ C ∈ P.cores, ∀ n ∈ C.cpus, h'.cpu n = h.cpu n) :
    physicalAt h' P = physicalAt h P := by
  have hcores : P.cores.map (coreAt h') = P.cores.map (coreAt h) :=
    List.map_congr_left fun C hC => coreAt_congr (hcore C hC) (hcpu C hC)
  simp only [physicalAt, hphysical, hcores, refs_congr henum hcore hcpu]

theorem Recorded.congr (hr : Recorded h s) {s' : Shape}
    (hsub : ∀ P' ∈ s', ∃ P ∈ s, P.addr = P'.addr ∧
      ∀ C' ∈ P'.cores, ∃ C ∈ P.cores, C.addr = C'.addr)
    (hphysical : ∀ P ∈ s, (h'.physical P.addr).physicalId = (h.physical P.addr).physicalId ∧
      (h'.physical P.addr).pstates = (h.physical P.addr).pstates)
    (hcore : ∀ P ∈ s, ∀ C ∈ P.cores, (h'.core C.addr).coreId = (h.core C.addr).coreId)
    (hpstates : ∀ ref, (h.pstates ref).isSome → (h'.pstates ref).isSome) : Recorded h' s' := by
  constructor
  · intro P' hP'
    obtain ⟨P, hP, haddr, -⟩ := hsub P' hP'
    obtain ⟨hid, hpointer⟩ := hphysical P hP
    rw [← haddr, hpointer, hid]
    exact hr.pointer P hP
  · intro P' hP'
    obtain ⟨P, hP, haddr, -⟩ := hsub P' hP'
    rw [← haddr, (hphysical P hP).1]
    exact hpstates _ (hr.cluster P hP)
  · intro P' hP' C' hC'
    obtain ⟨P, hP, haddr, hcores⟩ := hsub P' hP'
    obtain ⟨C, hC, hcoreAddr⟩ := hcores C' hC'
    rw [← haddr, ← hcoreAddr, (hphysical P hP).1, hcore P hP C hC]
    exact hpstates _ (hr.core P hP C hC)

theorem isSome_buildPstateInfo {built ref : RecordRef} :
    ((h.buildPstateInfo built).pstates ref).isSome ↔ (h.pstates ref).isSome ∨ ref = built := by
  by_cases href : ref = built <;> simp [Heap.buildPstateInfo, href]

/-! ## What is allocated -/

theorem mem_rings_top : (Link.physicalHead, s.map PhysicalShape.link) ∈ ringsOf s :=
  List.mem_cons_self

theorem mem_rings_of_physical (hP : P ∈ s) {ring : Link × List Link} (hring : ring ∈ P.rings) :
    ring ∈ ringsOf s :=
  List.mem_cons_of_mem _ (List.mem_flatMap.mpr ⟨P, hP, hring⟩)

theorem mem_rings_cores (hP : P ∈ s) : P.coreRing ∈ ringsOf s :=
  mem_rings_of_physical hP List.mem_cons_self

theorem mem_rings_enum (hP : P ∈ s) : P.enumRing ∈ ringsOf s :=
  mem_rings_of_physical hP (List.mem_cons_of_mem _ List.mem_cons_self)

theorem mem_rings_cpus (hP : P ∈ s) (hC : C ∈ P.cores) : C.ring ∈ ringsOf s :=
  mem_rings_of_physical hP
    (List.mem_cons_of_mem _ (List.mem_cons_of_mem _ (List.mem_map_of_mem hC)))

theorem live_of_memory {links : Links Link} (hmemory : Memory links (ringsOf s) loose)
    {ring : Link × List Link} (hring : ring ∈ ringsOf s) {link : Link}
    (hlink : link ∈ ring.1 :: ring.2) : (links link).isSome :=
  hmemory.rings.live (mem_footprint.mpr ⟨ring, hring, hlink⟩)

theorem Holds.live (hs : Holds h s loose) {ring : Link × List Link} (hring : ring ∈ ringsOf s)
    {link : Link} (hlink : link ∈ ring.1 :: ring.2) : (h.links link).isSome :=
  live_of_memory hs.memory hring hlink

theorem Holds.live_physical (hs : Holds h s loose) (hP : P ∈ s) :
    (h.links (.listPhysical P.addr)).isSome :=
  hs.live mem_rings_top (List.mem_cons_of_mem _ (List.mem_map.mpr ⟨P, hP, rfl⟩))

theorem Holds.live_core (hs : Holds h s loose) (hP : P ∈ s) (hC : C ∈ P.cores) :
    (h.links (.listCore C.addr)).isSome :=
  hs.live (mem_rings_cores hP) (List.mem_cons_of_mem _ (List.mem_map.mpr ⟨C, hC, rfl⟩))

theorem Holds.live_cpu (hs : Holds h s loose) (hP : P ∈ s) (hC : C ∈ P.cores) {n : Nat}
    (hn : n ∈ C.cpus) : (h.links (.listCpu n)).isSome :=
  hs.live (mem_rings_cpus hP hC) (List.mem_cons_of_mem _ (List.mem_map_of_mem hn))

theorem Holds.physical_lt (hs : Holds h s loose) (hP : P ∈ s) : P.addr < h.callocs :=
  hs.fresh _ (hs.live_physical hP) _ rfl

theorem Holds.core_lt (hs : Holds h s loose) (hP : P ∈ s) (hC : C ∈ P.cores) :
    C.addr < h.callocs :=
  hs.fresh _ (hs.live_core hP hC) _ rfl

theorem Holds.cpu_lt (hs : Holds h s loose) (hP : P ∈ s) (hC : C ∈ P.cores) {n : Nat}
    (hn : n ∈ C.cpus) : n < h.callocs :=
  hs.fresh _ (hs.live_cpu hP hC hn) _ rfl

theorem Holds.unallocated (hs : Holds h s loose) {link : Link} (hlink : h.callocs ∈ object link) :
    h.links link = none := by
  by_contra hne
  have hlt := hs.fresh link (Option.isSome_iff_ne_none.mpr hne) _ hlink
  omega

theorem rings_uniform {ring : Link × List Link} (hring : ring ∈ ringsOf s) :
    ∃ (f : Nat → Link) (l : List Nat), (∀ n, object (f n) = some n) ∧ ring.2 = l.map f := by
  rcases List.mem_cons.mp hring with rfl | hring
  · exact ⟨.listPhysical, s.map PhysicalShape.addr, fun _ => rfl, by
      rw [List.map_map]; rfl⟩
  · obtain ⟨P, -, hring⟩ := List.mem_flatMap.mp hring
    rcases List.mem_cons.mp hring with rfl | hring
    · exact ⟨.listCore, P.cores.map CoreShape.addr, fun _ => rfl, by
        rw [List.map_map]; rfl⟩
    · rcases List.mem_cons.mp hring with rfl | hring
      · exact ⟨.listPhyEnum, P.enum.map Prod.snd, fun _ => rfl, by
          rw [List.map_map]; rfl⟩
      · obtain ⟨C, -, rfl⟩ := List.mem_map.mp hring
        exact ⟨.listCpu, C.cpus, fun _ => rfl, rfl⟩

theorem Holds.short (hs : Holds h s loose) {ring : Link × List Link} (hring : ring ∈ ringsOf s) :
    ring.2.length < h.fuel := by
  obtain ⟨f, l, hobject, hmap⟩ := rings_uniform hring
  have hnodup : (l.map f).Nodup :=
    hmap ▸ (List.nodup_cons.mp (hs.memory.rings.ring ring hring).nodup).2
  have hsub : l ⊆ List.range h.callocs := by
    intro n hn
    have hmem : f n ∈ ring.2 := hmap ▸ List.mem_map_of_mem hn
    exact List.mem_range.mpr (hs.fresh (f n) (hs.live hring (List.mem_cons_of_mem _ hmem)) n
      (hobject n))
  have hle := (List.subperm_of_subset (List.Nodup.of_map f hnodup) hsub).length_le
  rw [List.length_range] at hle
  rw [hmap, List.length_map, Heap.fuel]
  omega

end Reading

section Searching

variable {h : Heap} {β : Type} {head : Link} {node : β → Link} {key : β → Int} {elems : List β}

private theorem findSome_congr {γ : Type} {f g : β → Option γ} (h : ∀ x ∈ elems, f x = g x) :
    elems.findSome? f = elems.findSome? g := by
  induction elems with
  | nil => rfl
  | cons x rest ih =>
    rw [List.findSome?_cons, List.findSome?_cons, h x List.mem_cons_self,
      ih fun y hy => h y (List.mem_cons_of_mem _ hy)]

theorem forEach_eq (hring : Ring h.links head (elems.map node)) (hshort : elems.length < h.fuel)
    {γ : Type} {visit : Link → Option (Option γ)} {result : β → Option γ}
    (hvisit : ∀ x ∈ elems, visit (node x) = some (result x)) :
    listForEach h.links head visit h.fuel = some (elems.findSome? result) := by
  have hall : ∀ link ∈ elems.map node, visit link = some ((visit link).getD none) := by
    intro link hlink
    obtain ⟨x, hx, rfl⟩ := List.mem_map.mp hlink
    rw [hvisit x hx]
    rfl
  rw [listForEach_spec hring hall (by rwa [List.length_map]), List.findSome?_map]
  congr 1
  apply findSome_congr
  intro x hx
  simp only [Function.comp_apply, hvisit x hx, Option.getD_some]

theorem checkExistFromHead_eq (hring : Ring h.links head (elems.map node))
    (hshort : elems.length < h.fuel) (hid : ∀ x ∈ elems, idOf h (node x) = some (key x))
    (id : Int) :
    checkExistFromHead h head id =
      some ((elems.find? fun x => decide (key x = id)).map node) := by
  have hvisit : ∀ x ∈ elems, (do
      let other ← idOf h (node x)
      some (if id = other then some (node x) else none)) =
        some (if key x = id then some (node x) else none) := by
    intro x hx
    simp [hid x hx, eq_comm]
  rw [checkExistFromHead, forEach_eq hring hshort hvisit]
  congr 1
  clear hring hshort hid hvisit
  induction elems with
  | nil => rfl
  | cons x rest ih => by_cases hx : key x = id <;> simp [hx, ih]

theorem checkPosFromHead_eq (hring : Ring h.links head (elems.map node))
    (hshort : elems.length < h.fuel) (hid : ∀ x ∈ elems, idOf h (node x) = some (key x))
    (id : Int) :
    checkPosFromHead h head id =
      some ((((elems.drop (SortedKeys.position key id elems)).map node).head?).getD head) := by
  have hvisit : ∀ x ∈ elems, (do
      let other ← idOf h (node x)
      some (if id < other then some (node x) else none)) =
        some (if id < key x then some (node x) else none) := by
    intro x hx
    simp [hid x hx]
  rw [checkPosFromHead, forEach_eq hring hshort hvisit]
  simp only [Option.bind_eq_bind, Option.bind_some]
  congr 2
  clear hring hshort hid hvisit
  induction elems with
  | nil => rfl
  | cons x rest ih =>
    by_cases hx : id < key x
    · simp [SortedKeys.position, List.findIdx_cons, hx]
    · have hsucc : SortedKeys.position key id (x :: rest) =
          SortedKeys.position key id rest + 1 := by
        simp [SortedKeys.position, List.findIdx_cons, hx]
      simp [hx, ih, hsucc]

end Searching

theorem forall_mem_middle {α : Type} {p : α → Prop} {A B : List α} {x : α} :
    (∀ y ∈ A ++ x :: B, p y) ↔ p x ∧ ∀ y ∈ A ++ B, p y := by
  simp only [List.mem_append, List.mem_cons]
  grind

theorem position_map {α β : Type} {key : β → Int} {f : α → β} (id : Int) (l : List α) :
    SortedKeys.position key id (l.map f) = SortedKeys.position (fun x => key (f x)) id l := by
  rw [SortedKeys.position, SortedKeys.position, List.findIdx_map]
  rfl

/-- The place of a new element, as `check_pos_from_head` finds it. -/
theorem exists_place {β : Type} (key : β → Int) (id : Int) (l : List β) :
    ∃ A B, A ++ B = l ∧ A.length = SortedKeys.position key id l ∧
      l.drop (SortedKeys.position key id l) = B := by
  refine ⟨l.take (SortedKeys.position key id l), l.drop (SortedKeys.position key id l),
    List.take_append_drop _ l, ?_, rfl⟩
  rw [List.length_take, Nat.min_eq_left (SortedKeys.position_le id l)]

section Place

variable {α β : Type} {key : α → Int} {read read' : β → α} {id : Int} {A B : List β}

theorem take_drop_place
    (hplace : A.length = SortedKeys.position (fun x => key (read x)) id (A ++ B))
    (hsame : ∀ x ∈ A ++ B, read' x = read x) :
    ((A ++ B).map read).take (SortedKeys.position key id ((A ++ B).map read)) = A.map read' ∧
      ((A ++ B).map read).drop (SortedKeys.position key id ((A ++ B).map read)) =
        B.map read' := by
  have hmap : (A ++ B).map read = A.map read' ++ B.map read' := by
    rw [← List.map_append]
    exact List.map_congr_left fun x hx => (hsame x hx).symm
  rw [position_map, ← hplace, hmap]
  simp

theorem lookup_absent (habsent : ∀ x ∈ A ++ B, key (read x) ≠ id) :
    SortedKeys.lookup key id ((A ++ B).map read) = none := by
  rw [SortedKeys.lookup_none]
  intro y hy
  obtain ⟨x, hx, rfl⟩ := List.mem_map.mp hy
  exact habsent x hx

theorem upsert_place (habsent : ∀ x ∈ A ++ B, key (read x) ≠ id)
    (hplace : A.length = SortedKeys.position (fun x => key (read x)) id (A ++ B))
    (hsame : ∀ x ∈ A ++ B, read' x = read x) (fresh : α) (f : α → α) :
    SortedKeys.upsert key id fresh f ((A ++ B).map read) =
      A.map read' ++ f fresh :: B.map read' := by
  obtain ⟨htake, hdrop⟩ := take_drop_place hplace hsame
  rw [SortedKeys.upsert_absent (SortedKeys.lookup_none.mp (lookup_absent habsent)), htake, hdrop]

end Place

theorem mem_middle {α : Type} {A B : List α} {x : α} (y : α) (hx : x ∈ A ++ B) :
    x ∈ A ++ y :: B := by
  rcases List.mem_append.mp hx with hA | hB
  · exact List.mem_append_left _ hA
  · exact List.mem_append_right _ (List.mem_cons_of_mem _ hB)

theorem sub_middle {A B : Shape} {P P' : PhysicalShape} (haddr : P.addr = P'.addr)
    (hcores : ∀ C' ∈ P'.cores, ∃ C ∈ P.cores, C.addr = C'.addr) :
    ∀ Q' ∈ A ++ P' :: B, ∃ Q ∈ A ++ P :: B, Q.addr = Q'.addr ∧
      ∀ C' ∈ Q'.cores, ∃ C ∈ Q.cores, C.addr = C'.addr := by
  rw [forall_mem_middle]
  refine ⟨⟨P, List.mem_append_right _ List.mem_cons_self, haddr, hcores⟩, fun Q hQ => ?_⟩
  exact ⟨Q, mem_middle P hQ, rfl, fun C hC => ⟨C, hC, rfl⟩⟩

section AddPhysical

open Idlestat.Model.Topology (newPhysical)

variable {h h' : Heap} {s A B : Shape} {P : PhysicalShape} {loose : List Link}

theorem ringsOf_append : ringsOf (A ++ B) =
    (.physicalHead, A.map PhysicalShape.link ++ B.map PhysicalShape.link) ::
      (A.flatMap PhysicalShape.rings ++ B.flatMap PhysicalShape.rings) := by
  rw [ringsOf, List.map_append, List.flatMap_append]

theorem ringsOf_split : ringsOf (A ++ P :: B) =
    (.physicalHead, A.map PhysicalShape.link ++ P.link :: B.map PhysicalShape.link) ::
      (A.flatMap PhysicalShape.rings ++ (P.rings ++ B.flatMap PhysicalShape.rings)) := by
  rw [ringsOf_append, List.map_cons, List.flatMap_cons]

theorem Holds.idOf_physical (hs : Holds h s loose) (hP : P ∈ s) :
    idOf h P.link = some (physicalAt h P).physicalId := by
  simp only [PhysicalShape.link, idOf, Heap.readPhysical, hs.live_physical hP, if_true,
    Option.map_some]
  rfl

/-- What the cluster part of `add_topo_info` does: `P` is the cluster with this
id, and everything else is read as before. -/
structure PhysicalAdded (h : Heap) (s : Shape) (id : Int) (h' : Heap) (A : Shape)
    (P : PhysicalShape) (B : Shape) : Prop where
  holds : Holds h' (A ++ P :: B) []
  upsert : ∀ f, SortedKeys.upsert CpuPhysical.physicalId id (newPhysical id) f
    (s.map (physicalAt h)) = A.map (physicalAt h') ++ f (physicalAt h' P) :: B.map (physicalAt h')
  lookup : (SortedKeys.lookup CpuPhysical.physicalId id (s.map (physicalAt h))).getD
    (newPhysical id) = physicalAt h' P
  pstates : ∀ ref, (h'.pstates ref).isSome ↔ (h.pstates ref).isSome ∨ ref = .cluster id
  onlineCpus : h'.onlineCpus = h.onlineCpus
  onlineArraySize : h'.onlineArraySize = h.onlineArraySize

theorem allocate_of_ne {links : Links Link} {a b : Link} (hne : b ≠ a) :
    allocate a links b = links b := by
  simp [allocate, hne]

theorem Holds.callocPhysical (hs : Holds h s []) (fields : Physical) :
    Memory (h.callocPhysical fields).1.links (ringsOf s)
      [.coreHead h.callocs, .cpuEnumHead h.callocs, .listPhysical h.callocs] := by
  have hlist : h.links (.listPhysical h.callocs) = none := hs.unallocated rfl
  have henum : h.links (.cpuEnumHead h.callocs) = none := hs.unallocated rfl
  have hcore : h.links (.coreHead h.callocs) = none := hs.unallocated rfl
  have h₁ := hs.memory.allocate hlist
  have h₂ := h₁.allocate (a := .cpuEnumHead h.callocs) (by rwa [allocate_of_ne (by simp)])
  exact h₂.allocate (by rwa [allocate_of_ne (by simp), allocate_of_ne (by simp)])

theorem fresh_allocate {links : Links Link} {link : Link} {n m : Nat}
    (hfresh : ∀ link, (links link).isSome → ∀ n ∈ object link, n < m) (hlink : object link = some n)
    (hn : n < m) : ∀ other, (allocate link links other).isSome → ∀ n ∈ object other, n < m := by
  intro other hother k hk
  by_cases heq : other = link
  · rw [heq, hlink] at hk
    obtain rfl := Option.some.inj hk
    exact hn
  · rw [allocate_of_ne heq] at hother
    exact hfresh other hother k hk

theorem link_physical {links : Links Link} {n : Nat} (hmemory : Memory links (ringsOf (A ++ B))
    [.coreHead n, .cpuEnumHead n, .listPhysical n]) :
    ∃ links₁ links₂ links₃, initListHead (.coreHead n) links = some links₁ ∧
      initListHead (.cpuEnumHead n) links₁ = some links₂ ∧
      listAddTail (.listPhysical n) ((B.map PhysicalShape.link).head?.getD .physicalHead) links₂ =
        some links₃ ∧
      Ring links₂ .physicalHead ((A ++ B).map PhysicalShape.link) ∧
      Memory links₃ (ringsOf (A ++ ⟨n, [], []⟩ :: B)) [] ∧
      (∀ x, (links₂ x).isSome = (links x).isSome) ∧
      ∀ x, (links₃ x).isSome = (links x).isSome := by
  rw [ringsOf_append, ← List.cons_append] at hmemory
  obtain ⟨links₁, hinit₁, h₁, hlive₁⟩ := hmemory.init
  have h₁' : Memory links₁ (((.physicalHead, A.map PhysicalShape.link ++
      B.map PhysicalShape.link) :: A.flatMap PhysicalShape.rings ++
        [(.coreHead n, [])]) ++ B.flatMap PhysicalShape.rings)
      [.cpuEnumHead n, .listPhysical n] := by
    rw [List.append_assoc]
    exact h₁
  obtain ⟨links₂, hinit₂, h₂, hlive₂⟩ := h₁'.init
  have h₂' : Memory links₂ ([] ++ (.physicalHead, A.map PhysicalShape.link ++
      B.map PhysicalShape.link) :: (A.flatMap PhysicalShape.rings ++
        ([(.coreHead n, []), (.cpuEnumHead n, [])] ++ B.flatMap PhysicalShape.rings)))
      [.listPhysical n] := by
    simpa using h₂
  obtain ⟨links₃, hadd, h₃, hlive₃⟩ := h₂'.addTail
  have hring := h₂'.rings.ring _ List.mem_cons_self
  refine ⟨links₁, links₂, links₃, hinit₁, hinit₂, hadd, ?_, ?_, ?_, ?_⟩
  · rw [List.map_append]
    exact hring
  · rw [ringsOf_split]
    exact h₃
  · exact fun x => (hlive₂ x).trans (hlive₁ x)
  · exact fun x => (hlive₃ x).trans ((hlive₂ x).trans (hlive₁ x))

def withPhysical (h : Heap) (id : Int) : Heap :=
  (h.callocPhysical ⟨id, 0, none, some (.cluster id)⟩).1.buildPstateInfo (.cluster id)

theorem withPhysical_old (hs : Holds h s []) (id : Int) {Q : PhysicalShape} (hQ : Q ∈ s) :
    (withPhysical h id).physical Q.addr = h.physical Q.addr :=
  Function.update_of_ne (hs.physical_lt hQ).ne _ _

theorem physicalAt_withPhysical (hs : Holds h s []) (id : Int) (links : Links Link)
    {Q : PhysicalShape} (hQ : Q ∈ s) :
    physicalAt { withPhysical h id with links := links } Q = physicalAt h Q :=
  physicalAt_congr (hs.enum Q hQ) (withPhysical_old hs id hQ) (fun _ _ => rfl) fun _ _ _ _ => rfl

theorem physicalAt_new (h : Heap) (id : Int) (links : Links Link) :
    physicalAt { withPhysical h id with links := links } ⟨h.callocs, [], []⟩ = newPhysical id := by
  simp [physicalAt, newPhysical, withPhysical, Heap.buildPstateInfo, Heap.callocPhysical]

theorem addPhysical_run (hs : Holds h (A ++ B) []) {id : Int}
    (habsent : ∀ Q ∈ A ++ B, (physicalAt h Q).physicalId ≠ id)
    (hplace : (A ++ B).drop
      (SortedKeys.position (fun Q => (physicalAt h Q).physicalId) id (A ++ B)) = B) :
    ∃ links, addPhysical h id = some ({ withPhysical h id with links := links }, h.callocs) ∧
      Memory links (ringsOf (A ++ ⟨h.callocs, [], []⟩ :: B)) [] ∧
      ∀ x, (links x).isSome = ((withPhysical h id).links x).isSome := by
  have hring := hs.memory.rings.ring _ mem_rings_top
  have hshort : (A ++ B).length < h.fuel := by simpa using hs.short mem_rings_top
  have hcheck : checkExistFromHead h .physicalHead id = some none := by
    rw [checkExistFromHead_eq hring hshort fun Q hQ => hs.idOf_physical hQ, Option.some_inj,
      Option.map_eq_none_iff, List.find?_eq_none]
    exact fun Q hQ => by simpa using habsent Q hQ
  have hcalloc := hs.callocPhysical ⟨id, 0, none, some (.cluster id)⟩
  obtain ⟨links₁, links₂, links₃, hinit₁, hinit₂, hadd, hring₂, h₃, hlive₂, hlive₃⟩ :=
    link_physical hcalloc
  refine ⟨links₃, ?_, h₃, hlive₃⟩
  have hid : ∀ Q ∈ A ++ B, idOf { withPhysical h id with links := links₂ } Q.link =
      some (physicalAt h Q).physicalId := by
    intro Q hQ
    have hlive : (links₂ (.listPhysical Q.addr)).isSome := by
      rw [hlive₂]
      exact live_of_memory hcalloc mem_rings_top
        (List.mem_cons_of_mem _ (List.mem_map.mpr ⟨Q, hQ, rfl⟩))
    simp only [PhysicalShape.link, idOf, Heap.readPhysical, hlive, if_true, Option.map_some,
      withPhysical_old hs id hQ]
    rfl
  have hpos : checkPosFromHead { withPhysical h id with links := links₂ } .physicalHead id =
      some ((B.map PhysicalShape.link).head?.getD .physicalHead) := by
    have hlonger : (A ++ B).length < ({ withPhysical h id with links := links₂ } : Heap).fuel :=
      Nat.lt_succ_of_lt hshort
    rw [checkPosFromHead_eq hring₂ hlonger hid, hplace]
  have hinit₁' : (withPhysical h id).initListHead (.coreHead h.callocs) =
      some { withPhysical h id with links := links₁ } := by
    simp only [Heap.initListHead, withPhysical, Heap.buildPstateInfo, hinit₁, Option.bind_eq_bind,
      Option.bind_some]
  have hinit₂' : Heap.initListHead (.cpuEnumHead h.callocs)
      { withPhysical h id with links := links₁ } =
        some { withPhysical h id with links := links₂ } := by
    simp only [Heap.initListHead, hinit₂, Option.bind_eq_bind, Option.bind_some]
  have hadd' : Heap.listAddTail (.listPhysical h.callocs)
      ((B.map PhysicalShape.link).head?.getD .physicalHead)
      { withPhysical h id with links := links₂ } =
        some { withPhysical h id with links := links₃ } := by
    simp only [Heap.listAddTail, hadd, Option.bind_eq_bind, Option.bind_some]
  have hnew : (h.callocPhysical ⟨id, 0, none, some (.cluster id)⟩).2 = h.callocs := rfl
  have hrecord : (h.callocPhysical ⟨id, 0, none, some (.cluster id)⟩).1.buildPstateInfo
      (.cluster id) = withPhysical h id := rfl
  simp only [addPhysical, hcheck, hnew, hrecord, hinit₁', hinit₂', hpos, hadd', Option.bind_eq_bind,
    Option.bind_some]

theorem holds_withPhysical (hs : Holds h (A ++ B) []) (id : Int) {links : Links Link}
    (hmemory : Memory links (ringsOf (A ++ ⟨h.callocs, [], []⟩ :: B)) [])
    (hlive : ∀ x, (links x).isSome = ((withPhysical h id).links x).isSome) :
    Holds { withPhysical h id with links := links } (A ++ ⟨h.callocs, [], []⟩ :: B) [] where
  memory := hmemory
  fresh := fun link hlink => by
    have hsome : (links link).isSome := hlink
    rw [hlive] at hsome
    refine fresh_allocate (fresh_allocate (fresh_allocate ?_ rfl (Nat.lt_succ_self _)) rfl
      (Nat.lt_succ_self _)) rfl (Nat.lt_succ_self _) link hsome
    exact fun other hother n hn => Nat.lt_succ_of_lt (hs.fresh other hother n hn)
  enum := by
    rw [forall_mem_middle]
    exact ⟨List.Perm.refl _, hs.enum⟩
  recorded := by
    have hbuilt : ∀ ref, ((withPhysical h id).pstates ref).isSome ↔
        (h.pstates ref).isSome ∨ ref = .cluster id := fun ref => isSome_buildPstateInfo
    have hnew : (withPhysical h id).physical h.callocs = ⟨id, 0, none, some (.cluster id)⟩ :=
      Function.update_self _ _ _
    have hold : Recorded { withPhysical h id with links := links } (A ++ B) := by
      apply hs.recorded.congr (fun P hP => ⟨P, hP, rfl, fun C hC => ⟨C, hC, rfl⟩⟩)
      · intro P hP
        simp only [withPhysical_old hs id hP, and_self]
      · exact fun _ _ _ _ => rfl
      · exact fun ref href => (hbuilt ref).mpr (.inl href)
    constructor
    · rw [forall_mem_middle]
      exact ⟨by simp only [hnew], hold.pointer⟩
    · rw [forall_mem_middle]
      refine ⟨?_, hold.cluster⟩
      simp only [hnew]
      exact (hbuilt _).mpr (.inr rfl)
    · rw [forall_mem_middle]
      refine ⟨fun C hC => ?_, hold.core⟩
      cases hC

private theorem addPhysical_new (hs : Holds h s []) {id : Int}
    (habsent : ∀ Q ∈ s, (physicalAt h Q).physicalId ≠ id) :
    ∃ h' A P B, addPhysical h id = some (h', P.addr) ∧ PhysicalAdded h s id h' A P B := by
  obtain ⟨A, B, rfl, hA, hB⟩ := exists_place (fun Q => (physicalAt h Q).physicalId) id s
  obtain ⟨links, hrun, hmemory, hlive⟩ := addPhysical_run hs habsent hB
  refine ⟨_, A, ⟨h.callocs, [], []⟩, B, hrun, ?_⟩
  exact {
    holds := holds_withPhysical hs id hmemory hlive
    upsert := fun f => by
      rw [physicalAt_new]
      exact upsert_place habsent hA (fun Q hQ => physicalAt_withPhysical hs id links hQ) _ f
    lookup := by
      rw [physicalAt_new, lookup_absent habsent, Option.getD_none]
    pstates := fun ref => isSome_buildPstateInfo
    onlineCpus := rfl
    onlineArraySize := rfl }

theorem addPhysical_spec (hs : Holds h s []) (id : Int) :
    ∃ h' A P B, addPhysical h id = some (h', P.addr) ∧ PhysicalAdded h s id h' A P B := by
  cases hfind : s.find? fun Q => decide ((physicalAt h Q).physicalId = id) with
  | none => exact addPhysical_new hs (by simpa using hfind)
  | some P =>
    obtain ⟨hP, A, B, rfl, hA⟩ := List.find?_eq_some_iff_append.mp hfind
    have hP : (physicalAt h P).physicalId = id := by simpa using hP
    have hring := hs.memory.rings.ring _ mem_rings_top
    have hshort : (A ++ P :: B).length < h.fuel := by simpa using hs.short mem_rings_top
    have hcheck : checkExistFromHead h .physicalHead id = some (some P.link) := by
      rw [checkExistFromHead_eq hring hshort fun Q hQ => hs.idOf_physical hQ, hfind]
      rfl
    have hbefore : ∀ p ∈ A.map (physicalAt h), p.physicalId ≠ id := by
      intro p hp
      obtain ⟨Q, hQ, rfl⟩ := List.mem_map.mp hp
      simpa using hA Q hQ
    refine ⟨h, A, P, B, ?_, ?_⟩
    · simp [addPhysical, hcheck, PhysicalShape.link, physicalOf]
    · exact {
        holds := hs
        upsert := fun f => by
          rw [List.map_append, List.map_cons, SortedKeys.upsert_found hbefore hP]
        lookup := by
          rw [SortedKeys.lookup, List.find?_map]
          exact congrArg (fun found => (found.map (physicalAt h)).getD (newPhysical id)) hfind
        pstates := fun ref => by
          have hlive : (h.pstates (.cluster id)).isSome := by
            rw [← hP]
            exact hs.recorded.cluster P (List.mem_append_right _ List.mem_cons_self)
          exact ⟨.inl, fun href => href.elim (fun hold => hold) fun heq => heq ▸ hlive⟩
        onlineCpus := rfl
        onlineArraySize := rfl }

end AddPhysical

section AddCore

open Idlestat.Model.Topology (newCore)

variable {h h' : Heap} {s A B : Shape} {P : PhysicalShape} {C : CoreShape}
  {CA CB : List CoreShape} {loose : List Link}

private theorem coreOf_ring {head : Link} {elems : List Link} {rings : List (Link × List Link)}
    (hhead : coreOf head = none) : (footprint ((head, elems) :: rings)).filterMap coreOf =
      elems.filterMap coreOf ++ (footprint rings).filterMap coreOf := by
  rw [footprint_cons, List.filterMap_cons_none hhead, List.filterMap_append]

private theorem coreOf_others {β : Type} {f : β → Link} (hf : ∀ x, coreOf (f x) = none)
    (l : List β) : (l.map f).filterMap coreOf = [] := by
  rw [List.filterMap_eq_nil_iff]
  intro link hlink
  obtain ⟨x, -, rfl⟩ := List.mem_map.mp hlink
  exact hf x

private theorem coreOf_cores (cores : List CoreShape) :
    (cores.map CoreShape.link).filterMap coreOf = cores.map CoreShape.addr := by
  rw [List.filterMap_map, ← List.filterMap_eq_map]
  rfl

private theorem coreOf_cpus (cores : List CoreShape) :
    (footprint (cores.map CoreShape.ring)).filterMap coreOf = [] := by
  induction cores with
  | nil => rfl
  | cons C rest ih =>
    rw [List.map_cons, CoreShape.ring, coreOf_ring rfl, coreOf_others fun _ => rfl, ih]
    rfl

private theorem coreOf_physical (P : PhysicalShape) :
    (footprint P.rings).filterMap coreOf = P.cores.map CoreShape.addr := by
  rw [PhysicalShape.rings, PhysicalShape.coreRing, PhysicalShape.enumRing, coreOf_ring rfl,
    coreOf_ring rfl, coreOf_cores, coreOf_others fun _ => rfl, coreOf_cpus]
  simp

theorem coreOf_footprint : (footprint (ringsOf s)).filterMap coreOf =
    (s.flatMap PhysicalShape.cores).map CoreShape.addr := by
  rw [ringsOf, coreOf_ring rfl, coreOf_others fun _ => rfl, List.nil_append]
  induction s with
  | nil => rfl
  | cons P rest ih =>
    rw [List.flatMap_cons, List.flatMap_cons, footprint_append, List.filterMap_append,
      List.map_append, ih, coreOf_physical]

theorem Holds.physical_nodup (hs : Holds h s loose) : (s.map PhysicalShape.addr).Nodup := by
  have hnodup := (List.nodup_cons.mp (hs.memory.rings.ring _ mem_rings_top).nodup).2
  refine List.Nodup.of_map Link.listPhysical ?_
  rw [List.map_map]
  exact hnodup

theorem Holds.core_nodup (hs : Holds h s loose) :
    ((s.flatMap PhysicalShape.cores).map CoreShape.addr).Nodup := by
  rw [← coreOf_footprint]
  refine hs.memory.rings.nodup.filterMap ?_
  intro a b n ha hb
  cases a <;> cases b <;> simp_all [coreOf]

theorem Holds.physical_ne (hs : Holds h (A ++ P :: B) loose) {Q : PhysicalShape}
    (hQ : Q ∈ A ++ B) : Q.addr ≠ P.addr := by
  have hnodup := hs.physical_nodup
  rw [List.map_append, List.map_cons] at hnodup
  have hnot := (List.nodup_cons.mp (List.perm_middle.nodup_iff.mp hnodup)).1
  rw [← List.map_append] at hnot
  exact fun heq => hnot (heq ▸ List.mem_map_of_mem hQ)

theorem Holds.idOf_core (hs : Holds h s loose) (hP : P ∈ s) (hC : C ∈ P.cores) :
    idOf h C.link = some (coreAt h C).coreId := by
  simp only [CoreShape.link, idOf, Heap.readCore, hs.live_core hP hC, if_true, Option.map_some]
  rfl

theorem Holds.coreRing (hs : Holds h s loose) (hP : P ∈ s) :
    Ring h.links (.coreHead P.addr) (P.cores.map CoreShape.link) :=
  hs.memory.rings.ring _ (mem_rings_cores hP)

theorem ringsOf_cores : ringsOf (A ++ { P with cores := CA ++ CB } :: B) =
    ((.physicalHead, A.map PhysicalShape.link ++ P.link :: B.map PhysicalShape.link) ::
      A.flatMap PhysicalShape.rings) ++
        (.coreHead P.addr, CA.map CoreShape.link ++ CB.map CoreShape.link) ::
          (P.enumRing :: (CA.map CoreShape.ring ++
            (CB.map CoreShape.ring ++ B.flatMap PhysicalShape.rings))) := by
  simp [ringsOf_split, PhysicalShape.rings, PhysicalShape.coreRing, PhysicalShape.enumRing,
    PhysicalShape.link]

/-- What the core part of `add_topo_info` does: `C` is the core with this id in
the cluster. -/
structure CoreAdded (h : Heap) (A : Shape) (P : PhysicalShape) (B : Shape) (id : Int) (h' : Heap)
    (CA : List CoreShape) (C : CoreShape) (CB : List CoreShape) : Prop where
  holds : Holds h' (A ++ { P with cores := CA ++ C :: CB } :: B) []
  upsert : ∀ f, SortedKeys.upsert CpuCore.coreId id (newCore (physicalAt h P).physicalId id) f
    (P.cores.map (coreAt h)) = CA.map (coreAt h') ++ f (coreAt h' C) :: CB.map (coreAt h')
  lookup : (SortedKeys.lookup CpuCore.coreId id (P.cores.map (coreAt h))).getD
    (newCore (physicalAt h P).physicalId id) = coreAt h' C
  fields : h'.physical P.addr = { h.physical P.addr with
    coreNum :=
      if (SortedKeys.lookup CpuCore.coreId id (P.cores.map (coreAt h))).isSome then
        (h.physical P.addr).coreNum
      else (h.physical P.addr).coreNum + 1 }
  refs : P.enum.map (refAt h') = P.enum.map (refAt h)
  others : ∀ Q ∈ A ++ B, physicalAt h' Q = physicalAt h Q
  pstates : ∀ ref, (h'.pstates ref).isSome ↔
    (h.pstates ref).isSome ∨ ref = .core (h.physical P.addr).physicalId id
  onlineCpus : h'.onlineCpus = h.onlineCpus
  onlineArraySize : h'.onlineArraySize = h.onlineArraySize

theorem Holds.callocCore (hs : Holds h s []) (fields : Core) :
    Memory (h.callocCore fields).1.links (ringsOf s) [.cpuHead h.callocs, .listCore h.callocs] := by
  have hlist : h.links (.listCore h.callocs) = none := hs.unallocated rfl
  have hcpu : h.links (.cpuHead h.callocs) = none := hs.unallocated rfl
  have h₁ := hs.memory.allocate hlist
  exact h₁.allocate (by rwa [allocate_of_ne (by simp)])

theorem link_core {links : Links Link} {n : Nat}
    (hmemory : Memory links (ringsOf (A ++ { P with cores := CA ++ CB } :: B))
      [.cpuHead n, .listCore n]) :
    ∃ links₁ links₂, initListHead (.cpuHead n) links = some links₁ ∧
      listAddTail (.listCore n) ((CB.map CoreShape.link).head?.getD (.coreHead P.addr)) links₁ =
        some links₂ ∧
      Ring links₁ (.coreHead P.addr) ((CA ++ CB).map CoreShape.link) ∧
      Memory links₂ (ringsOf (A ++ { P with cores := CA ++ ⟨n, []⟩ :: CB } :: B)) [] ∧
      (∀ x, (links₁ x).isSome = (links x).isSome) ∧
      ∀ x, (links₂ x).isSome = (links x).isSome := by
  have hbefore : Memory links ((((.physicalHead,
      A.map PhysicalShape.link ++ P.link :: B.map PhysicalShape.link) ::
      A.flatMap PhysicalShape.rings) ++
        (.coreHead P.addr, CA.map CoreShape.link ++ CB.map CoreShape.link) ::
          (P.enumRing :: CA.map CoreShape.ring)) ++
            (CB.map CoreShape.ring ++ B.flatMap PhysicalShape.rings))
      [.cpuHead n, .listCore n] := by
    rw [ringsOf_cores] at hmemory
    simpa using hmemory
  obtain ⟨links₁, hinit, h₁, hlive₁⟩ := hbefore.init
  have h₁' : Memory links₁ (((.physicalHead,
      A.map PhysicalShape.link ++ P.link :: B.map PhysicalShape.link) ::
      A.flatMap PhysicalShape.rings) ++
        (.coreHead P.addr, CA.map CoreShape.link ++ CB.map CoreShape.link) ::
          (P.enumRing :: (CA.map CoreShape.ring ++ (.cpuHead n, []) ::
            (CB.map CoreShape.ring ++ B.flatMap PhysicalShape.rings))))
      [.listCore n] := by
    simpa using h₁
  obtain ⟨links₂, hadd, h₂, hlive₂⟩ := h₁'.addTail
  have hring := h₁'.rings.ring _ (List.mem_append_right _ List.mem_cons_self)
  refine ⟨links₁, links₂, hinit, hadd, ?_, ?_, hlive₁, fun x => (hlive₂ x).trans (hlive₁ x)⟩
  · rw [List.map_append]
    exact hring
  · rw [ringsOf_cores]
    simpa [CoreShape.ring, CoreShape.link] using h₂

def withCore (h : Heap) (P : PhysicalShape) (id : Int) : Heap :=
  let fields := h.physical P.addr
  let h := (h.callocCore ⟨id, 0, false, none, some (.core fields.physicalId id)⟩).1.buildPstateInfo
    (.core fields.physicalId id)
  { h with
    physical := Function.update h.physical P.addr { fields with coreNum := fields.coreNum + 1 } }

theorem withCore_old (hs : Holds h s []) (id : Int) {Q : PhysicalShape} (hQ : Q ∈ s)
    (hC : C ∈ Q.cores) : (withCore h P id).core C.addr = h.core C.addr :=
  Function.update_of_ne (hs.core_lt hQ hC).ne _ _

theorem withCore_other (id : Int) {Q : PhysicalShape} (hne : Q.addr ≠ P.addr) :
    (withCore h P id).physical Q.addr = h.physical Q.addr :=
  Function.update_of_ne hne _ _

theorem withCore_own (id : Int) : (withCore h P id).physical P.addr =
    { h.physical P.addr with coreNum := (h.physical P.addr).coreNum + 1 } :=
  Function.update_self _ _ _

theorem withCore_new (id : Int) : (withCore h P id).core h.callocs =
    ⟨id, 0, false, none, some (.core (h.physical P.addr).physicalId id)⟩ :=
  Function.update_self _ _ _

theorem coreAt_withCore (hs : Holds h s []) (id : Int) (links : Links Link)
    {Q : PhysicalShape} (hQ : Q ∈ s) (hC : C ∈ Q.cores) :
    coreAt { withCore h P id with links := links } C = coreAt h C :=
  coreAt_congr (withCore_old hs id hQ hC) fun _ _ => rfl

theorem coreAt_new (id : Int) (links : Links Link) :
    coreAt { withCore h P id with links := links } ⟨h.callocs, []⟩ =
      newCore (physicalAt h P).physicalId id := by
  simp only [coreAt, withCore_new]
  rfl

theorem addCore_run (hs : Holds h (A ++ { P with cores := CA ++ CB } :: B) []) {id : Int}
    (habsent : ∀ C ∈ CA ++ CB, (coreAt h C).coreId ≠ id)
    (hplace : (CA ++ CB).drop
      (SortedKeys.position (fun C => (coreAt h C).coreId) id (CA ++ CB)) = CB) :
    ∃ links, addCore h P.addr id = some ({ withCore h P id with links := links }, h.callocs) ∧
      Memory links (ringsOf (A ++ { P with cores := CA ++ ⟨h.callocs, []⟩ :: CB } :: B)) [] ∧
      ∀ x, (links x).isSome = ((withCore h P id).links x).isSome := by
  have hmem : ({ P with cores := CA ++ CB } : PhysicalShape) ∈
      A ++ { P with cores := CA ++ CB } :: B := by simp
  have hring : Ring h.links (.coreHead P.addr) ((CA ++ CB).map CoreShape.link) := hs.coreRing hmem
  have hshort : (CA ++ CB).length < h.fuel := by
    simpa [PhysicalShape.coreRing] using hs.short (mem_rings_cores hmem)
  have hcheck : checkExistFromHead h (.coreHead P.addr) id = some none := by
    rw [checkExistFromHead_eq hring hshort fun C hC => hs.idOf_core hmem hC, Option.some_inj,
      Option.map_eq_none_iff, List.find?_eq_none]
    exact fun C hC => by simpa using habsent C hC
  have hphysical : h.readPhysical P.addr = some (h.physical P.addr) := by
    simp only [Heap.readPhysical, hs.live_physical hmem, if_true]
  let fields : Core := ⟨id, 0, false, none, some (.core (h.physical P.addr).physicalId id)⟩
  let h₀ := (h.callocCore fields).1.buildPstateInfo (.core (h.physical P.addr).physicalId id)
  have hcalloc := hs.callocCore fields
  obtain ⟨links₁, links₂, hinit, hadd, hring₁, h₂, hlive₁, hlive₂⟩ := link_core hcalloc
  refine ⟨links₂, ?_, h₂, hlive₂⟩
  have hid : ∀ C ∈ CA ++ CB, idOf { h₀ with links := links₁ } C.link =
      some (coreAt h C).coreId := by
    intro C hC
    have hlive : (links₁ (.listCore C.addr)).isSome := by
      rw [hlive₁]
      exact live_of_memory hcalloc (mem_rings_cores hmem)
        (List.mem_cons_of_mem _ (List.mem_map.mpr ⟨C, hC, rfl⟩))
    have hcore : h₀.core C.addr = h.core C.addr := withCore_old (P := P) hs id hmem hC
    simp only [CoreShape.link, idOf, Heap.readCore, hlive, if_true, Option.map_some, hcore]
    rfl
  have hpos : checkPosFromHead { h₀ with links := links₁ } (.coreHead P.addr) id =
      some ((CB.map CoreShape.link).head?.getD (.coreHead P.addr)) := by
    have hlonger : (CA ++ CB).length < ({ h₀ with links := links₁ } : Heap).fuel :=
      Nat.lt_succ_of_lt hshort
    rw [checkPosFromHead_eq hring₁ hlonger hid, hplace]
  have hinit' : h₀.initListHead (.cpuHead h.callocs) = some { h₀ with links := links₁ } := by
    simp only [Heap.initListHead, h₀, Heap.buildPstateInfo, hinit, Option.bind_eq_bind,
      Option.bind_some]
  have hadd' : Heap.listAddTail (.listCore h.callocs)
      ((CB.map CoreShape.link).head?.getD (.coreHead P.addr)) { h₀ with links := links₁ } =
        some { h₀ with links := links₂ } := by
    simp only [Heap.listAddTail, hadd, Option.bind_eq_bind, Option.bind_some]
  have hwrite : Heap.writePhysical { h₀ with links := links₂ } P.addr
      { h.physical P.addr with coreNum := (h.physical P.addr).coreNum + 1 } =
        some { withCore h P id with links := links₂ } := by
    have hlive : (links₂ (.listPhysical P.addr)).isSome := by
      rw [hlive₂]
      exact live_of_memory hcalloc mem_rings_top
        (List.mem_cons_of_mem _ (List.mem_map.mpr ⟨_, hmem, rfl⟩))
    simp only [Heap.writePhysical, hlive, if_true]
    rfl
  have hnew : (h.callocCore fields).2 = h.callocs := rfl
  have hrecord : (h.callocCore fields).1.buildPstateInfo
      (.core (h.physical P.addr).physicalId id) = h₀ := rfl
  simp only [addCore, hcheck, hphysical, fields, hnew, hrecord, hinit', hpos, hadd', hwrite,
    Option.bind_eq_bind, Option.bind_some]

theorem holds_withCore (hs : Holds h (A ++ { P with cores := CA ++ CB } :: B) []) (id : Int)
    {links : Links Link}
    (hmemory :
      Memory links (ringsOf (A ++ { P with cores := CA ++ ⟨h.callocs, []⟩ :: CB } :: B)) [])
    (hlive : ∀ x, (links x).isSome = ((withCore h P id).links x).isSome) :
    Holds { withCore h P id with links := links }
      (A ++ { P with cores := CA ++ ⟨h.callocs, []⟩ :: CB } :: B) [] where
  memory := hmemory
  fresh := fun link hlink => by
    have hsome : (links link).isSome := hlink
    rw [hlive] at hsome
    refine fresh_allocate (fresh_allocate ?_ rfl (Nat.lt_succ_self _)) rfl (Nat.lt_succ_self _)
      link hsome
    exact fun other hother n hn => Nat.lt_succ_of_lt (hs.fresh other hother n hn)
  enum := by
    have henum := hs.enum
    rw [forall_mem_middle] at henum ⊢
    exact ⟨by simpa using henum.1, henum.2⟩
  recorded := by
    have hbuilt : ∀ ref, ((withCore h P id).pstates ref).isSome ↔
        (h.pstates ref).isSome ∨ ref = .core (h.physical P.addr).physicalId id := fun ref =>
      isSome_buildPstateInfo
    have hown : (withCore h P id).physical P.addr =
        { h.physical P.addr with coreNum := (h.physical P.addr).coreNum + 1 } := withCore_own id
    have hold : Recorded { withCore h P id with links := links }
        (A ++ { P with cores := CA ++ CB } :: B) := by
      apply hs.recorded.congr (fun P hP => ⟨P, hP, rfl, fun C hC => ⟨C, hC, rfl⟩⟩)
      · rw [forall_mem_middle]
        refine ⟨by simp only [hown, and_self], fun Q hQ => ?_⟩
        have hne : Q.addr ≠ P.addr := hs.physical_ne hQ
        simp only [withCore_other id hne, and_self]
      · intro Q hQ C hC
        simp only [withCore_old hs id hQ hC]
      · exact fun ref href => (hbuilt ref).mpr (.inl href)
    obtain ⟨hpointer, hcluster, hcore⟩ := hold
    rw [forall_mem_middle] at hpointer hcluster hcore
    constructor
    · rw [forall_mem_middle]
      exact hpointer
    · rw [forall_mem_middle]
      exact hcluster
    · rw [forall_mem_middle]
      refine ⟨?_, hcore.2⟩
      rw [forall_mem_middle]
      refine ⟨?_, hcore.1⟩
      simp only [hown, withCore_new]
      exact (hbuilt _).mpr (.inr rfl)

private theorem addCore_new (hs : Holds h (A ++ P :: B) []) {id : Int}
    (habsent : ∀ C ∈ P.cores, (coreAt h C).coreId ≠ id) :
    ∃ h' CA C CB, addCore h P.addr id = some (h', C.addr) ∧ CoreAdded h A P B id h' CA C CB := by
  have hmem : P ∈ A ++ P :: B := by simp
  obtain ⟨CA, CB, hsplit, hCA, hCB⟩ := exists_place (fun C => (coreAt h C).coreId) id P.cores
  rw [← hsplit] at habsent hCA hCB
  have hs' : Holds h (A ++ { P with cores := CA ++ CB } :: B) [] := by
    rw [hsplit]
    exact hs
  obtain ⟨links, hrun, hmemory, hlive⟩ := addCore_run hs' habsent hCB
  have hsame : ∀ C ∈ CA ++ CB, coreAt { withCore h P id with links := links } C = coreAt h C :=
    fun C hC => coreAt_withCore hs id links hmem (hsplit ▸ hC)
  refine ⟨_, CA, ⟨h.callocs, []⟩, CB, hrun, ?_⟩
  exact {
    holds := holds_withCore hs' id hmemory hlive
    upsert := fun f => by
      rw [coreAt_new, ← hsplit]
      exact upsert_place habsent hCA hsame _ f
    lookup := by
      rw [coreAt_new, ← hsplit, lookup_absent habsent, Option.getD_none]
    fields := by
      rw [← hsplit, lookup_absent habsent]
      exact withCore_own id
    refs := refs_congr (hs.enum P hmem) (fun C hC => withCore_old hs id hmem hC) fun _ _ _ _ => rfl
    others := fun Q hQ => physicalAt_congr (hs.enum Q (mem_middle P hQ))
      (withCore_other id (hs.physical_ne hQ))
      (fun C hC => withCore_old hs id (mem_middle P hQ) hC) fun _ _ _ _ => rfl
    pstates := fun ref => isSome_buildPstateInfo
    onlineCpus := rfl
    onlineArraySize := rfl }

theorem addCore_spec (hs : Holds h (A ++ P :: B) []) (id : Int) :
    ∃ h' CA C CB, addCore h P.addr id = some (h', C.addr) ∧ CoreAdded h A P B id h' CA C CB := by
  have hmem : P ∈ A ++ P :: B := by simp
  cases hfind : P.cores.find? fun C => decide ((coreAt h C).coreId = id) with
  | none => exact addCore_new hs (by simpa using hfind)
  | some C =>
    obtain ⟨hC, CA, CB, hsplit, hCA⟩ := List.find?_eq_some_iff_append.mp hfind
    have hC : (coreAt h C).coreId = id := by simpa using hC
    have hshort : P.cores.length < h.fuel := by
      simpa [PhysicalShape.coreRing] using hs.short (mem_rings_cores hmem)
    have hcheck : checkExistFromHead h (.coreHead P.addr) id = some (some C.link) := by
      rw [checkExistFromHead_eq (hs.coreRing hmem) hshort fun C hC => hs.idOf_core hmem hC, hfind]
      rfl
    have hbefore : ∀ c ∈ CA.map (coreAt h), c.coreId ≠ id := by
      intro c hc
      obtain ⟨D, hD, rfl⟩ := List.mem_map.mp hc
      simpa using hCA D hD
    have hlookup : SortedKeys.lookup CpuCore.coreId id (P.cores.map (coreAt h)) =
        some (coreAt h C) := by
      rw [SortedKeys.lookup, List.find?_map]
      exact congrArg (Option.map (coreAt h)) hfind
    refine ⟨h, CA, C, CB, ?_, ?_⟩
    · simp [addCore, hcheck, CoreShape.link, coreOf]
    · exact {
        holds := by
          rw [← hsplit]
          exact hs
        upsert := fun f => by
          rw [hsplit, List.map_append, List.map_cons, SortedKeys.upsert_found hbefore hC]
        lookup := by
          rw [hlookup, Option.getD_some]
        fields := by
          rw [hlookup]
          rfl
        refs := rfl
        others := fun _ _ => rfl
        pstates := fun ref => by
          have hlive : (h.pstates (.core (h.physical P.addr).physicalId id)).isSome := by
            rw [← hC]
            exact hs.recorded.core P hmem C (hsplit ▸ List.mem_append_right _ List.mem_cons_self)
          exact ⟨.inl, fun href => href.elim (fun hold => hold) fun heq => heq ▸ hlive⟩
        onlineCpus := rfl
        onlineArraySize := rfl }

end AddCore

section AddCpu

variable {h h' : Heap} {s A B : Shape} {P : PhysicalShape} {C : CoreShape}
  {CA CB : List CoreShape} {cpus NA NB : List Nat} {enum : List (Nat × Nat)} {loose : List Link}

def place (A : Shape) (P : PhysicalShape) (B : Shape) (CA : List CoreShape) (C : CoreShape)
    (CB : List CoreShape) (cpus : List Nat) (enum : List (Nat × Nat)) : Shape :=
  A ++ { P with cores := CA ++ { C with cpus := cpus } :: CB, enum := enum } :: B

theorem Holds.core_ne (hs : Holds h (place A P B CA C CB cpus enum) loose) {D : CoreShape}
    (hD : D ∈ CA ++ CB ∨ ∃ Q ∈ A ++ B, D ∈ Q.cores) : D.addr ≠ C.addr := by
  have hnodup := hs.core_nodup
  have hperm : ((place A P B CA C CB cpus enum).flatMap PhysicalShape.cores).Perm
      ({ C with cpus := cpus } :: (CA ++ CB ++ (A ++ B).flatMap PhysicalShape.cores)) := by
    simp only [place, List.flatMap_append, List.flatMap_cons]
    refine (List.perm_append_comm_assoc _ _ _).trans ?_
    simp only [List.append_assoc, List.cons_append]
    exact List.perm_middle
  rw [(hperm.map CoreShape.addr).nodup_iff, List.map_cons] at hnodup
  intro heq
  refine (List.nodup_cons.mp hnodup).1 (List.mem_map.mpr ⟨D, ?_, heq⟩)
  rcases hD with hD | ⟨Q, hQ, hD⟩
  · exact List.mem_append_left _ hD
  · exact List.mem_append_right _ (List.mem_flatMap.mpr ⟨Q, hQ, hD⟩)

theorem mem_rings_place :
    (Link.cpuHead C.addr, cpus.map .listCpu) ∈ ringsOf (place A P B CA C CB cpus enum) := by
  have hP : ({ P with cores := CA ++ { C with cpus := cpus } :: CB, enum := enum } :
      PhysicalShape) ∈ place A P B CA C CB cpus enum := by simp [place]
  exact mem_rings_cpus hP (List.mem_append_right _ List.mem_cons_self)

theorem mem_rings_place_cores :
    (Link.coreHead P.addr, CA.map CoreShape.link ++ C.link :: CB.map CoreShape.link) ∈
      ringsOf (place A P B CA C CB cpus enum) := by
  have hP : ({ P with cores := CA ++ { C with cpus := cpus } :: CB, enum := enum } :
      PhysicalShape) ∈ place A P B CA C CB cpus enum := by simp [place]
  have hring := mem_rings_cores hP
  simpa [PhysicalShape.coreRing, CoreShape.link] using hring

theorem Holds.cpuRing (hs : Holds h (place A P B CA C CB cpus enum) loose) :
    Ring h.links (.cpuHead C.addr) (cpus.map .listCpu) :=
  hs.memory.rings.ring _ mem_rings_place

theorem Holds.live_place (hs : Holds h (place A P B CA C CB cpus enum) loose) {n : Nat}
    (hn : n ∈ cpus) : (h.links (.listCpu n)).isSome :=
  hs.live mem_rings_place (List.mem_cons_of_mem _ (List.mem_map_of_mem hn))

theorem Holds.idOf_cpu (hs : Holds h (place A P B CA C CB cpus enum) loose) {n : Nat}
    (hn : n ∈ cpus) : idOf h (.listCpu n) = some (h.cpu n).cpuId := by
  simp only [idOf, Heap.readCpu, hs.live_place hn, if_true, Option.map_some]

theorem ringsOf_place : ringsOf (place A P B CA C CB (NA ++ NB) enum) =
    ((.physicalHead, A.map PhysicalShape.link ++ P.link :: B.map PhysicalShape.link) ::
      (A.flatMap PhysicalShape.rings ++
        (.coreHead P.addr, CA.map CoreShape.link ++ C.link :: CB.map CoreShape.link) ::
          (.cpuEnumHead P.addr, enum.map fun entry => .listPhyEnum entry.2) ::
            CA.map CoreShape.ring)) ++
      (.cpuHead C.addr, NA.map .listCpu ++ NB.map .listCpu) ::
        (CB.map CoreShape.ring ++ B.flatMap PhysicalShape.rings) := by
  simp [place, ringsOf_split, PhysicalShape.rings, PhysicalShape.coreRing, PhysicalShape.enumRing,
    PhysicalShape.link, CoreShape.ring, CoreShape.link]

theorem Holds.callocCpu (hs : Holds h s []) (fields : Cpu) :
    Memory (h.callocCpu fields).1.links (ringsOf s)
      [.listCpu h.callocs, .listPhyEnum h.callocs] := by
  have henum : h.links (.listPhyEnum h.callocs) = none := hs.unallocated rfl
  have hlist : h.links (.listCpu h.callocs) = none := hs.unallocated rfl
  have h₁ := hs.memory.allocate henum
  exact h₁.allocate (by rwa [allocate_of_ne (by simp)])

theorem link_cpu {links : Links Link} {n : Nat}
    (hmemory : Memory links (ringsOf (place A P B CA C CB (NA ++ NB) enum))
      [.listCpu n, .listPhyEnum n]) :
    ∃ links₁ links₂,
      listAddTail (.listCpu n) ((NB.map .listCpu).head?.getD (.cpuHead C.addr)) links =
        some links₁ ∧
      listAddTail (.listPhyEnum n) (.cpuEnumHead P.addr) links₁ = some links₂ ∧
      Memory links₂
        (ringsOf (place A P B CA C CB (NA ++ n :: NB) (enum ++ [(C.addr, n)]))) [] ∧
      (∀ x, (links₁ x).isSome = (links x).isSome) ∧
      ∀ x, (links₂ x).isSome = (links x).isSome := by
  rw [ringsOf_place] at hmemory
  obtain ⟨links₁, hadd₁, h₁, hlive₁⟩ := hmemory.addTail
  have h₁' : Memory links₁ (((.physicalHead,
      A.map PhysicalShape.link ++ P.link :: B.map PhysicalShape.link) ::
      (A.flatMap PhysicalShape.rings ++
        [(.coreHead P.addr, CA.map CoreShape.link ++ C.link :: CB.map CoreShape.link)])) ++
      (.cpuEnumHead P.addr, (enum.map fun entry => .listPhyEnum entry.2) ++ []) ::
        (CA.map CoreShape.ring ++
          (.cpuHead C.addr, NA.map .listCpu ++ .listCpu n :: NB.map .listCpu) ::
            (CB.map CoreShape.ring ++ B.flatMap PhysicalShape.rings)))
      [.listPhyEnum n] := by
    simpa using h₁
  obtain ⟨links₂, hadd₂, h₂, hlive₂⟩ := h₁'.addTail
  refine ⟨links₁, links₂, hadd₁, hadd₂, ?_, hlive₁, fun x => (hlive₂ x).trans (hlive₁ x)⟩
  rw [ringsOf_place]
  simpa using h₂

open Idlestat.Model.Topology (CpuTopology.setOnline)

def onlineOf (h : Heap) : CpuTopology :=
  { onlineCpus := h.onlineCpus.getD [], onlineArraySize := h.onlineArraySize }

theorem onlineOf_setOnline (h : Heap) (id : Int) :
    onlineOf (setOnline h id) = (onlineOf h).setOnline id := by
  by_cases hgrow : h.onlineArraySize ≤ id <;>
    simp [onlineOf, setOnline, CpuTopology.setOnline, hgrow]

/-- What the CPU part of `add_topo_info` does to a core of a cluster. -/
structure CpuAdded (h : Heap) (A : Shape) (P : PhysicalShape) (B : Shape) (CA : List CoreShape)
    (C : CoreShape) (CB : List CoreShape) (id : Int) (h' : Heap) (cpus : List Nat)
    (enum : List (Nat × Nat)) : Prop where
  holds : Holds h' (place A P B CA C CB cpus enum) []
  core : coreAt h' { C with cpus := cpus } = (coreAt h C).addCpu id
  cores : ∀ D ∈ CA ++ CB, coreAt h' D = coreAt h D
  fields : h'.physical = h.physical
  refs : enum.map (refAt h') =
    if (coreAt h C).hasCpu id then P.enum.map (refAt h)
    else P.enum.map (refAt h) ++ [{ coreId := (coreAt h C).coreId, cpuId := id }]
  others : ∀ Q ∈ A ++ B, physicalAt h' Q = physicalAt h Q
  online : onlineOf h' =
    if (coreAt h C).hasCpu id then onlineOf h else (onlineOf h).setOnline id
  pstates : h'.pstates = h.pstates

def withCpu (h : Heap) (C : CoreShape) (id : Int) : Heap :=
  let fields := h.core C.addr
  let h := (h.callocCpu ⟨id, none, none⟩).1
  { h with
    core := Function.update h.core C.addr
      { fields with
        cpuNum := fields.cpuNum + 1
        isHt := if fields.cpuNum + 1 > 1 then true else fields.isHt } }

theorem withCpu_old {n : Nat} (id : Int) (hlt : n < h.callocs) :
    (withCpu h C id).cpu n = h.cpu n :=
  Function.update_of_ne hlt.ne _ _

theorem withCpu_new (id : Int) : (withCpu h C id).cpu h.callocs = ⟨id, none, none⟩ :=
  Function.update_self _ _ _

theorem withCpu_other (id : Int) {D : CoreShape} (hne : D.addr ≠ C.addr) :
    (withCpu h C id).core D.addr = h.core D.addr :=
  Function.update_of_ne hne _ _

theorem withCpu_own (id : Int) : (withCpu h C id).core C.addr =
    { h.core C.addr with
      cpuNum := (h.core C.addr).cpuNum + 1
      isHt := if (h.core C.addr).cpuNum + 1 > 1 then true else (h.core C.addr).isHt } :=
  Function.update_self _ _ _

theorem withCpu_coreId (id : Int) (c : Nat) :
    ((withCpu h C id).core c).coreId = (h.core c).coreId := by
  by_cases hc : c = C.addr
  · rw [hc, withCpu_own]
  · exact congrArg Core.coreId (Function.update_of_ne hc _ _)

theorem mem_place : ({ P with cores := CA ++ { C with cpus := cpus } :: CB, enum := enum } :
    PhysicalShape) ∈ place A P B CA C CB cpus enum := by simp [place]

theorem addCpu_run (hs : Holds h (place A P B CA C CB (NA ++ NB) enum) []) {id : Int}
    (habsent : ∀ n ∈ NA ++ NB, (h.cpu n).cpuId ≠ id)
    (hplace : (NA ++ NB).drop
      (SortedKeys.position (fun n => (h.cpu n).cpuId) id (NA ++ NB)) = NB) :
    ∃ links, addCpu h P.addr C.addr id =
        some (setOnline { withCpu h C id with links := links } id) ∧
      Memory links (ringsOf
        (place A P B CA C CB (NA ++ h.callocs :: NB) (enum ++ [(C.addr, h.callocs)]))) [] ∧
      ∀ x, (links x).isSome = ((withCpu h C id).links x).isSome := by
  have hshort : (NA ++ NB).length < h.fuel := by simpa using hs.short mem_rings_place
  have hcheck : checkExistFromHead h (.cpuHead C.addr) id = some none := by
    rw [checkExistFromHead_eq hs.cpuRing hshort fun n hn => hs.idOf_cpu hn, Option.some_inj,
      Option.map_eq_none_iff, List.find?_eq_none]
    exact fun n hn => by simpa using habsent n hn
  have hcalloc := hs.callocCpu ⟨id, none, none⟩
  obtain ⟨links₁, links₂, hadd₁, hadd₂, h₂, hlive₁, hlive₂⟩ := link_cpu hcalloc
  let h₀ := (h.callocCpu ⟨id, none, none⟩).1
  refine ⟨links₂, ?_, h₂, hlive₂⟩
  have hid : ∀ n ∈ NA ++ NB, idOf h₀ (.listCpu n) = some (h.cpu n).cpuId := by
    intro n hn
    have hlive : (h₀.links (.listCpu n)).isSome :=
      live_of_memory hcalloc mem_rings_place (List.mem_cons_of_mem _ (List.mem_map_of_mem hn))
    have hcpu : h₀.cpu n = h.cpu n := by
      have hlt := hs.cpu_lt mem_place (List.mem_append_right _ List.mem_cons_self) hn
      exact withCpu_old (C := C) id hlt
    simp only [idOf, Heap.readCpu, hlive, if_true, Option.map_some, hcpu]
  have hpos : checkPosFromHead h₀ (.cpuHead C.addr) id =
      some ((NB.map .listCpu).head?.getD (.cpuHead C.addr)) := by
    have hlonger : (NA ++ NB).length < h₀.fuel := Nat.lt_succ_of_lt hshort
    have hring : Ring h₀.links (.cpuHead C.addr) ((NA ++ NB).map .listCpu) :=
      hcalloc.rings.ring _ mem_rings_place
    rw [checkPosFromHead_eq hring hlonger hid, hplace]
  have hadd₁' : h₀.listAddTail (.listCpu h.callocs)
      ((NB.map .listCpu).head?.getD (.cpuHead C.addr)) = some { h₀ with links := links₁ } := by
    simp only [Heap.listAddTail, h₀, hadd₁, Option.bind_eq_bind, Option.bind_some]
  have hlive : (links₁ (.listCore C.addr)).isSome := by
    rw [hlive₁]
    exact live_of_memory hcalloc mem_rings_place_cores
      (List.mem_cons_of_mem _ (List.mem_append_right _ List.mem_cons_self))
  have hread : Heap.readCore { h₀ with links := links₁ } C.addr = some (h.core C.addr) := by
    simp only [Heap.readCore, hlive, if_true]
    rfl
  have hwrite : Heap.writeCore { h₀ with links := links₁ } C.addr
      { h.core C.addr with
        cpuNum := (h.core C.addr).cpuNum + 1
        isHt := if (h.core C.addr).cpuNum + 1 > 1 then true else (h.core C.addr).isHt } =
          some { withCpu h C id with links := links₁ } := by
    simp only [Heap.writeCore, hlive, if_true]
    rfl
  have hadd₂' : Heap.listAddTail (.listPhyEnum h.callocs) (.cpuEnumHead P.addr)
      { withCpu h C id with links := links₁ } = some { withCpu h C id with links := links₂ } := by
    simp only [Heap.listAddTail, hadd₂, Option.bind_eq_bind, Option.bind_some]
  have hcalloc' : h.callocCpu ⟨id, none, none⟩ = (h₀, h.callocs) := rfl
  simp only [addCpu, hcheck, hcalloc', hpos, hadd₁', hread, hwrite, hadd₂', Option.bind_eq_bind,
    Option.bind_some]

theorem Holds.setOnline (hs : Holds h s loose) (id : Int) : Holds (setOnline h id) s loose where
  memory := hs.memory
  fresh := hs.fresh
  enum := hs.enum
  recorded := ⟨hs.recorded.pointer, hs.recorded.cluster, hs.recorded.core⟩

theorem holds_withCpu (hs : Holds h (place A P B CA C CB (NA ++ NB) enum) []) (id : Int)
    {links : Links Link}
    (hmemory : Memory links (ringsOf
      (place A P B CA C CB (NA ++ h.callocs :: NB) (enum ++ [(C.addr, h.callocs)]))) [])
    (hlive : ∀ x, (links x).isSome = ((withCpu h C id).links x).isSome) :
    Holds { withCpu h C id with links := links }
      (place A P B CA C CB (NA ++ h.callocs :: NB) (enum ++ [(C.addr, h.callocs)])) [] where
  memory := hmemory
  fresh := fun link hlink => by
    have hsome : (links link).isSome := hlink
    rw [hlive] at hsome
    refine fresh_allocate (fresh_allocate ?_ rfl (Nat.lt_succ_self _)) rfl (Nat.lt_succ_self _)
      link hsome
    exact fun other hother n hn => Nat.lt_succ_of_lt (hs.fresh other hother n hn)
  enum := by
    have henum := hs.enum
    rw [place, forall_mem_middle] at henum ⊢
    refine ⟨?_, henum.2⟩
    refine (List.perm_append_singleton _ _).trans ?_
    refine (List.Perm.cons _ henum.1).trans ?_
    simp only [List.flatMap_append, List.flatMap_cons, List.map_append, List.map_cons,
      List.append_assoc, List.cons_append]
    rw [← List.append_assoc, ← List.append_assoc (List.flatMap _ CA)]
    exact List.perm_middle.symm
  recorded := by
    apply hs.recorded.congr
    · refine sub_middle rfl ?_
      rw [forall_mem_middle]
      exact ⟨⟨_, List.mem_append_right _ List.mem_cons_self, rfl⟩, fun D hD =>
        ⟨D, mem_middle _ hD, rfl⟩⟩
    · exact fun _ _ => ⟨rfl, rfl⟩
    · exact fun _ _ _ _ => withCpu_coreId id _
    · exact fun _ href => href

theorem coreAt_withCpu (hs : Holds h (place A P B CA C CB (NA ++ NB) enum) []) {id : Int}
    (habsent : ∀ n ∈ NA ++ NB, (h.cpu n).cpuId ≠ id)
    (hplace : NA.length = SortedKeys.position (fun n => (h.cpu n).cpuId) id (NA ++ NB))
    (links : Links Link) :
    coreAt { withCpu h C id with links := links } { C with cpus := NA ++ h.callocs :: NB } =
      (coreAt h { C with cpus := NA ++ NB }).addCpu id := by
  have hsame : ∀ n ∈ NA ++ NB, cpuAt { withCpu h C id with links := links } n = cpuAt h n := by
    intro n hn
    have hlt := hs.cpu_lt mem_place (List.mem_append_right _ List.mem_cons_self) hn
    simp only [cpuAt, withCpu_old id hlt]
  have hnew : cpuAt { withCpu h C id with links := links } h.callocs = { cpuId := id } := by
    simp only [cpuAt, withCpu_new]
  have hlookup : SortedKeys.lookup CpuCpu.cpuId id ((NA ++ NB).map (cpuAt h)) = none :=
    lookup_absent habsent
  have hposition : NA.length =
      SortedKeys.position (fun n => CpuCpu.cpuId (cpuAt h n)) id (NA ++ NB) := hplace
  obtain ⟨htake, hdrop⟩ := take_drop_place hposition hsame
  have hhead : ((NA ++ NB).map (cpuAt h)).insertIdx
      (SortedKeys.position CpuCpu.cpuId id ((NA ++ NB).map (cpuAt h))) { cpuId := id } =
        (NA ++ h.callocs :: NB).map (cpuAt { withCpu h C id with links := links }) := by
    rw [SortedKeys.insertIdx_take_drop _ _ (SortedKeys.position_le _ _), htake, hdrop,
      List.map_append,
      List.map_cons, hnew]
  rw [CpuCore.addCpu]
  simp only [coreAt, Model.Topology.checkExistFromHead, hlookup,
    Model.Topology.checkPosFromHead, hhead, withCpu_own]
  rfl

theorem refs_withCpu (hs : Holds h (place A P B CA C CB cpus enum) []) (id : Int)
    (links : Links Link) :
    (enum ++ [(C.addr, h.callocs)]).map (refAt { withCpu h C id with links := links }) =
      enum.map (refAt h) ++ [{ coreId := (coreAt h C).coreId, cpuId := id }] := by
  have hold : enum.map (refAt { withCpu h C id with links := links }) = enum.map (refAt h) := by
    apply List.map_congr_left
    intro entry hentry
    obtain ⟨D, hD, hmem⟩ := List.mem_flatMap.mp ((hs.enum _ mem_place).mem_iff.mp hentry)
    obtain ⟨n, hn, rfl⟩ := List.mem_map.mp hmem
    simp only [refAt, withCpu_coreId, withCpu_old id (hs.cpu_lt mem_place hD hn)]
  rw [List.map_append, hold]
  simp only [List.map_cons, List.map_nil, refAt, withCpu_coreId, withCpu_new]
  rfl

private theorem addCpu_new (hs : Holds h (place A P B CA C CB C.cpus P.enum) []) {id : Int}
    (habsent : ∀ n ∈ C.cpus, (h.cpu n).cpuId ≠ id) :
    ∃ h' cpus enum, addCpu h P.addr C.addr id = some h' ∧
      CpuAdded h A P B CA C CB id h' cpus enum := by
  obtain ⟨NA, NB, hsplit, hNA, hNB⟩ := exists_place (fun n => (h.cpu n).cpuId) id C.cpus
  rw [← hsplit] at habsent hNA hNB
  have hs' : Holds h (place A P B CA C CB (NA ++ NB) P.enum) [] := by
    rw [hsplit]
    exact hs
  obtain ⟨links, hrun, hmemory, hlive⟩ := addCpu_run hs' habsent hNB
  have hcore := coreAt_withCpu hs' habsent hNA links
  have hlacks : (coreAt h C).hasCpu id = false := by
    have hlookup : SortedKeys.lookup CpuCpu.cpuId id (C.cpus.map (cpuAt h)) = none := by
      rw [← hsplit]
      exact lookup_absent habsent
    simp only [CpuCore.hasCpu, coreAt, Model.Topology.checkExistFromHead, hlookup,
      Option.isSome_none]
  have hcpu : ∀ {Q}, Q ∈ place A P B CA C CB C.cpus P.enum → ∀ D ∈ Q.cores, ∀ n ∈ D.cpus,
      (withCpu h C id).cpu n = h.cpu n := fun hQ D hD n hn =>
    withCpu_old id (hs.cpu_lt hQ hD hn)
  refine ⟨_, NA ++ h.callocs :: NB, P.enum ++ [(C.addr, h.callocs)], hrun, ?_⟩
  exact {
    holds := (holds_withCpu hs' id hmemory hlive).setOnline id
    core := by
      rw [hsplit] at hcore
      exact hcore
    cores := fun D hD => coreAt_congr (withCpu_other id (hs.core_ne (.inl hD)))
      (hcpu mem_place D (mem_middle _ hD))
    fields := rfl
    refs := by
      rw [hlacks]
      exact refs_withCpu hs id links
    others := fun Q hQ => physicalAt_congr (hs.enum Q (mem_middle _ hQ)) rfl
      (fun D hD => withCpu_other id (hs.core_ne (.inr ⟨Q, hQ, hD⟩))) (hcpu (mem_middle _ hQ))
    online := by
      rw [hlacks]
      exact onlineOf_setOnline _ id
    pstates := rfl }

theorem addCpu_spec (hs : Holds h (A ++ { P with cores := CA ++ C :: CB } :: B) []) (id : Int) :
    ∃ h' cpus enum, addCpu h P.addr C.addr id = some h' ∧
      CpuAdded h A P B CA C CB id h' cpus enum := by
  have hplaced : Holds h (place A P B CA C CB C.cpus P.enum) [] := hs
  cases hfind : C.cpus.find? fun n => decide ((h.cpu n).cpuId = id) with
  | none => exact addCpu_new hplaced (by simpa using hfind)
  | some n =>
    have hshort : C.cpus.length < h.fuel := by simpa using hplaced.short mem_rings_place
    have hcheck : checkExistFromHead h (.cpuHead C.addr) id = some (some (.listCpu n)) := by
      rw [checkExistFromHead_eq hplaced.cpuRing hshort fun n hn => hplaced.idOf_cpu hn, hfind]
      rfl
    have hlookup : SortedKeys.lookup CpuCpu.cpuId id (C.cpus.map (cpuAt h)) =
        some (cpuAt h n) := by
      rw [SortedKeys.lookup, List.find?_map]
      exact congrArg (Option.map (cpuAt h)) hfind
    have hhas : (coreAt h C).hasCpu id = true := by
      simp only [CpuCore.hasCpu, coreAt, Model.Topology.checkExistFromHead, hlookup,
        Option.isSome_some]
    refine ⟨h, C.cpus, P.enum, by simp [addCpu, hcheck], ?_⟩
    exact {
      holds := hplaced
      core := by
        rw [CpuCore.addCpu]
        simp only [coreAt, Model.Topology.checkExistFromHead, hlookup]
      cores := fun _ _ => rfl
      fields := rfl
      refs := by rw [hhas, if_pos rfl]
      others := fun _ _ => rfl
      online := by rw [hhas, if_pos rfl]
      pstates := rfl }

end AddCpu

section AddTopoInfo

open Idlestat.Model.Topology (newPhysical newCore)

variable {h h' : Heap} {s : Shape} {info : TopologyInfo}

theorem hasCpu_of_lookup (phy : CpuPhysical) (physicalId coreId cpuId : Int) :
    phy.hasCpu coreId cpuId = ((SortedKeys.lookup CpuCore.coreId coreId phy.coreHead).getD
      (newCore physicalId coreId)).hasCpu cpuId := by
  rw [CpuPhysical.hasCpu, Model.Topology.checkExistFromHead]
  cases SortedKeys.lookup CpuCore.coreId coreId phy.coreHead <;> rfl

theorem topoHasCpu_of_lookup (topo : CpuTopology) :
    topo.hasCpu info = ((SortedKeys.lookup CpuPhysical.physicalId info.physicalId
      topo.physicalHead).getD (newPhysical info.physicalId)).hasCpu info.coreId info.cpuId := by
  rw [CpuTopology.hasCpu, Model.Topology.checkExistFromHead]
  cases SortedKeys.lookup CpuPhysical.physicalId info.physicalId topo.physicalHead <;> rfl

theorem CoreAdded.coreId {A B : Shape} {P : PhysicalShape} {CA CB : List CoreShape}
    {C : CoreShape} {id : Int} (hadded : CoreAdded h A P B id h' CA C CB) :
    (coreAt h' C).coreId = id := by
  rw [← hadded.lookup]
  cases hlookup : SortedKeys.lookup CpuCore.coreId id (P.cores.map (coreAt h)) with
  | none => rfl
  | some core => exact (SortedKeys.lookup_some hlookup).2

theorem PhysicalAdded.physicalId {A B : Shape} {P : PhysicalShape} {id : Int}
    (hadded : PhysicalAdded h s id h' A P B) : (h'.physical P.addr).physicalId = id := by
  have hread : (physicalAt h' P).physicalId = id := by
    rw [← hadded.lookup]
    cases hlookup : SortedKeys.lookup CpuPhysical.physicalId id (s.map (physicalAt h)) with
    | none => rfl
    | some phy => exact (SortedKeys.lookup_some hlookup).2
  exact hread

theorem setOnline_physicalHead (topo : CpuTopology) (head : List CpuPhysical) (id : Int) :
    { topo.setOnline id with physicalHead := head } =
      ({ topo with physicalHead := head } : CpuTopology).setOnline id := by
  by_cases hgrow : topo.onlineArraySize ≤ id <;> simp [CpuTopology.setOnline, hgrow]

theorem physicalAt_added {h₁ h₂ : Heap} {A B : Shape} {P : PhysicalShape} {CA CB : List CoreShape}
    {C : CoreShape} {cpus : List Nat} {enum : List (Nat × Nat)} {coreId cpuId : Int}
    (hcore : CoreAdded h A P B coreId h₁ CA C CB)
    (hcpu : CpuAdded h₁ A P B CA C CB cpuId h₂ cpus enum) :
    physicalAt h₂ { P with cores := CA ++ { C with cpus := cpus } :: CB, enum := enum } =
      (physicalAt h P).addCore coreId cpuId := by
  have hsiblings : ∀ {L : List CoreShape}, (∀ D ∈ L, D ∈ CA ++ CB) →
      L.map (coreAt h₂) = L.map (coreAt h₁) := fun hL =>
    List.map_congr_left fun D hD => hcpu.cores D (hL D hD)
  have hcores : (CA ++ { C with cpus := cpus } :: CB).map (coreAt h₂) =
      SortedKeys.upsert CpuCore.coreId coreId (newCore (physicalAt h P).physicalId coreId)
        (·.addCpu cpuId) (P.cores.map (coreAt h)) := by
    rw [hcore.upsert, List.map_append, List.map_cons, hcpu.core,
      hsiblings fun D hD => List.mem_append_left _ hD,
      hsiblings fun D hD => List.mem_append_right _ hD]
  have hhas : (physicalAt h P).hasCpu coreId cpuId = (coreAt h₁ C).hasCpu cpuId := by
    rw [hasCpu_of_lookup _ (physicalAt h P).physicalId]
    exact congrArg (CpuCore.hasCpu · cpuId) hcore.lookup
  have hrefs : enum.map (refAt h₂) =
      if (physicalAt h P).hasCpu coreId cpuId then P.enum.map (refAt h)
      else P.enum.map (refAt h) ++ [{ coreId := coreId, cpuId := cpuId }] := by
    rw [hcpu.refs, hcore.refs, hcore.coreId, hhas]
  have hfields := hcpu.fields ▸ hcore.fields
  rw [CpuPhysical.addCore, physicalAt, hcores, hrefs, hfields]
  rfl

/-- `add_topo_info` runs without a fault, leaves the memory in order, and has
added the CPU to the tree in it. No records are built but those of its cluster and
its core. -/
theorem addTopoInfo_spec (hs : Holds h s []) {topo : CpuTopology}
    (hadd : Model.Topology.addTopoInfo (treeOf h s) info = .ok topo) :
    ∃ h' s', addTopoInfo h info = some h' ∧ Holds h' s' [] ∧ treeOf h' s' = topo ∧
      ∀ ref, (h'.pstates ref).isSome ↔ (h.pstates ref).isSome ∨
        ref = .cluster info.physicalId ∨ ref = .core info.physicalId info.coreId := by
  have hids : ¬ (info.physicalId < 0 ∨ info.coreId < 0 ∨ info.cpuId < 0) := by
    intro hneg
    simp [Model.Topology.addTopoInfo, hneg] at hadd
  obtain ⟨h₁, A, P, B, hphysical, h₁Added⟩ := addPhysical_spec hs info.physicalId
  obtain ⟨h₂, CA, C, CB, hcore, h₂Added⟩ := addCore_spec h₁Added.holds info.coreId
  obtain ⟨h₃, cpus, enum, hcpu, h₃Added⟩ := addCpu_spec h₂Added.holds info.cpuId
  refine ⟨h₃, place A P B CA C CB cpus enum, ?_, h₃Added.holds, ?_, ?_⟩
  · simp only [addTopoInfo, if_neg hids, hphysical, hcore, hcpu, Option.bind_eq_bind,
      Option.bind_some]
  · have hothers : ∀ {L : Shape}, (∀ Q ∈ L, Q ∈ A ++ B) →
        L.map (physicalAt h₃) = L.map (physicalAt h₁) := fun hL =>
      List.map_congr_left fun Q hQ =>
        (h₃Added.others Q (hL Q hQ)).trans (h₂Added.others Q (hL Q hQ))
    have hhead : (place A P B CA C CB cpus enum).map (physicalAt h₃) =
        SortedKeys.upsert CpuPhysical.physicalId info.physicalId (newPhysical info.physicalId)
          (·.addCore info.coreId info.cpuId) (s.map (physicalAt h)) := by
      rw [h₁Added.upsert, ← physicalAt_added h₂Added h₃Added, place, List.map_append,
        List.map_cons, hothers fun Q hQ => List.mem_append_left _ hQ,
        hothers fun Q hQ => List.mem_append_right _ hQ]
    have hhas : (treeOf h s).hasCpu info = (coreAt h₂ C).hasCpu info.cpuId := by
      rw [topoHasCpu_of_lookup]
      change ((SortedKeys.lookup CpuPhysical.physicalId info.physicalId
        (s.map (physicalAt h))).getD (newPhysical info.physicalId)).hasCpu _ _ = _
      rw [h₁Added.lookup, hasCpu_of_lookup _ (physicalAt h₁ P).physicalId]
      exact congrArg (CpuCore.hasCpu · info.cpuId) h₂Added.lookup
    have honline : onlineOf h₂ = onlineOf h := by
      simp only [onlineOf, h₂Added.onlineCpus, h₂Added.onlineArraySize, h₁Added.onlineCpus,
        h₁Added.onlineArraySize]
    have hset := h₃Added.online
    rw [honline, ← hhas] at hset
    have htree : treeOf h₃ (place A P B CA C CB cpus enum) =
        { onlineOf h₃ with
          physicalHead := SortedKeys.upsert CpuPhysical.physicalId info.physicalId
            (newPhysical info.physicalId) (·.addCore info.coreId info.cpuId)
            (s.map (physicalAt h)) } := by
      rw [← hhead]
      rfl
    rw [htree, hset]
    rw [Model.Topology.addTopoInfo, if_neg hids] at hadd
    cases hhasCpu : (treeOf h s).hasCpu info with
    | true =>
      simp only [hhasCpu, if_true] at hadd ⊢
      exact Except.ok.inj hadd
    | false =>
      simp only [hhasCpu, Bool.false_eq_true, if_false] at hadd ⊢
      rw [setOnline_physicalHead]
      exact Except.ok.inj hadd
  · intro ref
    rw [h₃Added.pstates, h₂Added.pstates, h₁Added.pstates, h₁Added.physicalId, or_assoc]

end AddTopoInfo

end Idlestat.Theory.HeapTopology
