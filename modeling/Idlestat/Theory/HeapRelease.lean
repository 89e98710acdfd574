import Idlestat.Theory.HeapLookup

/-! Releasing a topology. Every loop frees the element it stands on, so the
shape shrinks under it; at the end no node is allocated, and the records of the
clusters and the cores all are. A fault of `free` is a double free, and a fault of
`list_del` a write to freed memory. -/
namespace Idlestat.Theory.HeapRelease

open Idlestat.Library Idlestat.Library.LinkedList Idlestat.Model.TopologyHeap
open Idlestat.Theory.HeapTopology Idlestat.Theory.HeapLookup
open Idlestat.Model.Topology (RecordRef TopologyInfo)
open Idlestat.Model.Pstates (CpufreqPstates)

variable {h : Heap} {s A B : Shape} {P : PhysicalShape} {C : CoreShape}
  {CA CB : List CoreShape} {cpus : List Nat} {enum : List (Nat × Nat)} {loose : List Link}

theorem Holds.relink (hs : Holds h s loose) {links : Links Link} {s' : Shape} {loose' : List Link}
    (hmemory : Memory links (ringsOf s') loose')
    (hlive : ∀ link, (links link).isSome → (h.links link).isSome)
    (henum : ∀ P ∈ s', P.enum.Perm (P.cores.flatMap fun C => C.cpus.map (C.addr, ·)))
    (hsub : ∀ P' ∈ s', ∃ P ∈ s, P.addr = P'.addr ∧
      ∀ C' ∈ P'.cores, ∃ C ∈ P.cores, C.addr = C'.addr) :
    Holds { h with links := links } s' loose' where
  memory := hmemory
  fresh := fun link hlink => hs.fresh link (hlive link hlink)
  enum := henum
  recorded := hs.recorded.congr hsub (fun _ _ => ⟨rfl, rfl⟩) (fun _ _ _ _ => rfl) fun _ href => href

theorem Holds.withRecords (hs : Holds h s loose) {records : RecordRef → Option CpufreqPstates}
    (hrecords : ∀ ref, (h.pstates ref).isSome → (records ref).isSome) :
    Holds { h with pstates := records } s loose where
  memory := hs.memory
  fresh := hs.fresh
  enum := hs.enum
  recorded := hs.recorded.congr (fun P hP => ⟨P, hP, rfl, fun C hC => ⟨C, hC, rfl⟩⟩)
    (fun _ _ => ⟨rfl, rfl⟩) (fun _ _ _ _ => rfl) hrecords

def Relinked (h h' : Heap) : Prop :=
  ∃ links, h' = { h with links := links }

theorem Relinked.trans {h h' h'' : Heap} (hfirst : Relinked h h') (hsecond : Relinked h' h'') :
    Relinked h h'' := by
  obtain ⟨links, rfl⟩ := hfirst
  obtain ⟨links', rfl⟩ := hsecond
  exact ⟨links', rfl⟩

/-! ## The CPUs of a core -/

theorem freeCpu_step {n : Nat} (hs : Holds h (place A P B CA C CB (n :: cpus) enum) []) :
    ∃ h' enum', (do
      let h ← h.listDel (.listCpu n)
      let h ← h.listDel (.listPhyEnum n)
      freeCpu n h) = some h' ∧ Holds h' (place A P B CA C CB cpus enum') [] ∧
        Relinked h h' := by
  have hplace : ({ P with cores := CA ++ { C with cpus := n :: cpus } :: CB, enum := enum } :
      PhysicalShape) ∈ place A P B CA C CB (n :: cpus) enum := by simp [place]
  have henum := hs.enum _ hplace
  simp only [List.flatMap_append, List.flatMap_cons, List.map_cons, List.cons_append] at henum
  have hmem : (C.addr, n) ∈ enum := henum.mem_iff.mpr (by simp)
  obtain ⟨E, F, rfl⟩ := List.append_of_mem hmem
  have hrest : (E ++ F).Perm ((CA ++ { C with cpus := cpus } :: CB).flatMap fun C =>
      C.cpus.map (C.addr, ·)) := by
    have hcons := (List.perm_middle.symm.trans henum).trans List.perm_middle
    simpa using hcons.cons_inv
  have hmemory := hs.memory
  rw [← List.nil_append (n :: cpus), ringsOf_place] at hmemory
  obtain ⟨links₁, hdel₁, h₁, hlive₁⟩ := hmemory.del
  have h₁' : Memory links₁ (((.physicalHead,
      A.map PhysicalShape.link ++ P.link :: B.map PhysicalShape.link) ::
      (A.flatMap PhysicalShape.rings ++
        [(.coreHead P.addr, CA.map CoreShape.link ++ C.link :: CB.map CoreShape.link)])) ++
      (.cpuEnumHead P.addr, (E.map fun entry => .listPhyEnum entry.2) ++
        .listPhyEnum n :: F.map fun entry => .listPhyEnum entry.2) ::
        (CA.map CoreShape.ring ++ (.cpuHead C.addr, cpus.map .listCpu) ::
            (CB.map CoreShape.ring ++ B.flatMap PhysicalShape.rings)))
      [.listCpu n] := by
    simpa using h₁
  obtain ⟨links₂, hdel₂, h₂, hlive₂⟩ := h₁'.del
  obtain ⟨links₃, hfree₃, h₃⟩ := h₂.free
  obtain ⟨links₄, hfree₄, h₄⟩ := h₃.free
  have hfinal : Memory links₄ (ringsOf (place A P B CA C CB cpus (E ++ F))) [] := by
    rw [← List.nil_append cpus, ringsOf_place]
    simpa using h₄
  have hlive : ∀ link, (links₄ link).isSome → (h.links link).isSome := by
    intro link hlink
    rw [← hlive₁, ← hlive₂]
    exact live_of_free hfree₃ (live_of_free hfree₄ hlink)
  refine ⟨{ h with links := links₄ }, E ++ F, ?_, Holds.relink hs hfinal hlive ?_ ?_, links₄, rfl⟩
  · simp only [Heap.listDel, hdel₁, hdel₂, freeCpu, Heap.free, hfree₃, hfree₄,
      Option.bind_eq_bind, Option.bind_some]
  · have hall := hs.enum
    rw [place, forall_mem_middle] at hall
    rw [place, forall_mem_middle]
    exact ⟨hrest, hall.2⟩
  · refine sub_middle rfl ?_
    rw [forall_mem_middle]
    exact ⟨⟨_, List.mem_append_right _ List.mem_cons_self, rfl⟩, fun D hD =>
      ⟨D, mem_middle _ hD, rfl⟩⟩

theorem freeCpuCpuList_spec (hs : Holds h (place A P B CA C CB cpus enum) []) :
    ∃ h' enum', freeCpuCpuList (.cpuHead C.addr) h = some h' ∧
      Holds h' (place A P B CA C CB [] enum') [] ∧ Relinked h h' := by
  let start := h
  let Inv (rest : List Link) (h : Heap) : Prop := ∃ cpus enum, rest = cpus.map .listCpu ∧
    Holds h (place A P B CA C CB cpus enum) [] ∧ Relinked start h
  have hring : ∀ rest h, Inv rest h → Ring h.links (.cpuHead C.addr) rest := by
    rintro rest h ⟨cpus, enum, rfl, hs, -⟩
    exact hs.cpuRing
  have hbody : ∀ x rest h, Inv (x :: rest) h → ∃ h', (do
      let n ← cpuOf x
      let h ← h.listDel (.listCpu n)
      let h ← h.listDel (.listPhyEnum n)
      freeCpu n h) = some h' ∧ Inv rest h' := by
    rintro x rest h ⟨cpus, enum, hcpus, hs, hlinks⟩
    obtain ⟨n, cpus, rfl, rfl, rfl⟩ := List.map_eq_cons_iff.mp hcpus.symm
    obtain ⟨h', enum', hstep, hs', hlinks'⟩ := freeCpu_step hs
    exact ⟨h', hstep, cpus, enum', rfl, hs', hlinks.trans hlinks'⟩
  have hshort : (cpus.map Link.listCpu).length < h.fuel := hs.short mem_rings_place
  obtain ⟨h', hloop, cpus', enum', hnil, hs', hlinks⟩ :=
    listForEachSafe_spec hring hbody ⟨cpus, enum, rfl, hs, h.links, rfl⟩ hshort
  obtain rfl := List.map_eq_nil_iff.mp hnil.symm
  exact ⟨h', enum', hloop, hs', hlinks⟩

/-! ## The cores of a cluster -/

theorem freeCore_step
    (hs : Holds h (A ++ { P with cores := C :: CB, enum := enum } :: B) []) :
    ∃ h' enum', (do
      let h ← freeCpuCpuList (.cpuHead C.addr) h
      let h ← h.listDel (.listCore C.addr)
      freeCore C.addr h) = some h' ∧
        Holds h' (A ++ { P with cores := CB, enum := enum' } :: B) [] ∧ Relinked h h' := by
  have hplaced : Holds h (place A P B [] C CB C.cpus enum) [] := hs
  obtain ⟨h₁, enum', hcpus, hs₁, hlinks₁⟩ := freeCpuCpuList_spec hplaced
  have hmemory : Memory h₁.links (((.physicalHead,
      A.map PhysicalShape.link ++ P.link :: B.map PhysicalShape.link) ::
      A.flatMap PhysicalShape.rings) ++
        (.coreHead P.addr, [] ++ .listCore C.addr :: CB.map CoreShape.link) ::
          ((.cpuEnumHead P.addr, enum'.map fun entry => .listPhyEnum entry.2) ::
            (.cpuHead C.addr, []) :: (CB.map CoreShape.ring ++ B.flatMap PhysicalShape.rings)))
      [] := by
    simpa [place, ringsOf_split, PhysicalShape.rings, PhysicalShape.coreRing,
      PhysicalShape.enumRing, PhysicalShape.link, CoreShape.ring, CoreShape.link] using hs₁.memory
  obtain ⟨links₂, hdel, h₂, hlive₂⟩ := hmemory.del
  have h₂' : Memory links₂ ((((.physicalHead,
      A.map PhysicalShape.link ++ P.link :: B.map PhysicalShape.link) ::
      A.flatMap PhysicalShape.rings) ++
        [(.coreHead P.addr, CB.map CoreShape.link),
          (.cpuEnumHead P.addr, enum'.map fun entry => .listPhyEnum entry.2)]) ++
            (.cpuHead C.addr, []) :: (CB.map CoreShape.ring ++ B.flatMap PhysicalShape.rings))
      [.listCore C.addr] := by
    simpa using h₂
  obtain ⟨links₃, hfree₃, h₃⟩ := h₂'.drop.free
  obtain ⟨links₄, hfree₄, h₄⟩ := h₃.free
  have hfinal : Memory links₄ (ringsOf (A ++ { P with cores := CB, enum := enum' } :: B)) [] := by
    simpa [ringsOf_split, PhysicalShape.rings, PhysicalShape.coreRing, PhysicalShape.enumRing,
      PhysicalShape.link] using h₄
  have hlive : ∀ link, (links₄ link).isSome → (h₁.links link).isSome := by
    intro link hlink
    rw [← hlive₂]
    exact live_of_free hfree₃ (live_of_free hfree₄ hlink)
  have henum := hs₁.enum
  rw [place, forall_mem_middle] at henum
  refine ⟨{ h₁ with links := links₄ }, enum', ?_, Holds.relink hs₁ hfinal hlive ?_ ?_,
    hlinks₁.trans ⟨links₄, rfl⟩⟩
  · simp only [hcpus, Heap.listDel, hdel, freeCore, Heap.free, hfree₃, hfree₄,
      Option.bind_eq_bind, Option.bind_some]
  · rw [forall_mem_middle]
    exact ⟨by simpa using henum.1, henum.2⟩
  · exact sub_middle rfl fun D hD => ⟨D, List.mem_cons_of_mem _ hD, rfl⟩

theorem freeCpuCoreList_spec (hs : Holds h (A ++ P :: B) []) :
    ∃ h' enum', freeCpuCoreList (.coreHead P.addr) h = some h' ∧
      Holds h' (A ++ { P with cores := [], enum := enum' } :: B) [] ∧ Relinked h h' := by
  let start := h
  let Inv (rest : List Link) (h : Heap) : Prop := ∃ cores enum,
    rest = cores.map CoreShape.link ∧
      Holds h (A ++ { P with cores := cores, enum := enum } :: B) [] ∧ Relinked start h
  have hring : ∀ rest h, Inv rest h → Ring h.links (.coreHead P.addr) rest := by
    rintro rest h ⟨cores, enum, rfl, hs, -⟩
    exact hs.coreRing (List.mem_append_right _ List.mem_cons_self)
  have hbody : ∀ x rest h, Inv (x :: rest) h → ∃ h', (do
      let n ← coreOf x
      let h ← freeCpuCpuList (.cpuHead n) h
      let h ← h.listDel (.listCore n)
      freeCore n h) = some h' ∧ Inv rest h' := by
    rintro x rest h ⟨cores, enum, hcores, hs, hlinks⟩
    obtain ⟨C, CB, rfl, rfl, rfl⟩ := List.map_eq_cons_iff.mp hcores.symm
    obtain ⟨h', enum', hstep, hs', hlinks'⟩ := freeCore_step hs
    exact ⟨h', hstep, CB, enum', rfl, hs', hlinks.trans hlinks'⟩
  have hshort : (P.cores.map CoreShape.link).length < h.fuel :=
    hs.short (mem_rings_cores (List.mem_append_right _ List.mem_cons_self))
  obtain ⟨h', hloop, cores', enum', hnil, hs', hlinks⟩ :=
    listForEachSafe_spec hring hbody ⟨P.cores, P.enum, rfl, hs, h.links, rfl⟩ hshort
  obtain rfl := List.map_eq_nil_iff.mp hnil.symm
  exact ⟨h', enum', hloop, hs', hlinks⟩

/-! ## The clusters -/

def freed (record : CpufreqPstates) : CpufreqPstates :=
  { record with pstate := [] }

/-- The records after the arrays of these clusters have been freed. -/
def freeArrays (ids : List Int) (records : RecordRef → Option CpufreqPstates) :
    RecordRef → Option CpufreqPstates
  | .cluster id => if id ∈ ids then (records (.cluster id)).map freed else records (.cluster id)
  | ref => records ref

theorem freeArrays_nil (records : RecordRef → Option CpufreqPstates) :
    freeArrays [] records = records := by
  funext ref
  cases ref <;> rfl

theorem isSome_freeArrays (ids : List Int) (records : RecordRef → Option CpufreqPstates)
    (ref : RecordRef) : (freeArrays ids records ref).isSome = (records ref).isSome := by
  cases ref with
  | percpu cpu => rfl
  | core physicalId coreId => rfl
  | cluster id => by_cases hid : id ∈ ids <;> simp [freeArrays, hid]

theorem freeArrays_concat {ids : List Int} {id : Int}
    {records : RecordRef → Option CpufreqPstates} {record : CpufreqPstates}
    (hrecord : freeArrays ids records (.cluster id) = some record) :
    Function.update (freeArrays ids records) (.cluster id) (some (freed record)) =
      freeArrays (ids ++ [id]) records := by
  funext ref
  by_cases href : ref = .cluster id
  · subst href
    rw [Function.update_self]
    by_cases hid : id ∈ ids
    · rw [freeArrays, if_pos hid] at hrecord
      obtain ⟨before, hbefore, rfl⟩ := Option.map_eq_some_iff.mp hrecord
      simp [freeArrays, hbefore, freed]
    · rw [freeArrays, if_neg hid] at hrecord
      simp [freeArrays, hrecord]
  · rw [Function.update_of_ne href]
    cases ref with
    | percpu cpu => rfl
    | core physicalId coreId => rfl
    | cluster other =>
      have hne : other ≠ id := fun heq => href (heq ▸ rfl)
      simp [freeArrays, hne]

theorem freePhysical_step (hs : Holds h (P :: s) []) :
    ∃ links record, (do
      let h ← freeCpuCoreList (.coreHead P.addr) h
      let h ← h.listDel (.listPhysical P.addr)
      let fields ← h.readPhysical P.addr
      let h ← h.freePstate (← fields.pstates)
      freePhysical P.addr h) = some { h with
        links := links
        pstates := Function.update h.pstates (.cluster (h.physical P.addr).physicalId)
          (some (freed record)) } ∧
      h.pstates (.cluster (h.physical P.addr).physicalId) = some record ∧
      Holds { h with links := links } s [] := by
  have hfirst : Holds h ([] ++ P :: s) [] := hs
  obtain ⟨h₁, enum', hcores, hs₁, links₁, rfl⟩ := freeCpuCoreList_spec hfirst
  have henum := hs₁.enum
  rw [forall_mem_middle] at henum
  obtain rfl : enum' = [] := henum.1.eq_nil
  have hmemory : Memory links₁ ([] ++ (.physicalHead,
      [] ++ .listPhysical P.addr :: s.map PhysicalShape.link) ::
        ((.coreHead P.addr, []) :: (.cpuEnumHead P.addr, []) :: s.flatMap PhysicalShape.rings))
      [] := by
    simpa [ringsOf, PhysicalShape.rings, PhysicalShape.coreRing, PhysicalShape.enumRing,
      PhysicalShape.link] using hs₁.memory
  obtain ⟨links₂, hdel, h₂, hlive₂⟩ := hmemory.del
  have h₂' : Memory links₂ ([(.physicalHead, s.map PhysicalShape.link), (.coreHead P.addr, [])] ++
      (.cpuEnumHead P.addr, []) :: s.flatMap PhysicalShape.rings) [.listPhysical P.addr] := by
    simpa using h₂
  have h₃ : Memory links₂ ([(.physicalHead, s.map PhysicalShape.link)] ++
      (.coreHead P.addr, []) :: s.flatMap PhysicalShape.rings)
      [.cpuEnumHead P.addr, .listPhysical P.addr] := by
    simpa using h₂'.drop
  obtain ⟨links₄, hfree₄, h₄⟩ := h₃.drop.free
  obtain ⟨links₅, hfree₅, h₅⟩ := h₄.free
  obtain ⟨links₆, hfree₆, h₆⟩ := h₅.free
  have hlive : ∀ link, (links₆ link).isSome → (links₁ link).isSome := by
    intro link hlink
    rw [← hlive₂]
    exact live_of_free hfree₄ (live_of_free hfree₅ (live_of_free hfree₆ hlink))
  obtain ⟨record, hrecord⟩ := Option.isSome_iff_exists.mp
    (hs.recorded.cluster P List.mem_cons_self)
  refine ⟨links₆, record, ?_, hrecord, Holds.relink hs₁ h₆ hlive henum.2 fun Q hQ => ?_⟩
  · have hread : Heap.readPhysical { h with links := links₂ } P.addr =
        some (h.physical P.addr) := by
      have hcell : (links₂ (.listPhysical P.addr)).isSome := h₂.live_loose
      simp only [Heap.readPhysical, hcell, if_true]
    have hpointer := hs.recorded.pointer P List.mem_cons_self
    simp only [hcores, Heap.listDel, hdel, hread, hpointer, Heap.freePstate, hrecord, freePhysical,
      Heap.free, hfree₄, hfree₅, hfree₆, Option.bind_eq_bind, Option.bind_some]
    rfl
  · exact ⟨Q, List.mem_cons_of_mem _ hQ, rfl, fun C hC => ⟨C, hC, rfl⟩⟩

def idsOf (h : Heap) (s : Shape) : List Int :=
  s.map fun P => (h.physical P.addr).physicalId

theorem freeCpuTopology_spec (hs : Holds h s []) :
    ∃ links, freeCpuTopology .physicalHead h = some { h with
      links := links
      pstates := freeArrays (idsOf h s) h.pstates } ∧ Memory links (ringsOf []) [] := by
  let after (links : Links Link) (ids : List Int) : Heap :=
    { h with links := links, pstates := freeArrays ids h.pstates }
  -- the records of the clusters that are gone have lost their arrays
  let Inv (rest : List Link) (h' : Heap) : Prop := ∃ gone s' links, s = gone ++ s' ∧
    rest = s'.map PhysicalShape.link ∧ h' = after links (idsOf h gone) ∧ Holds h' s' []
  have hring : ∀ rest h', Inv rest h' → Ring h'.links .physicalHead rest := by
    rintro rest h' ⟨gone, s', links, -, rfl, -, hs⟩
    exact hs.memory.rings.ring _ mem_rings_top
  have hbody : ∀ x rest h', Inv (x :: rest) h' → ∃ h'', (do
      let n ← physicalOf x
      let h ← freeCpuCoreList (.coreHead n) h'
      let h ← h.listDel (.listPhysical n)
      let fields ← h.readPhysical n
      let h ← h.freePstate (← fields.pstates)
      freePhysical n h) = some h'' ∧ Inv rest h'' := by
    rintro x rest h' ⟨gone, s', links, hsplit, hlinks, rfl, hs⟩
    obtain ⟨P, s', rfl, rfl, rfl⟩ := List.map_eq_cons_iff.mp hlinks.symm
    obtain ⟨links', record, hstep, hrecord, hs'⟩ := freePhysical_step hs
    have hids : idsOf h (gone ++ [P]) = idsOf h gone ++ [(h.physical P.addr).physicalId] :=
      List.map_append
    have hafter : ({ after links (idsOf h gone) with
        links := links'
        pstates := Function.update (after links (idsOf h gone)).pstates
          (.cluster (h.physical P.addr).physicalId) (some (freed record)) } : Heap) =
        after links' (idsOf h (gone ++ [P])) := by
      rw [hids]
      simp only [after, ← freeArrays_concat hrecord]
    refine ⟨_, hstep, gone ++ [P], s', links', by rw [hsplit]; simp, rfl, hafter, ?_⟩
    refine Holds.withRecords hs' fun ref href => ?_
    by_cases hown : ref = .cluster (h.physical P.addr).physicalId
    · rw [hown, Function.update_self]
      rfl
    · rwa [Function.update_of_ne hown]
  have hshort : (s.map PhysicalShape.link).length < h.fuel := hs.short mem_rings_top
  have hstart : Inv (s.map PhysicalShape.link) h := by
    refine ⟨[], s, h.links, rfl, rfl, ?_, hs⟩
    simp only [after, idsOf, List.map_nil, freeArrays_nil]
  obtain ⟨h', hloop, gone, s', links, hsplit, hnil, rfl, hs'⟩ :=
    listForEachSafe_spec hring hbody hstart hshort
  obtain rfl := List.map_eq_nil_iff.mp hnil.symm
  rw [List.append_nil] at hsplit
  subst hsplit
  exact ⟨links, hloop, hs'.memory⟩

theorem releaseCpuTopoInfo_spec (hs : Holds h s []) :
    ∃ links, releaseCpuTopoInfo h = some { h with
        links := links
        pstates := freeArrays (idsOf h s) h.pstates
        onlineCpus := none } ∧ ∀ link, links link = none := by
  obtain ⟨links₁, hfree, hmemory⟩ := freeCpuTopology_spec hs
  have hempty : Memory links₁ ([] ++ (.physicalHead, []) :: []) [] := hmemory
  have hhead : (links₁ .physicalHead).isSome :=
    live_of_memory hmemory mem_rings_top List.mem_cons_self
  obtain ⟨links, hfreeHead, hnone⟩ := hempty.drop.free
  refine ⟨links, ?_, fun link => ?_⟩
  · simp only [releaseCpuTopoInfo, hfree, Heap.freeOnlineCpus, hhead, if_true, Heap.free, hfreeHead,
      Option.bind_eq_bind, Option.bind_some]
  · by_contra hlive
    have hmem := (hnone.live link).mp (Option.isSome_iff_ne_none.mpr hlive)
    simp [footprint] at hmem

/-- What is left of the memory `h` of a topology of these CPUs: its records, the
ones of the clusters without their arrays. -/
structure Released (infos : List TopologyInfo) (h h' : Heap) : Prop where
  links : ∀ link, h'.links link = none
  onlineCpus : h'.onlineCpus = none
  leaked : ∀ ref, (h'.pstates ref).isSome ↔ RecordFor infos ref
  clusters : ∀ physicalId,
    h'.pstates (.cluster physicalId) = (h.pstates (.cluster physicalId)).map freed
  cores : ∀ physicalId coreId,
    h'.pstates (.core physicalId coreId) = h.pstates (.core physicalId coreId)

theorem mem_idsOf {infos : List TopologyInfo} (hbuilt : TopologyCanonical.addTopoInfos infos =
    .ok (treeOf h s)) {info : TopologyInfo} (hinfo : info ∈ infos) :
    info.physicalId ∈ idsOf h s := by
  obtain ⟨topo, hspec, -, hhas⟩ :=
    TopologyCanonical.addTopoInfos_spec (nonNegative_of_ok hbuilt)
  obtain rfl : treeOf h s = topo := Except.ok.inj (hbuilt.symm.trans hspec)
  obtain ⟨phy, hphy, hid, -⟩ := (hhas info).mpr hinfo
  obtain ⟨P, hP, rfl⟩ := List.mem_map.mp hphy
  exact List.mem_map.mpr ⟨P, hP, hid⟩

end Idlestat.Theory.HeapRelease
