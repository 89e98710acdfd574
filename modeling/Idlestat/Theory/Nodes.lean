import Mathlib.Data.List.Pairwise
import Idlestat.Model.Recorder
import Idlestat.Theory.TopologyLookup

/-! The records of a topology whose pointers are set: one per CPU, core and
cluster, each with the CPUs below it. The lookups of the event handlers find the
core and cluster of a CPU, and the composite values of a group are a minimum and
a maximum over its CPUs. -/
namespace Idlestat.Theory.Nodes

open Idlestat.Model.Topology Idlestat.Model.Cstates Idlestat.Model.Pstates
  Idlestat.Model.Recorder Idlestat.Theory.TopologyTree Idlestat.Theory.TopologyLookup

def coreIds (core : CpuCore) : List Int :=
  core.cpuHead.map CpuCpu.cpuId

def clusterIds (phy : CpuPhysical) : List Int :=
  phy.coreHead.flatMap coreIds

def cpuIds (topo : CpuTopology) : List Int :=
  topo.physicalHead.flatMap clusterIds

/-- The record of every core and cluster, with the CPUs of the group. -/
def groups (topo : CpuTopology) : List (RecordRef × List Int) :=
  topo.physicalHead.flatMap fun phy =>
    (.cluster phy.physicalId, clusterIds phy) ::
      phy.coreHead.map fun core => (.core phy.physicalId core.coreId, coreIds core)

/-- The record of every CPU, core and cluster, with the CPUs below it. -/
def nodes (topo : CpuTopology) : List (RecordRef × List Int) :=
  (cpuIds topo).map (fun cpu => (.percpu cpu, [cpu])) ++ groups topo

/-- The tree as `setup_topo_states` leaves it. -/
structure Mapped (nrcpus : Int) (topo : CpuTopology) : Prop where
  shape : TopoShape topo
  unique : (cpuIds topo).Nodup
  range : ∀ cpu ∈ cpuIds topo, 0 ≤ cpu ∧ cpu < nrcpus
  cpu : ∀ phy ∈ topo.physicalHead, ∀ core ∈ phy.coreHead, ∀ cpu ∈ core.cpuHead,
    cpu.cstates = some (.percpu cpu.cpuId) ∧ cpu.pstates = some (.percpu cpu.cpuId)
  core : ∀ phy ∈ topo.physicalHead, ∀ core ∈ phy.coreHead,
    core.cstates = some (.core phy.physicalId core.coreId) ∧
      core.pstates = some (.core phy.physicalId core.coreId)
  cluster : ∀ phy ∈ topo.physicalHead,
    phy.cstates = some (.cluster phy.physicalId) ∧ phy.pstates = some (.cluster phy.physicalId)

theorem mem_coreIds {core : CpuCore} {cpu : Int} : cpu ∈ coreIds core ↔ CoreHas core cpu := by
  simp [coreIds, CoreHas]

theorem mem_clusterIds {phy : CpuPhysical} {cpu : Int} :
    cpu ∈ clusterIds phy ↔ ClusterHas phy cpu := by
  simp [clusterIds, ClusterHas, mem_coreIds]

theorem mem_cpuIds {topo : CpuTopology} {cpu : Int} :
    cpu ∈ cpuIds topo ↔ ∃ phy ∈ topo.physicalHead, cpu ∈ clusterIds phy := by
  simp [cpuIds]

theorem mem_groups {topo : CpuTopology} {ref : RecordRef} {members : List Int} :
    (ref, members) ∈ groups topo ↔ ∃ phy ∈ topo.physicalHead,
      ref = .cluster phy.physicalId ∧ members = clusterIds phy ∨
      ∃ core ∈ phy.coreHead, ref = .core phy.physicalId core.coreId ∧ members = coreIds core := by
  simp only [groups, List.mem_flatMap, List.mem_cons, List.mem_map, Prod.mk.injEq]
  simp only [eq_comm]

theorem eq_of_flatMap_nodup {α β : Type} {f : α → List β} {l : List α}
    (h : (l.flatMap f).Nodup) {a b : α} (ha : a ∈ l) (hb : b ∈ l) {x : β} (hxa : x ∈ f a)
    (hxb : x ∈ f b) : a = b := by
  induction l with
  | nil => cases ha
  | cons c rest ih =>
    obtain ⟨-, hrest, hdisjoint⟩ := List.nodup_append'.mp h
    have hapart : ∀ d ∈ rest, x ∈ f c → x ∉ f d := fun d hd hxc hxd =>
      hdisjoint hxc (List.mem_flatMap.mpr ⟨d, hd, hxd⟩)
    cases ha with
    | head =>
      cases hb with
      | head => rfl
      | tail _ hb => exact absurd hxb (hapart b hb hxa)
    | tail _ ha =>
      cases hb with
      | head => exact absurd hxa (hapart a ha hxb)
      | tail _ hb => exact ih hrest ha hb

/-! ## The core and cluster of a CPU -/

/-- The core and cluster that the handlers of a CPU's events find. -/
structure Located (topo : CpuTopology) (cpu : Int) (phy : CpuPhysical) (core : CpuCore) :
    Prop where
  phy_mem : phy ∈ topo.physicalHead
  core_mem : core ∈ phy.coreHead
  cpu_mem : cpu ∈ coreIds core
  cluster : cpuToCluster cpu topo = some phy
  core : cpuToCore cpu topo = some core

instance (topo : CpuTopology) (cpu : Int) (phy : CpuPhysical) (core : CpuCore) :
    Decidable (Located topo cpu phy core) :=
  decidable_of_iff (phy ∈ topo.physicalHead ∧ core ∈ phy.coreHead ∧ cpu ∈ coreIds core ∧
      cpuToCluster cpu topo = some phy ∧ cpuToCore cpu topo = some core)
    ⟨fun ⟨hphy, hcore, hcpu, hcluster, hfound⟩ => ⟨hphy, hcore, hcpu, hcluster, hfound⟩,
      fun h => ⟨h.phy_mem, h.core_mem, h.cpu_mem, h.cluster, h.core⟩⟩

section Locate

variable {nrcpus : Int} {topo : CpuTopology} {cpu : Int} {phy : CpuPhysical} {core : CpuCore}

theorem located_of_shape (h : TopoShape topo) (hcpu : cpu ∈ cpuIds topo) :
    ∃ phy core, Located topo cpu phy core := by
  obtain ⟨phy, hphy, hhas⟩ := mem_cpuIds.mp hcpu
  obtain ⟨phy', hphy', core, hcore, hcore', hcluster, hfound⟩ :=
    h.lookup_present hphy (mem_clusterIds.mp hhas)
  exact ⟨phy', core, hphy', hcore, mem_coreIds.mpr hcore', hcluster, hfound⟩

theorem Mapped.located (h : Mapped nrcpus topo) (hcpu : cpu ∈ cpuIds topo) :
    ∃ phy core, Located topo cpu phy core :=
  located_of_shape h.shape hcpu

theorem Located.mem_clusterIds (h : Located topo cpu phy core) : cpu ∈ clusterIds phy :=
  List.mem_flatMap.mpr ⟨core, h.core_mem, h.cpu_mem⟩

theorem Located.mem_cpuIds (h : Located topo cpu phy core) : cpu ∈ cpuIds topo :=
  List.mem_flatMap.mpr ⟨phy, h.phy_mem, h.mem_clusterIds⟩

/-- A CPU is in no other cluster. -/
theorem Located.phy_eq (h : Located topo cpu phy core) (hm : Mapped nrcpus topo)
    {phy' : CpuPhysical} (hphy : phy' ∈ topo.physicalHead) (hcpu : cpu ∈ clusterIds phy') :
    phy' = phy :=
  eq_of_flatMap_nodup hm.unique hphy h.phy_mem hcpu h.mem_clusterIds

theorem Located.core_eq (h : Located topo cpu phy core) (hm : Mapped nrcpus topo)
    {core' : CpuCore} (hcore : core' ∈ phy.coreHead) (hcpu : cpu ∈ coreIds core') :
    core' = core :=
  eq_of_flatMap_nodup ((List.nodup_flatMap.mp hm.unique).1 phy h.phy_mem) hcore h.core_mem
    hcpu h.cpu_mem

theorem Located.mem_groups_iff (h : Located topo cpu phy core) (hm : Mapped nrcpus topo)
    {ref : RecordRef} {members : List Int} (hgroup : (ref, members) ∈ groups topo) :
    cpu ∈ members ↔ ref = .cluster phy.physicalId ∨ ref = .core phy.physicalId core.coreId := by
  obtain ⟨phy', hphy', ⟨rfl, rfl⟩ | ⟨core', hcore', rfl, rfl⟩⟩ := mem_groups.mp hgroup
  · simp only [RecordRef.cluster.injEq, reduceCtorEq, or_false]
    constructor
    · intro hcpu
      rw [h.phy_eq hm hphy' hcpu]
    · intro hid
      rw [List.inj_on_of_nodup_map hm.shape.clusters hphy' h.phy_mem hid]
      exact h.mem_clusterIds
  · simp only [RecordRef.core.injEq, reduceCtorEq, false_or]
    constructor
    · intro hcpu
      obtain rfl := h.phy_eq hm hphy' (List.mem_flatMap.mpr ⟨core', hcore', hcpu⟩)
      rw [h.core_eq hm hcore' hcpu]
      exact ⟨rfl, rfl⟩
    · rintro ⟨hpid, hcid⟩
      obtain rfl := List.inj_on_of_nodup_map hm.shape.clusters hphy' h.phy_mem hpid
      rw [List.inj_on_of_nodup_map (hm.shape.cores phy' hphy') hcore' h.core_mem hcid]
      exact h.cpu_mem

theorem Located.cluster_group (h : Located topo cpu phy core) :
    (RecordRef.cluster phy.physicalId, clusterIds phy) ∈ groups topo :=
  mem_groups.mpr ⟨phy, h.phy_mem, .inl ⟨rfl, rfl⟩⟩

theorem Located.core_group (h : Located topo cpu phy core) :
    (RecordRef.core phy.physicalId core.coreId, coreIds core) ∈ groups topo :=
  mem_groups.mpr ⟨phy, h.phy_mem, .inr ⟨core, h.core_mem, rfl, rfl⟩⟩

theorem Mapped.group_unique (hm : Mapped nrcpus topo) {ref : RecordRef}
    {members members' : List Int} (hgroup : (ref, members) ∈ groups topo)
    (hgroup' : (ref, members') ∈ groups topo) : members = members' := by
  obtain ⟨phy, hphy, ⟨rfl, rfl⟩ | ⟨core, hcore, rfl, rfl⟩⟩ := mem_groups.mp hgroup
  · obtain ⟨phy', hphy', ⟨href, rfl⟩ | ⟨core', -, href, -⟩⟩ := mem_groups.mp hgroup'
    · rw [List.inj_on_of_nodup_map hm.shape.clusters hphy hphy' (RecordRef.cluster.inj href)]
    · cases href
  · obtain ⟨phy', hphy', ⟨href, -⟩ | ⟨core', hcore', href, rfl⟩⟩ := mem_groups.mp hgroup'
    · cases href
    · obtain ⟨hpid, hcid⟩ := RecordRef.core.inj href
      obtain rfl := List.inj_on_of_nodup_map hm.shape.clusters hphy hphy' hpid
      rw [List.inj_on_of_nodup_map (hm.shape.cores phy hphy) hcore hcore' hcid]

theorem Mapped.group_inhabited (hm : Mapped nrcpus topo) {ref : RecordRef}
    {members : List Int} (hgroup : (ref, members) ∈ groups topo) : members ≠ [] := by
  have hcore : ∀ phy ∈ topo.physicalHead, ∀ core ∈ phy.coreHead, coreIds core ≠ [] := by
    intro phy hphy core hcore
    simpa [coreIds] using hm.shape.coresInhabited phy hphy core hcore
  obtain ⟨phy, hphy, ⟨rfl, rfl⟩ | ⟨core, hmem, rfl, rfl⟩⟩ := mem_groups.mp hgroup
  · obtain ⟨core, hmem⟩ := List.exists_mem_of_ne_nil _ (hm.shape.clustersInhabited phy hphy)
    obtain ⟨cpu, hcpu⟩ := List.exists_mem_of_ne_nil _ (hcore phy hphy core hmem)
    exact List.ne_nil_of_mem (List.mem_flatMap.mpr ⟨core, hmem, hcpu⟩)
  · exact hcore phy hphy core hmem

theorem mem_cpuIds_of_group {ref : RecordRef} {members : List Int}
    (hgroup : (ref, members) ∈ groups topo) (hcpu : cpu ∈ members) : cpu ∈ cpuIds topo := by
  obtain ⟨phy, hphy, ⟨rfl, rfl⟩ | ⟨core, hmem, rfl, rfl⟩⟩ := mem_groups.mp hgroup
  · exact mem_cpuIds.mpr ⟨phy, hphy, hcpu⟩
  · exact mem_cpuIds.mpr ⟨phy, hphy, List.mem_flatMap.mpr ⟨core, hmem, hcpu⟩⟩

theorem percpu_not_group {members : List Int} :
    (RecordRef.percpu cpu, members) ∉ groups topo := by
  simp [mem_groups]

end Locate

/-! ## Composite values -/

/-- The minimum of `f` over the CPUs of a group. -/
def least (f : Int → Int) (members : List Int) : Int :=
  (members.map f).foldl min maxcstate

/-- The maximum of `f` over the CPUs of a group, 0 if there is none. -/
def greatest (f : Int → Nat) (members : List Int) : Nat :=
  (members.map f).foldl max 0

section Composite

variable {members members' : List Int}

theorem least_perm (f : Int → Int) (h : members.Perm members') :
    least f members = least f members' :=
  (h.map f).foldl_eq _

theorem greatest_perm (f : Int → Nat) (h : members.Perm members') :
    greatest f members = greatest f members' :=
  (h.map f).foldl_eq _

theorem least_congr {f g : Int → Int} (h : ∀ cpu ∈ members, f cpu = g cpu) :
    least f members = least g members := by
  unfold least
  rw [List.map_congr_left h]

theorem greatest_congr {f g : Int → Nat} (h : ∀ cpu ∈ members, f cpu = g cpu) :
    greatest f members = greatest g members := by
  unfold greatest
  rw [List.map_congr_left h]

private theorem foldl_min_le (l : List Int) (a : Int) :
    l.foldl min a ≤ a ∧ ∀ x ∈ l, l.foldl min a ≤ x := by
  induction l generalizing a with
  | nil => simp
  | cons y ys ih =>
    obtain ⟨hhead, htail⟩ := ih (min a y)
    refine ⟨hhead.trans (min_le_left _ _), fun x hx => ?_⟩
    cases hx with
    | head => exact hhead.trans (min_le_right _ _)
    | tail _ hx => exact htail x hx

private theorem foldl_min_mem (l : List Int) (a : Int) :
    l.foldl min a = a ∨ l.foldl min a ∈ l := by
  induction l generalizing a with
  | nil => exact .inl rfl
  | cons y ys ih =>
    rcases ih (min a y) with h | h
    · rcases min_choice a y with hmin | hmin
      · exact .inl (h.trans hmin)
      · exact .inr (List.mem_cons.mpr (.inl (h.trans hmin)))
    · exact .inr (List.mem_cons_of_mem _ h)

private theorem le_foldl_max (l : List Nat) (a : Nat) :
    a ≤ l.foldl max a ∧ ∀ x ∈ l, x ≤ l.foldl max a := by
  induction l generalizing a with
  | nil => simp
  | cons y ys ih =>
    obtain ⟨hhead, htail⟩ := ih (max a y)
    refine ⟨(le_max_left _ _).trans hhead, fun x hx => ?_⟩
    cases hx with
    | head => exact (le_max_right _ _).trans hhead
    | tail _ hx => exact htail x hx

private theorem foldl_max_mem (l : List Nat) (a : Nat) :
    l.foldl max a = a ∨ l.foldl max a ∈ l := by
  induction l generalizing a with
  | nil => exact .inl rfl
  | cons y ys ih =>
    rcases ih (max a y) with h | h
    · rcases max_choice a y with hmax | hmax
      · exact .inl (h.trans hmax)
      · exact .inr (List.mem_cons.mpr (.inl (h.trans hmax)))
    · exact .inr (List.mem_cons_of_mem _ h)

theorem least_isLeast {f : Int → Int} (hne : members ≠ [])
    (hf : ∀ cpu ∈ members, f cpu < maxcstate) :
    IsLeast {s | ∃ cpu ∈ members, f cpu = s} (least f members) := by
  obtain ⟨-, hle⟩ := foldl_min_le (members.map f) maxcstate
  constructor
  · rcases foldl_min_mem (members.map f) maxcstate with htop | hmem
    · obtain ⟨cpu, hcpu⟩ := List.exists_mem_of_ne_nil _ hne
      have hlt := (hle (f cpu) (List.mem_map_of_mem hcpu)).trans_lt (hf cpu hcpu)
      exact absurd htop hlt.ne
    · exact List.mem_map.mp hmem
  · intro s hs
    obtain ⟨cpu, hcpu, rfl⟩ := hs
    exact hle _ (List.mem_map_of_mem hcpu)

theorem le_greatest (f : Int → Nat) {cpu : Int} (hcpu : cpu ∈ members) :
    f cpu ≤ greatest f members :=
  (le_foldl_max (members.map f) 0).2 _ (List.mem_map_of_mem hcpu)

theorem greatest_mem (f : Int → Nat) :
    greatest f members = 0 ∨ ∃ cpu ∈ members, f cpu = greatest f members := by
  rcases foldl_max_mem (members.map f) 0 with hzero | hmem
  · exact .inl hzero
  · exact .inr (List.mem_map.mp hmem)

theorem greatest_mono {f g : Int → Nat} (h : ∀ cpu ∈ members, f cpu ≤ g cpu) :
    greatest f members ≤ greatest g members := by
  have hmem : greatest f members = 0 ∨ ∃ cpu ∈ members, f cpu = greatest f members :=
    greatest_mem f
  rcases hmem with hzero | ⟨cpu, hcpu, heq⟩
  · rw [hzero]
    exact Nat.zero_le _
  · rw [← heq]
    exact (h cpu hcpu).trans (le_greatest g hcpu)

end Composite

/-! ## What the loops over a group compute -/

def currentCstates (datas : CpuidleDatas) (cpu : Int) : Int :=
  (datas.cstates (.percpu cpu)).currentCstate

def coreFreq (ps : CpufreqPstates) : Nat :=
  if ps.current < 0 then 0 else pstateFreq ps

def clusterFreq (ps : CpufreqPstates) : Nat :=
  if ps.current < 0 then 0 else if ps.idle > 0 then 0 else pstateFreq ps

section Loops

variable {nrcpus : Int} {datas : CpuidleDatas} {cpus : List CpuCpu}

theorem leastCstate_eq (h : ∀ cpu ∈ cpus, cpu.cstates = some (.percpu cpu.cpuId)) :
    leastCstate datas cpus = .ok (least (currentCstates datas) (cpus.map CpuCpu.cpuId)) := by
  unfold leastCstate least
  generalize (maxcstate : Int) = start
  induction cpus generalizing start with
  | nil => rfl
  | cons cpu rest ih =>
    have hcpu : cpu.cstates = some (.percpu cpu.cpuId) := h cpu (by simp)
    have hmin : (if currentCstates datas cpu.cpuId < start then currentCstates datas cpu.cpuId
        else start) = min start (currentCstates datas cpu.cpuId) := by
      rw [min_comm, min_def_lt]
    simp only [List.foldlM_cons, hcpu, deref, bind, Except.bind, List.map_cons, List.foldl_cons]
    rw [← hmin]
    exact ih (fun c hc => h c (by simp [hc])) _

/-- One loop for both `*_get_highest_freq` functions: `g` says what a CPU adds. -/
private theorem highest_eq {body : Nat → CpuCpu → Except Fault Nat} {g : Int → Nat}
    (h : ∀ cpu ∈ cpus, ∀ ret, body ret cpu = .ok (max ret (g cpu.cpuId))) (start : Nat) :
    cpus.foldlM body start = .ok (((cpus.map CpuCpu.cpuId).map g).foldl max start) := by
  induction cpus generalizing start with
  | nil => rfl
  | cons cpu rest ih =>
    simp only [List.foldlM_cons, h cpu (by simp), bind, Except.bind, List.map_cons,
      List.foldl_cons]
    exact ih (fun c hc => h c (by simp [hc])) _

private theorem max_of_gt (ret freq : Nat) : (if freq > ret then freq else ret) = max ret freq := by
  rw [max_def_lt]

theorem coreGetHighestFreq_eq {core : CpuCore}
    (h : ∀ cpu ∈ core.cpuHead, cpu.pstates = some (.percpu cpu.cpuId)) :
    coreGetHighestFreq datas core =
      .ok (greatest (fun cpu => coreFreq (datas.pstates (.percpu cpu))) (coreIds core)) := by
  refine highest_eq (fun cpu hcpu ret => ?_) 0
  simp only [h cpu hcpu, deref, bind, Except.bind, coreFreq]
  split
  · simp
  · rw [max_of_gt]

theorem clusterGetHighestFreq_eq {clust : CpuPhysical}
    (h : ∀ cpu ∈ clust.enumCpus, cpu.pstates = some (.percpu cpu.cpuId)) :
    clusterGetHighestFreq datas clust =
      .ok (greatest (fun cpu => clusterFreq (datas.pstates (.percpu cpu)))
        (clust.enumCpus.map CpuCpu.cpuId)) := by
  refine highest_eq (fun cpu hcpu ret => ?_) 0
  simp only [h cpu hcpu, deref, bind, Except.bind, clusterFreq]
  split
  · simp
  · split
    · simp
    · rw [max_of_gt]

variable {topo : CpuTopology} {cpu : Int} {phy : CpuPhysical} {core : CpuCore}

theorem Mapped.enumIds_perm (hm : Mapped nrcpus topo) (hphy : phy ∈ topo.physicalHead) :
    (phy.enumCpus.map CpuCpu.cpuId).Perm (clusterIds phy) := by
  refine ((hm.shape.enumCpus_perm hphy).map _).trans (.of_eq ?_)
  simp only [clusterIds, List.map_flatMap]
  rfl

theorem Mapped.enum_mapped (hm : Mapped nrcpus topo) (hphy : phy ∈ topo.physicalHead)
    {cpu : CpuCpu} (hcpu : cpu ∈ phy.enumCpus) :
    cpu.cstates = some (.percpu cpu.cpuId) ∧ cpu.pstates = some (.percpu cpu.cpuId) := by
  obtain ⟨core, hcore, hmem⟩ := (hm.shape.mem_enumCpus hphy).mp hcpu
  exact hm.cpu phy hphy core hcore cpu hmem

theorem Located.coreGetLeastCstate (h : Located topo cpu phy core) (hm : Mapped nrcpus topo) :
    coreGetLeastCstate datas core = .ok (least (currentCstates datas) (coreIds core)) :=
  leastCstate_eq fun c hc => (hm.cpu phy h.phy_mem core h.core_mem c hc).1

theorem Located.clusterGetLeastCstate (h : Located topo cpu phy core) (hm : Mapped nrcpus topo) :
    clusterGetLeastCstate datas phy = .ok (least (currentCstates datas) (clusterIds phy)) := by
  rw [← least_perm _ (hm.enumIds_perm h.phy_mem)]
  exact leastCstate_eq fun c hc => (hm.enum_mapped h.phy_mem hc).1

theorem Located.coreGetHighestFreq (h : Located topo cpu phy core) (hm : Mapped nrcpus topo) :
    coreGetHighestFreq datas core =
      .ok (greatest (fun cpu => coreFreq (datas.pstates (.percpu cpu))) (coreIds core)) :=
  coreGetHighestFreq_eq fun c hc => (hm.cpu phy h.phy_mem core h.core_mem c hc).2

theorem Located.clusterGetHighestFreq (h : Located topo cpu phy core)
    (hm : Mapped nrcpus topo) :
    clusterGetHighestFreq datas phy =
      .ok (greatest (fun cpu => clusterFreq (datas.pstates (.percpu cpu))) (clusterIds phy)) := by
  rw [← greatest_perm _ (hm.enumIds_perm h.phy_mem)]
  exact clusterGetHighestFreq_eq fun c hc => (hm.enum_mapped h.phy_mem hc).2

end Loops

end Idlestat.Theory.Nodes
