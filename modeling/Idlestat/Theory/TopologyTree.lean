import Idlestat.Model.Topology

/-! The invariant of a topology tree under construction, and what one
`add_topo_info` call does to the set of CPUs the tree holds. -/
namespace Idlestat.Theory.TopologyTree

open Idlestat.Library.SortedKeys Idlestat.Model.Topology

/-! ## What a tree holds -/

def CoreHas (core : CpuCore) (cpuId : Int) : Prop :=
  ∃ cpu ∈ core.cpuHead, cpu.cpuId = cpuId

def PhyHas (phy : CpuPhysical) (coreId cpuId : Int) : Prop :=
  ∃ core ∈ phy.coreHead, core.coreId = coreId ∧ CoreHas core cpuId

def TopoHas (topo : CpuTopology) (info : TopologyInfo) : Prop :=
  ∃ phy ∈ topo.physicalHead, phy.physicalId = info.physicalId ∧
    PhyHas phy info.coreId info.cpuId

def links (phy : CpuPhysical) : List CpuRef :=
  phy.coreHead.flatMap fun core =>
    core.cpuHead.map fun cpu => { coreId := core.coreId, cpuId := cpu.cpuId }

/-- Every (cluster, core, CPU) path of the tree, in tree order. -/
def triples (topo : CpuTopology) : List TopologyInfo :=
  topo.physicalHead.flatMap fun phy =>
    (links phy).map fun link =>
      { physicalId := phy.physicalId, coreId := link.coreId, cpuId := link.cpuId }

theorem mem_links {phy : CpuPhysical} {link : CpuRef} :
    link ∈ links phy ↔ PhyHas phy link.coreId link.cpuId := by
  simp only [links, PhyHas, CoreHas, List.mem_flatMap, List.mem_map]
  constructor
  · rintro ⟨core, hcore, cpu, hcpu, rfl⟩
    exact ⟨core, hcore, rfl, cpu, hcpu, rfl⟩
  · rintro ⟨core, hcore, hid, cpu, hcpu, hcid⟩
    exact ⟨core, hcore, cpu, hcpu, by cases link; simp_all⟩

theorem mem_triples {topo : CpuTopology} {info : TopologyInfo} :
    info ∈ triples topo ↔ TopoHas topo info := by
  simp only [triples, TopoHas, List.mem_flatMap, List.mem_map]
  constructor
  · rintro ⟨phy, hphy, link, hlink, rfl⟩
    exact ⟨phy, hphy, rfl, mem_links.mp hlink⟩
  · rintro ⟨phy, hphy, hid, hhas⟩
    exact ⟨phy, hphy, ⟨info.coreId, info.cpuId⟩, mem_links.mpr hhas, by cases info; simp_all⟩

/-! ## The invariant, level by level -/

structure CoreWf (physicalId : Int) (core : CpuCore) : Prop where
  cpus : Increasing CpuCpu.cpuId core.cpuHead
  cpuNum : core.cpuNum = core.cpuHead.length
  isHt : core.isHt = decide (1 < core.cpuHead.length)
  fresh : ∀ cpu ∈ core.cpuHead, cpu = { cpuId := cpu.cpuId }
  cstates : core.cstates = none
  pstates : core.pstates = some (.core physicalId core.coreId)

structure PhyWf (phy : CpuPhysical) : Prop where
  cores : Increasing CpuCore.coreId phy.coreHead
  core : ∀ core ∈ phy.coreHead, CoreWf phy.physicalId core
  inhabited : ∀ core ∈ phy.coreHead, core.cpuHead ≠ []
  coreNum : phy.coreNum = phy.coreHead.length
  enumNodup : phy.cpuEnumHead.Nodup
  enum : ∀ link, link ∈ phy.cpuEnumHead ↔ PhyHas phy link.coreId link.cpuId
  cstates : phy.cstates = none
  pstates : phy.pstates = some (.cluster phy.physicalId)

structure OnlineWf (topo : CpuTopology) : Prop where
  size : topo.onlineArraySize = topo.onlineCpus.length
  flags : ∀ i : Nat, topo.onlineCpus.getD i false = true ↔
    ∃ info, TopoHas topo info ∧ info.cpuId = i
  last : ∀ h : topo.onlineCpus ≠ [], topo.onlineCpus.getLast h = true

structure TopoWf (topo : CpuTopology) : Prop where
  clusters : Increasing CpuPhysical.physicalId topo.physicalHead
  phy : ∀ phy ∈ topo.physicalHead, PhyWf phy
  inhabited : ∀ phy ∈ topo.physicalHead, phy.coreHead ≠ []
  ids : ∀ info, TopoHas topo info → 0 ≤ info.cpuId
  online : OnlineWf topo

section Core

variable {physicalId : Int} {core : CpuCore} {cpuId : Int}

theorem hasCpu_core_iff : core.hasCpu cpuId = true ↔ CoreHas core cpuId := by
  cases hl : lookup CpuCpu.cpuId cpuId core.cpuHead with
  | some cpu => simpa [CpuCore.hasCpu, checkExistFromHead, hl] using
      (show CoreHas core cpuId from ⟨cpu, (lookup_some hl).1, (lookup_some hl).2⟩)
  | none => simpa [CpuCore.hasCpu, checkExistFromHead, hl, CoreHas] using lookup_none.mp hl

@[simp] theorem coreId_addCpu : (core.addCpu cpuId).coreId = core.coreId := by
  unfold CpuCore.addCpu
  split <;> rfl

theorem addCpu_of_has (h : CoreHas core cpuId) : core.addCpu cpuId = core := by
  have hsome := hasCpu_core_iff.mpr h
  unfold CpuCore.hasCpu at hsome
  obtain ⟨cpu, hcpu⟩ := Option.isSome_iff_exists.mp hsome
  simp [CpuCore.addCpu, hcpu]

theorem addCpu_of_not_has (h : ¬ CoreHas core cpuId) :
    core.addCpu cpuId =
      { core with
        cpuHead := core.cpuHead.insertIdx (position CpuCpu.cpuId cpuId core.cpuHead)
          { cpuId := cpuId }
        cpuNum := core.cpuNum + 1
        isHt := if core.cpuNum + 1 > 1 then true else core.isHt } := by
  have hnone : checkExistFromHead CpuCpu.cpuId core.cpuHead cpuId = none :=
    lookup_none.mpr fun cpu hcpu heq => h ⟨cpu, hcpu, heq⟩
  simp [CpuCore.addCpu, hnone, checkPosFromHead]

theorem coreHas_addCpu (x : Int) :
    CoreHas (core.addCpu cpuId) x ↔ x = cpuId ∨ CoreHas core x := by
  by_cases h : CoreHas core cpuId
  · rw [addCpu_of_has h]
    constructor
    · exact .inr
    · rintro (rfl | hx)
      · exact h
      · exact hx
  · rw [addCpu_of_not_has h]
    simp only [CoreHas, mem_insert]
    constructor
    · rintro ⟨cpu, rfl | hcpu, rfl⟩
      · exact .inl rfl
      · exact .inr ⟨cpu, hcpu, rfl⟩
    · rintro (rfl | ⟨cpu, hcpu, hid⟩)
      · exact ⟨{ cpuId := x }, .inl rfl, rfl⟩
      · exact ⟨cpu, .inr hcpu, hid⟩

theorem newCore_wf (coreId : Int) : CoreWf physicalId (newCore physicalId coreId) where
  cpus := List.Pairwise.nil
  cpuNum := rfl
  isHt := rfl
  fresh := by simp [newCore]
  cstates := rfl
  pstates := rfl

theorem CoreWf.addCpu (h : CoreWf physicalId core) (cpuId : Int) :
    CoreWf physicalId (core.addCpu cpuId) := by
  by_cases hhas : CoreHas core cpuId
  · rw [addCpu_of_has hhas]
    exact h
  · rw [addCpu_of_not_has hhas]
    have hlen : (core.cpuHead.insertIdx (position CpuCpu.cpuId cpuId core.cpuHead)
        { cpuId := cpuId }).length = core.cpuHead.length + 1 :=
      List.length_insertIdx_of_le_length (position_le _ _) _
    exact {
      cpus := h.cpus.insert (x := { cpuId := cpuId }) fun cpu hcpu heq =>
        hhas ⟨cpu, hcpu, heq⟩
      cpuNum := by rw [hlen, h.cpuNum]
      isHt := by
        rw [hlen, h.cpuNum, h.isHt]
        by_cases hpos : 0 < core.cpuHead.length
        · simp [hpos]
        · simp [Nat.eq_zero_of_not_pos hpos]
      fresh := by
        intro cpu hcpu
        rcases mem_insert.mp hcpu with rfl | hcpu
        · rfl
        · exact h.fresh cpu hcpu
      cstates := h.cstates
      pstates := h.pstates }

theorem addCpu_inhabited : (core.addCpu cpuId).cpuHead ≠ [] := by
  have hhas : CoreHas (core.addCpu cpuId) cpuId := (coreHas_addCpu cpuId).mpr (.inl rfl)
  obtain ⟨cpu, hcpu, -⟩ := hhas
  exact List.ne_nil_of_mem hcpu

end Core

section Cluster

variable {phy : CpuPhysical} {coreId cpuId : Int}

theorem hasCpu_phy_iff (h : PhyWf phy) :
    phy.hasCpu coreId cpuId = true ↔ PhyHas phy coreId cpuId := by
  unfold CpuPhysical.hasCpu checkExistFromHead PhyHas
  cases hl : lookup CpuCore.coreId coreId phy.coreHead with
  | none =>
    have habsent := lookup_none.mp hl
    simp only [Bool.false_eq_true, false_iff]
    rintro ⟨core, hcore, hid, -⟩
    exact habsent core hcore hid
  | some core =>
    obtain ⟨hcore, hid⟩ := lookup_some hl
    simp only [hasCpu_core_iff]
    constructor
    · intro hhas
      exact ⟨core, hcore, hid, hhas⟩
    · rintro ⟨core', hcore', hid', hhas⟩
      rwa [h.cores.eq_of_key hcore hcore' (hid.trans hid'.symm)]

private def coreFor (phy : CpuPhysical) (coreId : Int) : CpuCore :=
  (lookup CpuCore.coreId coreId phy.coreHead).getD (newCore phy.physicalId coreId)

private theorem coreFor_id : (coreFor phy coreId).coreId = coreId := by
  unfold coreFor
  cases hl : lookup CpuCore.coreId coreId phy.coreHead with
  | none => rfl
  | some core => exact (lookup_some hl).2

private theorem coreFor_wf (h : PhyWf phy) : CoreWf phy.physicalId (coreFor phy coreId) := by
  unfold coreFor
  cases hl : lookup CpuCore.coreId coreId phy.coreHead with
  | none => exact newCore_wf coreId
  | some core => exact h.core core (lookup_some hl).1

private theorem coreFor_has (h : PhyWf phy) (x : Int) :
    CoreHas (coreFor phy coreId) x ↔ PhyHas phy coreId x := by
  unfold coreFor
  cases hl : lookup CpuCore.coreId coreId phy.coreHead with
  | none =>
    have habsent := lookup_none.mp hl
    constructor
    · rintro ⟨cpu, hcpu, -⟩
      exact absurd hcpu (by simp [newCore])
    · rintro ⟨core, hcore, hid, -⟩
      exact absurd hid (habsent core hcore)
  | some core =>
    obtain ⟨hcore, hid⟩ := lookup_some hl
    constructor
    · intro hhas
      exact ⟨core, hcore, hid, hhas⟩
    · rintro ⟨core', hcore', hid', hhas⟩
      rwa [Option.getD_some, h.cores.eq_of_key hcore hcore' (hid.trans hid'.symm)]

private theorem mem_addCore_coreHead (h : PhyWf phy) {core : CpuCore} :
    core ∈ (phy.addCore coreId cpuId).coreHead ↔
      core = (coreFor phy coreId).addCpu cpuId ∨ core ∈ phy.coreHead ∧ core.coreId ≠ coreId :=
  mem_upsert h.cores

theorem phyHas_addCore (h : PhyWf phy) (k x : Int) :
    PhyHas (phy.addCore coreId cpuId) k x ↔ k = coreId ∧ x = cpuId ∨ PhyHas phy k x := by
  constructor
  · rintro ⟨core, hcore, hid, hhas⟩
    rcases (mem_addCore_coreHead h).mp hcore with rfl | ⟨hmem, -⟩
    · rw [coreId_addCpu, coreFor_id] at hid
      rcases (coreHas_addCpu x).mp hhas with hx | hx
      · exact .inl ⟨hid.symm, hx⟩
      · exact .inr (hid ▸ (coreFor_has h x).mp hx)
    · exact .inr ⟨core, hmem, hid, hhas⟩
  · rintro (⟨rfl, rfl⟩ | ⟨core, hcore, hid, hhas⟩)
    · exact ⟨_, (mem_addCore_coreHead h).mpr (.inl rfl), by simp [coreFor_id],
        (coreHas_addCpu x).mpr (.inl rfl)⟩
    · by_cases hk : core.coreId = coreId
      · refine ⟨_, (mem_addCore_coreHead h).mpr (.inl rfl), ?_, ?_⟩
        · rw [coreId_addCpu, coreFor_id, ← hid, hk]
        · exact (coreHas_addCpu x).mpr (.inr ((coreFor_has h x).mpr ⟨core, hcore, hk, hhas⟩))
      · exact ⟨core, (mem_addCore_coreHead h).mpr (.inr ⟨hcore, hk⟩), hid, hhas⟩

theorem newPhysical_wf (physicalId : Int) : PhyWf (newPhysical physicalId) where
  cores := List.Pairwise.nil
  core := by simp [newPhysical]
  inhabited := by simp [newPhysical]
  coreNum := rfl
  enumNodup := List.nodup_nil
  enum := by simp [newPhysical, PhyHas]
  cstates := rfl
  pstates := rfl

theorem PhyWf.addCore (h : PhyWf phy) (coreId cpuId : Int) :
    PhyWf (phy.addCore coreId cpuId) where
  cores := h.cores.upsert rfl fun _ => coreId_addCpu
  core := by
    intro core hcore
    rcases (mem_addCore_coreHead h).mp hcore with rfl | ⟨hmem, -⟩
    · exact (coreFor_wf h).addCpu cpuId
    · exact h.core core hmem
  inhabited := by
    intro core hcore
    rcases (mem_addCore_coreHead h).mp hcore with rfl | ⟨hmem, -⟩
    · exact addCpu_inhabited
    · exact h.inhabited core hmem
  coreNum := by
    simp only [CpuPhysical.addCore, checkExistFromHead, length_upsert, h.coreNum]
  enumNodup := by
    simp only [CpuPhysical.addCore]
    split
    · exact h.enumNodup
    · next hnew =>
      rw [hasCpu_phy_iff h] at hnew
      exact h.enumNodup.append (List.nodup_singleton _)
        (List.disjoint_singleton.mpr fun hmem => hnew ((h.enum _).mp hmem))
  enum := by
    intro link
    rw [phyHas_addCore h]
    have hmem : link ∈ (phy.addCore coreId cpuId).cpuEnumHead ↔
        link ∈ phy.cpuEnumHead ∨ ¬ PhyHas phy coreId cpuId ∧ link = ⟨coreId, cpuId⟩ := by
      simp only [CpuPhysical.addCore]
      split
      · next hold => simp [(hasCpu_phy_iff h).mp hold]
      · next hnew => simp [(hasCpu_phy_iff h).not.mp hnew]
    rw [hmem, h.enum]
    constructor
    · rintro (hold | ⟨-, rfl⟩)
      · exact .inr hold
      · exact .inl ⟨rfl, rfl⟩
    · rintro (⟨hk, hx⟩ | hold)
      · by_cases hhas : PhyHas phy coreId cpuId
        · exact .inl (by rwa [hk, hx])
        · exact .inr ⟨hhas, by cases link; simp_all⟩
      · exact .inl hold
  cstates := h.cstates
  pstates := h.pstates

theorem addCore_inhabited (h : PhyWf phy) : (phy.addCore coreId cpuId).coreHead ≠ [] := by
  obtain ⟨core, hcore, -⟩ := (phyHas_addCore h coreId cpuId).mpr (.inl ⟨rfl, rfl⟩)
  exact List.ne_nil_of_mem hcore

end Cluster

section Tree

variable {topo : CpuTopology} {info : TopologyInfo}

theorem hasCpu_topo_iff (h : TopoWf topo) : topo.hasCpu info = true ↔ TopoHas topo info := by
  unfold CpuTopology.hasCpu checkExistFromHead TopoHas
  cases hl : lookup CpuPhysical.physicalId info.physicalId topo.physicalHead with
  | none =>
    have habsent := lookup_none.mp hl
    simp only [Bool.false_eq_true, false_iff]
    rintro ⟨phy, hphy, hid, -⟩
    exact habsent phy hphy hid
  | some phy =>
    obtain ⟨hphy, hid⟩ := lookup_some hl
    simp only [hasCpu_phy_iff (h.phy phy hphy)]
    constructor
    · intro hhas
      exact ⟨phy, hphy, hid, hhas⟩
    · rintro ⟨phy', hphy', hid', hhas⟩
      rwa [h.clusters.eq_of_key hphy hphy' (hid.trans hid'.symm)]

private def phyFor (topo : CpuTopology) (physicalId : Int) : CpuPhysical :=
  (lookup CpuPhysical.physicalId physicalId topo.physicalHead).getD (newPhysical physicalId)

private theorem phyFor_id {physicalId : Int} :
    (phyFor topo physicalId).physicalId = physicalId := by
  unfold phyFor
  cases hl : lookup CpuPhysical.physicalId physicalId topo.physicalHead with
  | none => rfl
  | some phy => exact (lookup_some hl).2

private theorem phyFor_wf (h : TopoWf topo) {physicalId : Int} :
    PhyWf (phyFor topo physicalId) := by
  unfold phyFor
  cases hl : lookup CpuPhysical.physicalId physicalId topo.physicalHead with
  | none => exact newPhysical_wf physicalId
  | some phy => exact h.phy phy (lookup_some hl).1

private theorem phyFor_has (h : TopoWf topo) (x : TopologyInfo) :
    PhyHas (phyFor topo x.physicalId) x.coreId x.cpuId ↔ TopoHas topo x := by
  unfold phyFor
  cases hl : lookup CpuPhysical.physicalId x.physicalId topo.physicalHead with
  | none =>
    have habsent := lookup_none.mp hl
    constructor
    · rintro ⟨core, hcore, -⟩
      exact absurd hcore (by simp [newPhysical])
    · rintro ⟨phy, hphy, hid, -⟩
      exact absurd hid (habsent phy hphy)
  | some phy =>
    obtain ⟨hphy, hid⟩ := lookup_some hl
    constructor
    · intro hhas
      exact ⟨phy, hphy, hid, hhas⟩
    · rintro ⟨phy', hphy', hid', hhas⟩
      rwa [Option.getD_some, h.clusters.eq_of_key hphy hphy' (hid.trans hid'.symm)]

/-- The tree with the new nodes linked, before the online array is updated. -/
private def linked (topo : CpuTopology) (info : TopologyInfo) : CpuTopology :=
  { topo with
    physicalHead := upsert CpuPhysical.physicalId info.physicalId (newPhysical info.physicalId)
      (·.addCore info.coreId info.cpuId) topo.physicalHead }

private theorem mem_linked (h : TopoWf topo) {phy : CpuPhysical} :
    phy ∈ (linked topo info).physicalHead ↔
      phy = (phyFor topo info.physicalId).addCore info.coreId info.cpuId ∨
        phy ∈ topo.physicalHead ∧ phy.physicalId ≠ info.physicalId :=
  mem_upsert h.clusters

private theorem topoHas_linked (h : TopoWf topo) (x : TopologyInfo) :
    TopoHas (linked topo info) x ↔ x = info ∨ TopoHas topo x := by
  constructor
  · rintro ⟨phy, hphy, hid, hhas⟩
    rcases (mem_linked h).mp hphy with rfl | ⟨hmem, -⟩
    · have hx : info.physicalId = x.physicalId := phyFor_id.symm.trans hid
      rcases (phyHas_addCore (phyFor_wf h) _ _).mp hhas with ⟨hk, hc⟩ | hold
      · exact .inl (by cases x; cases info; simp_all)
      · exact .inr ((phyFor_has h x).mp (hx ▸ hold))
    · exact .inr ⟨phy, hmem, hid, hhas⟩
  · rintro (rfl | ⟨phy, hphy, hid, hhas⟩)
    · exact ⟨_, (mem_linked h).mpr (.inl rfl), phyFor_id,
        (phyHas_addCore (phyFor_wf h) _ _).mpr (.inl ⟨rfl, rfl⟩)⟩
    · by_cases hp : phy.physicalId = info.physicalId
      · refine ⟨_, (mem_linked h).mpr (.inl rfl), phyFor_id.trans (hp.symm.trans hid), ?_⟩
        refine (phyHas_addCore (phyFor_wf h) _ _).mpr (.inr ?_)
        rw [← hp, hid]
        exact (phyFor_has h x).mpr ⟨phy, hphy, hid, hhas⟩
      · exact ⟨phy, (mem_linked h).mpr (.inr ⟨hphy, hp⟩), hid, hhas⟩

private theorem getD_grow (l : List Bool) (n i : Nat) :
    (l ++ List.replicate n false).getD i false = l.getD i false := by
  simp only [List.getD_eq_getElem?_getD]
  by_cases hi : i < l.length
  · rw [List.getElem?_append_left hi]
  · rw [List.getElem?_append_right (by omega), List.getElem?_eq_none (by omega : l.length ≤ i),
      List.getElem?_replicate]
    split <;> rfl

private theorem getD_set_true (l : List Bool) {n : Nat} (hn : n < l.length) (i : Nat) :
    (l.set n true).getD i false = true ↔ i = n ∨ l.getD i false = true := by
  simp only [List.getD_eq_getElem?_getD, List.getElem?_set]
  by_cases hi : n = i
  · subst hi
    simp [hn]
  · simp [hi, Ne.symm hi]

private theorem getLast_set_true (l : List Bool) {n : Nat} (hn : n < l.length)
    (hlast : n + 1 = l.length ∨ ∀ h : l ≠ [], l.getLast h = true)
    (hne : l.set n true ≠ []) : (l.set n true).getLast hne = true := by
  rw [List.getLast_eq_getElem]
  simp only [List.length_set, List.getElem_set]
  by_cases hi : n = l.length - 1
  · simp [hi]
  · rw [if_neg hi]
    rcases hlast with hlast | hlast
    · omega
    · have hl : l ≠ [] := List.length_pos_iff.mp (by omega)
      rw [← List.getLast_eq_getElem hl]
      exact hlast hl

private theorem setOnline_flags {size : Int} {flags : List Bool} (hsize : size = flags.length)
    (hlast : ∀ h : flags ≠ [], flags.getLast h = true) {cpuId : Int} (hid : 0 ≤ cpuId)
    (phys : List CpuPhysical) :
    let topo := CpuTopology.setOnline ⟨phys, flags, size⟩ cpuId
    topo.physicalHead = phys ∧ topo.onlineArraySize = topo.onlineCpus.length ∧
      (∀ i : Nat, topo.onlineCpus.getD i false = true ↔
        (i : Int) = cpuId ∨ flags.getD i false = true) ∧
      ∀ h : topo.onlineCpus ≠ [], topo.onlineCpus.getLast h = true := by
  unfold CpuTopology.setOnline
  by_cases hgrow : size ≤ cpuId
  · have hlen : (flags ++ List.replicate (cpuId + 1 - size).toNat false).length =
        cpuId.toNat + 1 := by simp; omega
    have hn : cpuId.toNat < (flags ++ List.replicate (cpuId + 1 - size).toNat false).length := by
      omega
    simp only [hgrow, if_true]
    refine ⟨trivial, by rw [List.length_set, hlen]; omega, fun i => ?_,
      getLast_set_true _ hn (.inl hlen.symm)⟩
    rw [getD_set_true _ hn, getD_grow]
    exact or_congr_left (by omega)
  · have hn : cpuId.toNat < flags.length := by omega
    simp only [hgrow, if_false]
    refine ⟨trivial, by rw [List.length_set, hsize], fun i => ?_,
      getLast_set_true _ hn (.inr hlast)⟩
    rw [getD_set_true _ hn]
    exact or_congr_left (by omega)

private theorem linked_wf (h : TopoWf topo) (hcpu : 0 ≤ info.cpuId) {topo' : CpuTopology}
    (hphys : topo'.physicalHead = (linked topo info).physicalHead) (honline : OnlineWf topo') :
    TopoWf topo' where
  clusters := by
    rw [hphys]
    exact h.clusters.upsert rfl fun _ => rfl
  phy := by
    rw [hphys]
    intro phy hmem
    rcases (mem_linked h).mp hmem with rfl | ⟨hmem, -⟩
    · exact (phyFor_wf h).addCore _ _
    · exact h.phy phy hmem
  inhabited := by
    rw [hphys]
    intro phy hmem
    rcases (mem_linked h).mp hmem with rfl | ⟨hmem, -⟩
    · exact addCore_inhabited (phyFor_wf h)
    · exact h.inhabited phy hmem
  ids := by
    intro x hx
    have hlinked : TopoHas (linked topo info) x := by
      rwa [TopoHas, hphys] at hx
    rcases (topoHas_linked h x).mp hlinked with rfl | hx
    · exact hcpu
    · exact h.ids x hx
  online := honline

private theorem linked_online (h : TopoWf topo) (hold : TopoHas topo info) :
    OnlineWf (linked topo info) where
  size := h.online.size
  flags := by
    have hsame : ∀ x, TopoHas (linked topo info) x ↔ TopoHas topo x := by
      intro x
      rw [topoHas_linked h x, or_iff_right_of_imp fun heq => heq ▸ hold]
    intro i
    simp only [hsame]
    exact h.online.flags i
  last := h.online.last

private theorem setOnline_wf (h : TopoWf topo) (hcpu : 0 ≤ info.cpuId) :
    TopoWf ((linked topo info).setOnline info.cpuId) ∧
      ∀ x, TopoHas ((linked topo info).setOnline info.cpuId) x ↔ x = info ∨ TopoHas topo x := by
  obtain ⟨hphys, hsize, hflags, hlast⟩ := setOnline_flags h.online.size h.online.last hcpu
    (linked topo info).physicalHead
  change ((linked topo info).setOnline info.cpuId).physicalHead = _ at hphys
  have hhas : ∀ x, TopoHas ((linked topo info).setOnline info.cpuId) x ↔
      x = info ∨ TopoHas topo x := by
    intro x
    rw [← topoHas_linked h x]
    simp only [TopoHas, hphys]
  refine ⟨linked_wf h hcpu hphys ⟨hsize, fun i => (hflags i).trans ?_, hlast⟩, hhas⟩
  rw [h.online.flags i]
  simp only [hhas]
  constructor
  · rintro (hi | ⟨x, hx, hxi⟩)
    · exact ⟨info, .inl rfl, hi.symm⟩
    · exact ⟨x, .inr hx, hxi⟩
  · rintro ⟨x, rfl | hx, hxi⟩
    · exact .inl hxi.symm
    · exact .inr ⟨x, hx, hxi⟩

/-- One `add_topo_info` call keeps the invariant and adds exactly its CPU. -/
theorem addTopoInfo_spec (h : TopoWf topo) (hphy : 0 ≤ info.physicalId)
    (hcore : 0 ≤ info.coreId) (hcpu : 0 ≤ info.cpuId) :
    ∃ topo', addTopoInfo topo info = .ok topo' ∧ TopoWf topo' ∧
      ∀ x, TopoHas topo' x ↔ x = info ∨ TopoHas topo x := by
  have hassert : ¬ (info.physicalId < 0 ∨ info.coreId < 0 ∨ info.cpuId < 0) := by omega
  by_cases hold : topo.hasCpu info = true
  · have honline := linked_online h ((hasCpu_topo_iff h).mp hold)
    exact ⟨linked topo info, by simp [addTopoInfo, hassert, hold, linked],
      linked_wf h hcpu rfl honline, topoHas_linked h⟩
  · exact ⟨(linked topo info).setOnline info.cpuId,
      by simp [addTopoInfo, hassert, hold, linked], setOnline_wf h hcpu⟩

theorem addTopoInfo_ok {topo' : CpuTopology} (h : TopoWf topo)
    (hadd : addTopoInfo topo info = .ok topo') :
    TopoWf topo' ∧ ∀ x, TopoHas topo' x ↔ x = info ∨ TopoHas topo x := by
  by_cases hassert : info.physicalId < 0 ∨ info.coreId < 0 ∨ info.cpuId < 0
  · simp [addTopoInfo, hassert] at hadd
  · have hids : 0 ≤ info.physicalId ∧ 0 ≤ info.coreId ∧ 0 ≤ info.cpuId := by omega
    obtain ⟨topo'', hadd', hspec⟩ := addTopoInfo_spec h hids.1 hids.2.1 hids.2.2
    obtain rfl : topo'' = topo' := Except.ok.inj (hadd'.symm.trans hadd)
    exact hspec

theorem allocCpuTopoInfo_wf : TopoWf allocCpuTopoInfo where
  clusters := List.Pairwise.nil
  phy := by simp [allocCpuTopoInfo]
  inhabited := by simp [allocCpuTopoInfo]
  ids := by simp [allocCpuTopoInfo, TopoHas]
  online := ⟨rfl, by simp [allocCpuTopoInfo, TopoHas], by simp [allocCpuTopoInfo]⟩

end Tree

end Idlestat.Theory.TopologyTree
