import Mathlib.Data.List.GetD
import Idlestat.Library.Runs
import Idlestat.Theory.TopologyLookup

/-! The topology tree is determined by the set of CPUs added to it: lookups
agree with each other, and the order and repetition of the additions leave no
trace except in the order of `cpu_enum_head`. -/
namespace Idlestat.Theory.TopologyCanonical

open Idlestat.Library Idlestat.Library.SortedKeys Idlestat.Model.Topology
  Idlestat.Theory.TopologyTree Idlestat.Theory.TopologyLookup

def addTopoInfos (infos : List TopologyInfo) : Except Fault CpuTopology :=
  Runs.run addTopoInfo allocCpuTopoInfo infos

def NonNegative (info : TopologyInfo) : Prop :=
  0 ≤ info.physicalId ∧ 0 ≤ info.coreId ∧ 0 ≤ info.cpuId

theorem addTopoInfos_spec {infos : List TopologyInfo} (h : ∀ info ∈ infos, NonNegative info) :
    ∃ topo, addTopoInfos infos = .ok topo ∧ TopoWf topo ∧
      ∀ x, TopoHas topo x ↔ x ∈ infos := by
  refine Runs.run_invariant (fun past topo => TopoWf topo ∧ ∀ x, TopoHas topo x ↔ x ∈ past)
    ⟨allocCpuTopoInfo_wf, by simp [TopoHas, allocCpuTopoInfo]⟩ ?_
  rintro past info rest topo hsplit ⟨hwf, hhas⟩
  obtain ⟨hphy, hcore, hcpu⟩ := h info (by simp [hsplit])
  obtain ⟨topo', hadd, hwf', hhas'⟩ := addTopoInfo_spec hwf hphy hcore hcpu
  refine ⟨topo', hadd, hwf', fun x => ?_⟩
  rw [hhas' x, hhas x, List.mem_append, List.mem_singleton, or_comm]

/-! ## Uniqueness -/

def forgetEnum (phy : CpuPhysical) : CpuPhysical :=
  { phy with cpuEnumHead := [] }

/-- Equal trees, up to the order of each `cpu_enum_head`. -/
structure SameTree (left right : CpuTopology) : Prop where
  tree : left.physicalHead.map forgetEnum = right.physicalHead.map forgetEnum
  enum : ∀ phy ∈ left.physicalHead, ∀ phy' ∈ right.physicalHead,
    phy.physicalId = phy'.physicalId → phy.cpuEnumHead.Perm phy'.cpuEnumHead
  onlineCpus : left.onlineCpus = right.onlineCpus
  onlineArraySize : left.onlineArraySize = right.onlineArraySize

theorem core_eq_of_has {physicalId : Int} {core core' : CpuCore} (h : CoreWf physicalId core)
    (h' : CoreWf physicalId core') (hid : core.coreId = core'.coreId)
    (hhas : ∀ x, CoreHas core x ↔ CoreHas core' x) : core = core' := by
  have hcpus : core.cpuHead = core'.cpuHead := by
    refine h.cpus.eq_of_mem_iff h'.cpus fun cpu => ?_
    constructor
    · intro hcpu
      obtain ⟨cpu', hcpu', hcid⟩ := (hhas cpu.cpuId).mp ⟨cpu, hcpu, rfl⟩
      rwa [h.fresh cpu hcpu, ← hcid, ← h'.fresh cpu' hcpu']
    · intro hcpu
      obtain ⟨cpu', hcpu', hcid⟩ := (hhas cpu.cpuId).mpr ⟨cpu, hcpu, rfl⟩
      rwa [h'.fresh cpu hcpu, ← hcid, ← h.fresh cpu' hcpu']
  have hnum : core.cpuNum = core'.cpuNum := by rw [h.cpuNum, h'.cpuNum, hcpus]
  have hht : core.isHt = core'.isHt := by rw [h.isHt, h'.isHt, hcpus]
  have hcstates := h.cstates.trans h'.cstates.symm
  have hpstates : core.pstates = core'.pstates := by rw [h.pstates, h'.pstates, hid]
  cases core
  cases core'
  simp_all

theorem coreHas_iff_phyHas {phy : CpuPhysical} (h : PhyWf phy) {core : CpuCore}
    (hcore : core ∈ phy.coreHead) (x : Int) :
    CoreHas core x ↔ PhyHas phy core.coreId x := by
  constructor
  · intro hhas
    exact ⟨core, hcore, rfl, hhas⟩
  · rintro ⟨core', hcore', hid, hhas⟩
    rwa [h.cores.eq_of_key hcore hcore' hid.symm]

private theorem core_mem_of_has {phy phy' : CpuPhysical} (h : PhyWf phy) (h' : PhyWf phy')
    (hid : phy.physicalId = phy'.physicalId) (hhas : ∀ k x, PhyHas phy k x ↔ PhyHas phy' k x)
    {core : CpuCore} (hcore : core ∈ phy.coreHead) : core ∈ phy'.coreHead := by
  obtain ⟨cpu, hcpu⟩ := List.exists_mem_of_ne_nil _ (h.inhabited core hcore)
  obtain ⟨core', hcore', hcid, -⟩ := (hhas core.coreId cpu.cpuId).mp
    ⟨core, hcore, rfl, cpu, hcpu, rfl⟩
  have heq : core = core' := by
    refine core_eq_of_has (h.core core hcore) (hid ▸ h'.core core' hcore') hcid.symm fun x => ?_
    rw [coreHas_iff_phyHas h hcore, coreHas_iff_phyHas h' hcore', hcid, hhas]
  rwa [heq]

theorem phy_eq_of_has {phy phy' : CpuPhysical} (h : PhyWf phy) (h' : PhyWf phy')
    (hid : phy.physicalId = phy'.physicalId)
    (hhas : ∀ k x, PhyHas phy k x ↔ PhyHas phy' k x) :
    forgetEnum phy = forgetEnum phy' ∧ phy.cpuEnumHead.Perm phy'.cpuEnumHead := by
  have hcores : phy.coreHead = phy'.coreHead :=
    h.cores.eq_of_mem_iff h'.cores fun core =>
      ⟨core_mem_of_has h h' hid hhas, core_mem_of_has h' h hid.symm fun k x => (hhas k x).symm⟩
  have hnum : phy.coreNum = phy'.coreNum := by rw [h.coreNum, h'.coreNum, hcores]
  have hcstates := h.cstates.trans h'.cstates.symm
  have hpstates : phy.pstates = phy'.pstates := by rw [h.pstates, h'.pstates, hid]
  refine ⟨by cases phy; cases phy'; simp_all [forgetEnum], ?_⟩
  refine (List.perm_ext_iff_of_nodup h.enumNodup h'.enumNodup).mpr fun link => ?_
  rw [h.enum, h'.enum, hhas]

theorem phyHas_iff_topoHas {topo : CpuTopology} (h : TopoWf topo) {phy : CpuPhysical}
    (hphy : phy ∈ topo.physicalHead) (k x : Int) :
    PhyHas phy k x ↔ TopoHas topo ⟨phy.physicalId, k, x⟩ := by
  constructor
  · intro hhas
    exact ⟨phy, hphy, rfl, hhas⟩
  · rintro ⟨phy', hphy', hid, hhas⟩
    rwa [h.clusters.eq_of_key hphy hphy' hid.symm]

section Same

variable {topo topo' : CpuTopology}

private theorem phyHas_same (h : TopoWf topo) (h' : TopoWf topo')
    (hhas : ∀ x, TopoHas topo x ↔ TopoHas topo' x) {phy phy' : CpuPhysical}
    (hphy : phy ∈ topo.physicalHead) (hphy' : phy' ∈ topo'.physicalHead)
    (hid : phy.physicalId = phy'.physicalId) (k x : Int) :
    PhyHas phy k x ↔ PhyHas phy' k x := by
  rw [phyHas_iff_topoHas h hphy, phyHas_iff_topoHas h' hphy', hid, hhas]

private theorem forget_mem_of_has (h : TopoWf topo) (h' : TopoWf topo')
    (hhas : ∀ x, TopoHas topo x ↔ TopoHas topo' x) {phy : CpuPhysical}
    (hphy : phy ∈ topo.physicalHead) : forgetEnum phy ∈ topo'.physicalHead.map forgetEnum := by
  obtain ⟨core, hcore⟩ := List.exists_mem_of_ne_nil _ (h.inhabited phy hphy)
  obtain ⟨cpu, hcpu⟩ := List.exists_mem_of_ne_nil _ ((h.phy phy hphy).inhabited core hcore)
  obtain ⟨phy', hphy', hid, -⟩ := (hhas ⟨phy.physicalId, core.coreId, cpu.cpuId⟩).mp
    ⟨phy, hphy, rfl, core, hcore, rfl, cpu, hcpu, rfl⟩
  have heq := phy_eq_of_has (h.phy phy hphy) (h'.phy phy' hphy') hid.symm
    (phyHas_same h h' hhas hphy hphy' hid.symm)
  exact List.mem_map.mpr ⟨phy', hphy', heq.1.symm⟩

private theorem online_length_le (h : OnlineWf topo) (h' : OnlineWf topo')
    (hhas : ∀ x, TopoHas topo x ↔ TopoHas topo' x) :
    topo.onlineCpus.length ≤ topo'.onlineCpus.length := by
  by_contra hlt
  have hne : topo.onlineCpus ≠ [] := List.length_pos_iff.mp (by omega)
  have hlast := h.last hne
  rw [List.getLast_eq_getElem] at hlast
  have hflag : topo.onlineCpus.getD (topo.onlineCpus.length - 1) false = true := by
    rw [List.getD_eq_getElem _ _ (by omega)]
    exact hlast
  have hflag' : topo'.onlineCpus.getD (topo.onlineCpus.length - 1) false = true := by
    rw [h'.flags]
    simpa only [hhas] using (h.flags _).mp hflag
  rw [List.getD_eq_default _ _ (by omega)] at hflag'
  cases hflag'

theorem onlineCpus_eq_of_has (h : OnlineWf topo) (h' : OnlineWf topo')
    (hhas : ∀ x, TopoHas topo x ↔ TopoHas topo' x) : topo.onlineCpus = topo'.onlineCpus := by
  have hlen := Nat.le_antisymm (online_length_le h h' hhas)
    (online_length_le h' h fun x => (hhas x).symm)
  refine List.ext_getElem hlen fun i hi hi' => ?_
  have hflag := (h.flags i).trans ((by simp only [hhas] :
    (∃ info, TopoHas topo info ∧ info.cpuId = i) ↔
      ∃ info, TopoHas topo' info ∧ info.cpuId = i).trans (h'.flags i).symm)
  rw [List.getD_eq_getElem _ _ hi, List.getD_eq_getElem _ _ hi'] at hflag
  exact Bool.eq_iff_iff.mpr hflag

theorem sameTree_of_has (h : TopoWf topo) (h' : TopoWf topo')
    (hhas : ∀ x, TopoHas topo x ↔ TopoHas topo' x) : SameTree topo topo' where
  tree := by
    have hinc : ∀ {t : CpuTopology}, TopoWf t →
        Increasing CpuPhysical.physicalId (t.physicalHead.map forgetEnum) := fun ht =>
      List.pairwise_map.mpr ht.clusters
    refine (hinc h).eq_of_mem_iff (hinc h') fun phy => ?_
    constructor
    · intro hmem
      obtain ⟨phy, hphy, rfl⟩ := List.mem_map.mp hmem
      exact forget_mem_of_has h h' hhas hphy
    · intro hmem
      obtain ⟨phy, hphy, rfl⟩ := List.mem_map.mp hmem
      exact forget_mem_of_has h' h (fun x => (hhas x).symm) hphy
  enum := fun phy hphy phy' hphy' hid =>
    (phy_eq_of_has (h.phy phy hphy) (h'.phy phy' hphy') hid
      (phyHas_same h h' hhas hphy hphy' hid)).2
  onlineCpus := onlineCpus_eq_of_has h.online h'.online hhas
  onlineArraySize := by
    rw [h.online.size, h'.online.size, onlineCpus_eq_of_has h.online h'.online hhas]

end Same

/-! ## The tree as a function of the set of CPUs -/

/-- What a tree that holds exactly the CPUs of `infos` looks like. -/
structure Canonical (infos : List TopologyInfo) (topo : CpuTopology) : Prop where
  clusters : Increasing CpuPhysical.physicalId topo.physicalHead
  cores : ∀ phy ∈ topo.physicalHead, Increasing CpuCore.coreId phy.coreHead
  cpus : ∀ phy ∈ topo.physicalHead, ∀ core ∈ phy.coreHead,
    Increasing CpuCpu.cpuId core.cpuHead
  once : (triples topo).Nodup
  exact : ∀ info, info ∈ triples topo ↔ info ∈ infos
  coreNum : ∀ phy ∈ topo.physicalHead, phy.coreNum = phy.coreHead.length
  cpuNum : ∀ phy ∈ topo.physicalHead, ∀ core ∈ phy.coreHead,
    core.cpuNum = core.cpuHead.length
  isHt : ∀ phy ∈ topo.physicalHead, ∀ core ∈ phy.coreHead,
    core.isHt = true ↔ 1 < core.cpuHead.length
  enum : ∀ phy ∈ topo.physicalHead, phy.cpuEnumHead.Perm (links phy)
  online : ∀ i : Int, 0 ≤ i → ∃ online, cpuIsOnline topo i = .ok online ∧
    (online = true ↔ ∃ info ∈ infos, info.cpuId = i)
  lookups : ∀ info ∈ infos, ∃ phy core, cpuToCluster info.cpuId topo = some phy ∧
    cpuToCore info.cpuId topo = some core ∧ phy ∈ topo.physicalHead ∧ core ∈ phy.coreHead ∧
    CoreHas core info.cpuId

theorem triples_nodup {topo : CpuTopology} (h : TopoShape topo) : (triples topo).Nodup := by
  apply List.nodup_flatMap.mpr
  constructor
  · intro phy hphy
    apply (links_nodup (h.cores phy hphy) (h.cpus phy hphy)).map
    intro a b hab
    cases a
    cases b
    simpa using hab
  · apply (List.pairwise_map.mp h.clusters).imp
    intro phy phy' hne
    apply List.disjoint_left.mpr
    intro info hinfo hinfo'
    obtain ⟨link, -, rfl⟩ := List.mem_map.mp hinfo
    obtain ⟨link', -, heq⟩ := List.mem_map.mp hinfo'
    exact hne (congrArg TopologyInfo.physicalId heq).symm

/-- `cpu_is_online` tells which CPU numbers the tree holds, past the array too. -/
theorem cpuIsOnline_spec {topo : CpuTopology} (h : OnlineWf topo) {i : Int} (hi : 0 ≤ i) :
    ∃ online, cpuIsOnline topo i = .ok online ∧
      (online = true ↔ ∃ info, TopoHas topo info ∧ info.cpuId = i) := by
  have hnat : ((i.toNat : Nat) : Int) = i := Int.toNat_of_nonneg hi
  have hflag := h.flags i.toNat
  rw [hnat] at hflag
  by_cases hpast : topo.onlineArraySize ≤ i
  · refine ⟨false, by simp [cpuIsOnline, hi.not_gt, hpast], ?_⟩
    have hlen : topo.onlineCpus.length ≤ i.toNat := by
      have := h.size
      omega
    rwa [List.getD_eq_default _ _ hlen] at hflag
  · exact ⟨topo.onlineCpus.getD i.toNat false, by simp [cpuIsOnline, hi.not_gt, hpast], hflag⟩

theorem canonical_of_wf {infos : List TopologyInfo} {topo : CpuTopology} (h : TopoWf topo)
    (hhas : ∀ info, TopoHas topo info ↔ info ∈ infos) : Canonical infos topo where
  clusters := h.clusters
  cores := fun phy hphy => (h.phy phy hphy).cores
  cpus := fun phy hphy core hcore => ((h.phy phy hphy).core core hcore).cpus
  once := triples_nodup (TopoWf.shape h)
  exact := fun info => mem_triples.trans (hhas info)
  coreNum := fun phy hphy => (h.phy phy hphy).coreNum
  cpuNum := fun phy hphy core hcore => ((h.phy phy hphy).core core hcore).cpuNum
  isHt := fun phy hphy core hcore => by
    rw [((h.phy phy hphy).core core hcore).isHt, decide_eq_true_eq]
  enum := (TopoWf.shape h).enum
  online := fun i hi => by
    simpa only [hhas] using cpuIsOnline_spec h.online hi
  lookups := by
    intro info hinfo
    obtain ⟨phy, hphy, -, core, hcore, -, hcpu⟩ := (hhas info).mpr hinfo
    obtain ⟨phy', hphy', core', hcore', hcpu', hcluster, hfound⟩ :=
      (TopoWf.shape h).lookup_present hphy ⟨core, hcore, hcpu⟩
    exact ⟨phy', core', hcluster, hfound, hphy', hcore', hcpu'⟩

/-- Additions in any order build the canonical tree of their set of CPUs. -/
theorem addTopoInfos_canonical (infos : List TopologyInfo)
    (h : ∀ info ∈ infos, NonNegative info) :
    ∃ topo, addTopoInfos infos = .ok topo ∧ Canonical infos topo ∧
      ∀ infos' : List TopologyInfo, (∀ info, info ∈ infos' ↔ info ∈ infos) →
        ∃ topo', addTopoInfos infos' = .ok topo' ∧ SameTree topo topo' := by
  obtain ⟨topo, hbuilt, hwf, hhas⟩ := addTopoInfos_spec h
  refine ⟨topo, hbuilt, canonical_of_wf hwf hhas, fun infos' hsame => ?_⟩
  obtain ⟨topo', hbuilt', hwf', hhas'⟩ :=
    addTopoInfos_spec fun info hinfo => h info ((hsame info).mp hinfo)
  refine ⟨topo', hbuilt', sameTree_of_has hwf hwf' fun info => ?_⟩
  rw [hhas, hhas', hsame]

theorem addTopoInfos_canonical_pair :
    (∀ info ∈ [(⟨1, 0, 4⟩ : TopologyInfo), ⟨0, 2, 1⟩], NonNegative info) ∧
    ∃ topo, addTopoInfos [⟨1, 0, 4⟩, ⟨0, 2, 1⟩] = .ok topo ∧
      Canonical [⟨1, 0, 4⟩, ⟨0, 2, 1⟩] topo ∧
      ∀ infos' : List TopologyInfo,
        (∀ info, info ∈ infos' ↔ info ∈ [(⟨1, 0, 4⟩ : TopologyInfo), ⟨0, 2, 1⟩]) →
        ∃ topo', addTopoInfos infos' = .ok topo' ∧ SameTree topo topo' :=
  have hids : ∀ info ∈ [(⟨1, 0, 4⟩ : TopologyInfo), ⟨0, 2, 1⟩], NonNegative info := by
    simp [NonNegative]
  ⟨hids, addTopoInfos_canonical _ hids⟩

end Idlestat.Theory.TopologyCanonical
