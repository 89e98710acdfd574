import Idlestat.Theory.TopologyTree

/-! What `cpu_to_cluster` and `cpu_to_core` find, for any tree whose ids are
distinct at each level. The pointers stored in the nodes play no role. -/
namespace Idlestat.Theory.TopologyLookup

open Idlestat.Library.SortedKeys Idlestat.Model.Topology Idlestat.Theory.TopologyTree

structure TopoShape (topo : CpuTopology) : Prop where
  clusters : (topo.physicalHead.map CpuPhysical.physicalId).Nodup
  cores : ∀ phy ∈ topo.physicalHead, (phy.coreHead.map CpuCore.coreId).Nodup
  cpus : ∀ phy ∈ topo.physicalHead, ∀ core ∈ phy.coreHead,
    (core.cpuHead.map CpuCpu.cpuId).Nodup
  enum : ∀ phy ∈ topo.physicalHead, phy.cpuEnumHead.Perm (links phy)
  coresInhabited : ∀ phy ∈ topo.physicalHead, ∀ core ∈ phy.coreHead, core.cpuHead ≠ []
  clustersInhabited : ∀ phy ∈ topo.physicalHead, phy.coreHead ≠ []

theorem links_nodup {phy : CpuPhysical} (hcores : (phy.coreHead.map CpuCore.coreId).Nodup)
    (hcpus : ∀ core ∈ phy.coreHead, (core.cpuHead.map CpuCpu.cpuId).Nodup) :
    (links phy).Nodup := by
  refine List.nodup_flatMap.mpr ⟨fun core hcore => ?_, ?_⟩
  · refine List.Nodup.of_map CpuRef.cpuId ?_
    simpa [Function.comp_def] using hcpus core hcore
  · refine (List.pairwise_map.mp hcores).imp fun {a b} hne => ?_
    refine List.disjoint_left.mpr fun link ha hb => hne ?_
    obtain ⟨x, -, rfl⟩ := List.mem_map.mp ha
    obtain ⟨y, -, hy⟩ := List.mem_map.mp hb
    exact (congrArg CpuRef.coreId hy).symm

theorem TopoWf.shape {topo : CpuTopology} (h : TopoWf topo) : TopoShape topo where
  clusters := h.clusters.keys_nodup
  cores := fun phy hphy => (h.phy phy hphy).cores.keys_nodup
  cpus := fun phy hphy core hcore => ((h.phy phy hphy).core core hcore).cpus.keys_nodup
  enum := by
    intro phy hphy
    have hwf := h.phy phy hphy
    refine (List.perm_ext_iff_of_nodup hwf.enumNodup (links_nodup hwf.cores.keys_nodup
      fun core hcore => (hwf.core core hcore).cpus.keys_nodup)).mpr fun link => ?_
    rw [hwf.enum, mem_links]
  coresInhabited := fun phy hphy core hcore => (h.phy phy hphy).inhabited core hcore
  clustersInhabited := h.inhabited

theorem TopoShape.enumCpus_perm {topo : CpuTopology} (h : TopoShape topo) {phy : CpuPhysical}
    (hphy : phy ∈ topo.physicalHead) :
    phy.enumCpus.Perm (phy.coreHead.flatMap CpuCore.cpuHead) := by
  refine ((h.enum phy hphy).filterMap _).trans (.of_eq ?_)
  simp only [links, List.filterMap_flatMap, List.filterMap_map]
  refine List.flatMap_congr fun core hcore => ?_
  refine (List.filterMap_congr fun cpu hcpu => ?_).trans List.filterMap_some
  have hfindCore := find_of_nodup (h.cores phy hphy) hcore
  have hfindCpu := find_of_nodup (h.cpus phy hphy core hcore) hcpu
  simp only [Function.comp_apply, hfindCore, Option.bind_some, hfindCpu]

theorem TopoShape.mem_enumCpus {topo : CpuTopology} (h : TopoShape topo) {phy : CpuPhysical}
    (hphy : phy ∈ topo.physicalHead) {cpu : CpuCpu} :
    cpu ∈ phy.enumCpus ↔ ∃ core ∈ phy.coreHead, cpu ∈ core.cpuHead := by
  rw [(h.enumCpus_perm hphy).mem_iff, List.mem_flatMap]

section Lookup

variable {topo : CpuTopology} {cpuid : Int}

def ClusterHas (phy : CpuPhysical) (cpuid : Int) : Prop :=
  ∃ core ∈ phy.coreHead, CoreHas core cpuid

theorem coreContains_iff {core : CpuCore} :
    coreContains cpuid core = true ↔ CoreHas core cpuid := by
  simp [coreContains, CoreHas]

theorem TopoShape.enumContains_iff (h : TopoShape topo) {phy : CpuPhysical}
    (hphy : phy ∈ topo.physicalHead) :
    enumContains cpuid phy = true ↔ ClusterHas phy cpuid := by
  simp only [enumContains, List.any_eq_true, decide_eq_true_eq, h.mem_enumCpus hphy, ClusterHas,
    CoreHas]
  constructor
  · rintro ⟨cpu, ⟨core, hcore, hcpu⟩, hid⟩
    exact ⟨core, hcore, cpu, hcpu, hid⟩
  · rintro ⟨core, hcore, cpu, hcpu, hid⟩
    exact ⟨cpu, ⟨core, hcore, hcpu⟩, hid⟩

theorem coreFind_isSome_iff {phy : CpuPhysical} :
    (phy.coreHead.find? (coreContains cpuid)).isSome = true ↔ ClusterHas phy cpuid := by
  simp only [List.find?_isSome, coreContains_iff, ClusterHas]

private theorem lookups_agree {α β : Type} {f : α → Bool} {g : α → Option β} {l : List α}
    (hfg : ∀ x ∈ l, f x = (g x).isSome) : l.findSome? g = (l.find? f).bind g := by
  induction l with
  | nil => rfl
  | cons x rest ih =>
    have hx := hfg x (by simp)
    cases hf : f x with
    | true =>
      obtain ⟨y, hy⟩ := Option.isSome_iff_exists.mp (hx.symm.trans hf)
      simp [hf, hy]
    | false =>
      have hnone : g x = none := by simpa [hf] using hx
      simpa [hf, hnone] using ih fun y hy => hfg y (by simp [hy])

theorem TopoShape.cpuToCluster_some (h : TopoShape topo) {phy : CpuPhysical}
    (hfound : cpuToCluster cpuid topo = some phy) :
    phy ∈ topo.physicalHead ∧ ClusterHas phy cpuid := by
  have hphy := List.mem_of_find?_eq_some hfound
  have hcontains : enumContains cpuid phy = true := List.find?_some hfound
  exact ⟨hphy, (h.enumContains_iff hphy).mp hcontains⟩

/-- `cpu_to_core` looks inside the cluster that `cpu_to_cluster` finds. -/
theorem TopoShape.cpuToCore_eq (h : TopoShape topo) :
    cpuToCore cpuid topo = (cpuToCluster cpuid topo).bind fun phy =>
      phy.coreHead.find? (coreContains cpuid) :=
  lookups_agree fun _ hphy => Bool.eq_iff_iff.mpr
    ((h.enumContains_iff hphy).trans coreFind_isSome_iff.symm)

theorem TopoShape.lookup_present (h : TopoShape topo) {phy : CpuPhysical}
    (hphy : phy ∈ topo.physicalHead) (hhas : ClusterHas phy cpuid) :
    ∃ phy' ∈ topo.physicalHead, ∃ core ∈ phy'.coreHead, CoreHas core cpuid ∧
      cpuToCluster cpuid topo = some phy' ∧ cpuToCore cpuid topo = some core := by
  have hsome : (cpuToCluster cpuid topo).isSome = true :=
    List.find?_isSome.mpr ⟨phy, hphy, (h.enumContains_iff hphy).mpr hhas⟩
  obtain ⟨phy', hphy'⟩ := Option.isSome_iff_exists.mp hsome
  obtain ⟨hmem, hhas'⟩ := h.cpuToCluster_some hphy'
  obtain ⟨core, hcore⟩ := Option.isSome_iff_exists.mp (coreFind_isSome_iff.mpr hhas')
  have hcontains : coreContains cpuid core = true := List.find?_some hcore
  refine ⟨phy', hmem, core, List.mem_of_find?_eq_some hcore, coreContains_iff.mp hcontains,
    hphy', ?_⟩
  rw [h.cpuToCore_eq, hphy']
  exact hcore

theorem TopoShape.lookup_absent (h : TopoShape topo)
    (habsent : ∀ phy ∈ topo.physicalHead, ¬ ClusterHas phy cpuid) :
    cpuToCluster cpuid topo = none ∧ cpuToCore cpuid topo = none := by
  have hnone : cpuToCluster cpuid topo = none :=
    List.find?_eq_none.mpr fun phy hphy hany =>
      habsent phy hphy ((h.enumContains_iff hphy).mp hany)
  exact ⟨hnone, by rw [h.cpuToCore_eq, hnone]; rfl⟩

end Lookup

end Idlestat.Theory.TopologyLookup
