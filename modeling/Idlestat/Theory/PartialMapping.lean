import Idlestat.Theory.RecordMapping
import Idlestat.Theory.RecorderSteps

/-! The handlers on a tree that lists a CPU id more than once. Only the first
node with an id has records, and an event of a CPU whose cluster has a node
without follows a null pointer. -/
namespace Idlestat.Theory.PartialMapping

open Idlestat.Library Idlestat.Model.Topology Idlestat.Model.Cstates Idlestat.Model.Pstates
  Idlestat.Model.Recorder Idlestat.Model.Loaders Idlestat.Theory.TopologyTree
  Idlestat.Theory.TopologyLookup Idlestat.Theory.TopologyCanonical Idlestat.Theory.CstateRecord
  Idlestat.Theory.Nodes Idlestat.Theory.PstateRecord Idlestat.Theory.Setup
  Idlestat.Theory.RecordMapping Idlestat.Theory.RecorderSteps

/-- The states events start from when all that is known of the CPUs is that
they are below `nrcpus`. -/
def LoadedBelow (start : CpuidleDatas) : Prop :=
  ∃ infos loader info, (∀ i ∈ infos, NonNegative i) ∧ (∀ i ∈ infos, i.cpuId < start.nrcpus) ∧
    freshDatas loader start.nrcpus info infos = .ok start

theorem LoadedBelow.of_loaded {start : CpuidleDatas} (h : Loaded start) : LoadedBelow start := by
  obtain ⟨infos, loader, info, hmachine, hfresh⟩ := h
  exact ⟨infos, loader, info, hmachine.nonNegative, hmachine.below, hfresh⟩

/-- No node of the CPU's cluster lacks its records. -/
def ClusterMapped (topo : CpuTopology) (cpu : Int) : Prop :=
  ∀ phy, cpuToCluster cpu topo = some phy → ∀ node ∈ phy.enumCpus, node.cstates ≠ none

/-- A tree whose CPUs are in range and have their own records, or none. -/
structure PartlyMapped (nrcpus : Int) (topo : CpuTopology) : Prop where
  shape : TopoShape topo
  range : ∀ cpu ∈ cpuIds topo, 0 ≤ cpu ∧ cpu < nrcpus
  pointed : Pointed topo

/-- A state that a run on such a tree can be in. -/
structure Usable (nrcpus : Int) (topo : CpuTopology) (datas : CpuidleDatas) : Prop where
  nrcpus : datas.nrcpus = nrcpus
  topo : datas.topo = topo
  cstates : ∀ ref, ∃ top, RecordOk top (datas.cstates ref)
  pstates : ∀ ref, PstatesOk (datas.pstates ref)

section Start

variable {datas datas' start : CpuidleDatas} {topo : CpuTopology}

theorem createCoreStates_ok {core : CpuCore} {r : CpuidleCstates}
    (h : createCoreStates datas core = .ok r) : Fresh r := by
  unfold createCoreStates at h
  split at h
  · cases h
  · obtain ⟨ref, -, h⟩ := Runs.bind_eq_ok h
    rw [← Except.ok.inj h]
    exact createStates_fresh _

theorem createClusterStates_ok {phy : CpuPhysical} {r : CpuidleCstates}
    (h : createClusterStates datas phy = .ok r) : Fresh r := by
  unfold createClusterStates at h
  split at h
  · cases h
  · obtain ⟨ref, -, h⟩ := Runs.bind_eq_ok h
    rw [← Except.ok.inj h]
    exact createStates_fresh _

theorem setupCores_fresh {physicalId : Int} {cores cores' : List CpuCore}
    (hfresh : ∀ ref, Fresh (datas.cstates ref))
    (h : setupCores physicalId datas cores = .ok (datas', cores')) :
    ∀ ref, Fresh (datas'.cstates ref) := by
  induction cores generalizing datas datas' cores' with
  | nil =>
    obtain ⟨rfl, rfl⟩ := Prod.mk.inj (Except.ok.inj h)
    exact hfresh
  | cons core rest ih =>
    rw [setupCores] at h
    obtain ⟨states, hstates, h⟩ := Runs.bind_eq_ok h
    obtain ⟨result, hrest, h⟩ := Runs.bind_eq_ok h
    obtain ⟨rfl, rfl⟩ := Prod.mk.inj (Except.ok.inj h)
    exact ih (fresh_setCstates hfresh _ (createCoreStates_ok hstates)) hrest

theorem setupClusters_fresh {phys phys' : List CpuPhysical}
    (hfresh : ∀ ref, Fresh (datas.cstates ref))
    (h : setupClusters datas phys = .ok (datas', phys')) :
    ∀ ref, Fresh (datas'.cstates ref) := by
  induction phys generalizing datas datas' phys' with
  | nil =>
    obtain ⟨rfl, rfl⟩ := Prod.mk.inj (Except.ok.inj h)
    exact hfresh
  | cons phy rest ih =>
    rw [setupClusters] at h
    obtain ⟨cores, hcores, h⟩ := Runs.bind_eq_ok h
    obtain ⟨states, hstates, h⟩ := Runs.bind_eq_ok h
    obtain ⟨result, hrest, h⟩ := Runs.bind_eq_ok h
    obtain ⟨rfl, rfl⟩ := Prod.mk.inj (Except.ok.inj h)
    exact ih (fresh_setCstates (setupCores_fresh hfresh hcores) _ (createClusterStates_ok hstates))
      hrest

theorem LoadedBelow.spec (h : LoadedBelow start) :
    PartlyMapped start.nrcpus start.topo ∧ (∀ ref, Fresh (start.cstates ref)) ∧
      (∀ ref, start.pstates ref = buildPstateInfo) ∧
      ((cpuIds start.topo).Nodup → Mapped start.nrcpus start.topo) := by
  obtain ⟨infos, loader, info, hnonneg, hbelow, hfresh⟩ := h
  obtain ⟨topo, hbuilt, hwf, hhas⟩ := addTopoInfos_spec hnonneg
  have hrecords : ∀ ref, Fresh ((loadedDatas loader start.nrcpus topo info).cstates ref) := by
    intro ref
    cases ref with
    | percpu cpu => exact cpuRecord_fresh loader topo info cpu
    | core physicalId coreId => exact emptyCstates_fresh
    | cluster physicalId => exact emptyCstates_fresh
  have hsetup : setupTopoStates (loadedDatas loader start.nrcpus topo info) = .ok start := by
    simpa only [freshDatas, hbuilt, bind, Except.bind] using hfresh
  obtain ⟨built, mid, phys, hbare, hmapped, hclusters, hstart⟩ := setupTopoStates_built hwf hsetup
  have htopo : start.topo = pointedTopo built := by
    rw [hstart]
  have hids : cpuIds start.topo = cpuIds topo := by
    rw [htopo, cpuIds_pointedTopo, ← cpuIds_bare, hbare]
    rfl
  have hrange : ∀ cpu ∈ cpuIds topo, 0 ≤ cpu ∧ cpu < start.nrcpus := by
    intro cpu hcpu
    obtain ⟨i, hi, rfl⟩ := mem_cpuIds_iff_topoHas.mp hcpu
    have hmem := (hhas i).mp hi
    exact ⟨(hnonneg i hmem).2.2, hbelow i hmem⟩
  have hpointed : Pointed start.topo := by
    rw [htopo]
    exact pointed_of_bare (hbare.symm ▸ hwf) hmapped.own
  have hshape : TopoShape start.topo := by
    rw [htopo]
    exact shape_of_bare (hbare.symm ▸ TopoWf.shape hwf)
  refine ⟨⟨hshape, fun cpu hcpu => hrange cpu (hids ▸ hcpu), hpointed⟩, ?_, ?_, ?_⟩
  · have hmid : ∀ ref, Fresh (mid.cstates ref) := by
      apply setupClusters_fresh _ hclusters
      exact hrecords
    rw [hstart]
    exact hmid
  · intro ref
    have hpstates := (setupTopoStates_ok hwf hsetup).2.2.2.2
    rw [hpstates]
    rfl
  · intro hunique
    rw [hids] at hunique
    obtain ⟨start', hsetup', htopo', -⟩ := setupTopoStates_spec
      (loadedDatas loader start.nrcpus topo info) hwf hunique hrange hrecords
    obtain rfl : start' = start := Except.ok.inj (hsetup'.symm.trans hsetup)
    rw [htopo']
    exact setPointers_mapped hwf hunique hrange

theorem LoadedBelow.usable (h : LoadedBelow start) : Usable start.nrcpus start.topo start := by
  obtain ⟨-, hfresh, hpstates, -⟩ := h.spec
  refine ⟨rfl, rfl, fun ref => (hfresh ref).ok, fun ref => ?_⟩
  rw [hpstates]
  exact buildPstateInfo_ok

theorem Mapped.clusterMapped {nrcpus : Int} (hm : Mapped nrcpus topo) (cpu : Int) :
    ClusterMapped topo cpu := by
  intro phy hphy node hnode hnone
  obtain ⟨hmem, -⟩ := hm.shape.cpuToCluster_some hphy
  have hown := (hm.enum_mapped hmem hnode).1
  rw [hnone] at hown
  cases hown

end Start

section Groups

variable {datas datas' : CpuidleDatas} {cpus : List CpuCpu}

theorem own_of_mapped {cpu : CpuCpu} (h : OwnOrNone cpu) (hmapped : cpu.cstates ≠ none) :
    cpu.cstates = some (.percpu cpu.cpuId) ∧ cpu.pstates = some (.percpu cpu.cpuId) := by
  rcases h with hnone | hown
  · exact absurd hnone.1 hmapped
  · exact hown

theorem cstates_ne_none_of_pstates {cpu : CpuCpu} (h : OwnOrNone cpu)
    (hmapped : cpu.pstates ≠ none) : cpu.cstates ≠ none := by
  rcases h with hnone | hown
  · exact absurd hnone.2 hmapped
  · simp [hown.1]

theorem deref_ok {α : Type} {pointer : Option α} {a : α} (h : deref pointer = .ok a) :
    pointer ≠ none := by
  rintro rfl
  cases h

theorem leastCstate_mapped {least : Int} (h : leastCstate datas cpus = .ok least) :
    ∀ cpu ∈ cpus, cpu.cstates ≠ none := by
  intro cpu hcpu
  obtain ⟨ret, next, hnext⟩ := Runs.foldlM_ok_of_mem h hcpu
  obtain ⟨ref, href, -⟩ := Runs.bind_eq_ok hnext
  exact deref_ok href

theorem clusterGetHighestFreq_mapped {phy : CpuPhysical} {freq : Nat}
    (h : clusterGetHighestFreq datas phy = .ok freq) :
    ∀ cpu ∈ phy.enumCpus, cpu.pstates ≠ none := by
  intro cpu hcpu
  obtain ⟨ret, next, hnext⟩ := Runs.foldlM_ok_of_mem h hcpu
  obtain ⟨ref, href, -⟩ := Runs.bind_eq_ok hnext
  exact deref_ok href

theorem leastCstate_valid (hstates : ∀ cpu, ValidState (currentCstates datas cpu))
    (hown : ∀ cpu ∈ cpus, OwnOrNone cpu) (hmapped : ∀ cpu ∈ cpus, cpu.cstates ≠ none)
    (hne : cpus ≠ []) : ∃ state, leastCstate datas cpus = .ok state ∧ ValidState state := by
  refine ⟨_, leastCstate_eq fun cpu hcpu => (own_of_mapped (hown cpu hcpu) (hmapped cpu hcpu)).1,
    least_valid ?_ fun cpu _ => hstates cpu⟩
  simpa using hne

end Groups

section Handlers

variable {nrcpus : Int} {topo : CpuTopology} {datas datas' : CpuidleDatas} {cpu state : Int}
  {freq : Nat} {time : ℚ}

theorem recordCstateEvent_ok {top : Fin maxcstate → ℚ} {r r' : CpuidleCstates}
    (h : RecordOk top r) (hrecord : recordCstateEvent r time state = .ok r') :
    RecordOk top r' ∧ ValidState state := by
  by_cases hstate : ValidState state
  · obtain ⟨r'', hrecord', hok, -⟩ := recordCstateEvent_spec h hstate time
    obtain rfl : r'' = r' := Except.ok.inj (hrecord'.symm.trans hrecord)
    exact ⟨hok, hstate⟩
  · rw [recordCstateEvent_invalid h hstate] at hrecord
    cases hrecord

theorem Usable.setCstates (h : Usable nrcpus topo datas) {ref : RecordRef} {r : CpuidleCstates}
    (hrecord : recordCstateEvent (datas.cstates ref) time state = .ok r) :
    Usable nrcpus topo (datas.setCstates ref r) := by
  obtain ⟨top, hok⟩ := h.cstates ref
  exact ⟨h.nrcpus, h.topo, update_all (fun r => ∃ top, RecordOk top r) ref h.cstates
    ⟨top, (recordCstateEvent_ok hok hrecord).1⟩, h.pstates⟩

theorem Usable.setPstates (h : Usable nrcpus topo datas) (ref : RecordRef) {ps : CpufreqPstates}
    (hok : PstatesOk ps) : Usable nrcpus topo (datas.setPstates ref ps) :=
  ⟨h.nrcpus, h.topo, h.cstates, update_all PstatesOk ref h.pstates hok⟩

theorem checkPstateComposite_usable (h : Usable nrcpus topo datas)
    (hok : checkPstateComposite datas cpu time = .ok datas') : Usable nrcpus topo datas' := by
  obtain ⟨core, -, hok⟩ := Runs.bind_eq_ok hok
  obtain ⟨freq, -, hok⟩ := Runs.bind_eq_ok hok
  obtain ⟨ref, -, hok⟩ := Runs.bind_eq_ok hok
  obtain ⟨phy, -, hok⟩ := Runs.bind_eq_ok hok
  obtain ⟨freq', -, hok⟩ := Runs.bind_eq_ok hok
  obtain ⟨ref', -, hok⟩ := Runs.bind_eq_ok hok
  have hcore := h.setPstates ref (recordGroupFreq_spec (h.pstates ref) freq time).ok
  rw [← Except.ok.inj hok]
  exact hcore.setPstates ref' (recordGroupFreq_spec (hcore.pstates ref') freq' time).ok

/-- The cluster's loop follows the pointers of every node. -/
theorem checkPstateComposite_mapped (hp : PartlyMapped nrcpus topo) (htopo : datas.topo = topo)
    (hok : checkPstateComposite datas cpu time = .ok datas') : ClusterMapped topo cpu := by
  obtain ⟨core, -, hok⟩ := Runs.bind_eq_ok hok
  obtain ⟨freq, -, hok⟩ := Runs.bind_eq_ok hok
  obtain ⟨ref, -, hok⟩ := Runs.bind_eq_ok hok
  obtain ⟨phy, hphy, hok⟩ := Runs.bind_eq_ok hok
  obtain ⟨freq', hfreq, -⟩ := Runs.bind_eq_ok hok
  intro phy' hphy' node hnode
  rw [setPstates_topo, htopo, hphy'] at hphy
  obtain rfl : phy' = phy := Except.ok.inj hphy
  obtain ⟨core', hcore', hmem⟩ :=
    (hp.shape.mem_enumCpus (hp.shape.cpuToCluster_some hphy').1).mp hnode
  exact cstates_ne_none_of_pstates (hp.pointed.cpu node (mem_cpuNodes.mpr
    ⟨phy', (hp.shape.cpuToCluster_some hphy').1, core', hcore', hmem⟩))
    (clusterGetHighestFreq_mapped hfreq node hnode)

theorem located_own (hp : PartlyMapped nrcpus topo) {phy : CpuPhysical} {core : CpuCore}
    (hl : Located topo cpu phy core) (hmapped : ClusterMapped topo cpu) :
    (∀ node ∈ core.cpuHead, OwnOrNone node ∧ node.cstates ≠ none) ∧
      ∀ node ∈ phy.enumCpus, OwnOrNone node ∧ node.cstates ≠ none := by
  have hall : ∀ node ∈ phy.enumCpus, OwnOrNone node ∧ node.cstates ≠ none := by
    intro node hnode
    obtain ⟨core', hcore', hmem⟩ := (hp.shape.mem_enumCpus hl.phy_mem).mp hnode
    exact ⟨hp.pointed.cpu node (mem_cpuNodes.mpr ⟨phy, hl.phy_mem, core', hcore', hmem⟩),
      hmapped phy hl.cluster node hnode⟩
  exact ⟨fun node hnode =>
    hall node ((hp.shape.mem_enumCpus hl.phy_mem).mpr ⟨core, hl.core_mem, hnode⟩), hall⟩

theorem checkPstateComposite_ok (hp : PartlyMapped nrcpus topo) (htopo : datas.topo = topo)
    (hcpu : cpu ∈ cpuIds topo) (hmapped : ClusterMapped topo cpu) :
    ∃ datas', checkPstateComposite datas cpu time = .ok datas' := by
  obtain ⟨phy, core, hl⟩ := located_of_shape hp.shape hcpu
  obtain ⟨hcores, hclusters⟩ := located_own hp hl hmapped
  have hcore : ∀ d : CpuidleDatas, coreGetHighestFreq d core =
      .ok (greatest (fun c => coreFreq (d.pstates (.percpu c))) (coreIds core)) := fun _ =>
    coreGetHighestFreq_eq fun node hnode =>
      (own_of_mapped (hcores node hnode).1 (hcores node hnode).2).2
  have hcluster : ∀ d : CpuidleDatas, clusterGetHighestFreq d phy =
      .ok (greatest (fun c => clusterFreq (d.pstates (.percpu c)))
        (phy.enumCpus.map CpuCpu.cpuId)) := fun _ =>
    clusterGetHighestFreq_eq fun node hnode =>
      (own_of_mapped (hclusters node hnode).1 (hclusters node hnode).2).2
  simp only [checkPstateComposite, htopo, setPstates_topo, hl.core, hl.cluster, deref, bind,
    Except.bind, hcore, hcluster, (hp.pointed.core phy hl.phy_mem core hl.core_mem).2,
    (hp.pointed.cluster phy hl.phy_mem).2]
  exact ⟨_, rfl⟩

theorem percpu_of_range (hp : PartlyMapped nrcpus topo) (hnrcpus : datas.nrcpus = nrcpus)
    (hcpu : cpu ∈ cpuIds topo) : datas.percpu cpu = .ok (.percpu cpu) := by
  simp [CpuidleDatas.percpu, hnrcpus, hp.range cpu hcpu]

theorem updatePstates_ok (hp : PartlyMapped nrcpus topo) (h : Usable nrcpus topo datas)
    (hcpu : cpu ∈ cpuIds topo) (hmapped : ClusterMapped topo cpu)
    (pstate : List CpufreqPstate) :
    ∃ datas', updatePstates datas pstate cpu state time = .ok datas' := by
  have hcomposite : ∀ ps, ∃ datas',
      checkPstateComposite (datas.setPstates (.percpu cpu) ps) cpu time = .ok datas' := fun ps =>
    checkPstateComposite_ok hp (h.topo ▸ setPstates_topo (.percpu cpu) ps) hcpu hmapped
  have hpercpu := percpu_of_range hp h.nrcpus hcpu
  unfold updatePstates
  split
  · exact ⟨_, rfl⟩
  · split
    · simp only [cpuPstateRunning, hpercpu, bind, Except.bind]
      exact hcomposite _
    · simp only [cpuPstateIdle, hpercpu, bind, Except.bind]
      exact hcomposite _

theorem updatePstates_usable (h : Usable nrcpus topo datas) {pstate : List CpufreqPstate}
    (hok : updatePstates datas pstate cpu state time = .ok datas') :
    Usable nrcpus topo datas' := by
  unfold updatePstates at hok
  split at hok
  · exact Except.ok.inj hok ▸ h
  · split at hok
    · obtain ⟨ref, -, hok⟩ := Runs.bind_eq_ok hok
      exact checkPstateComposite_usable
        (h.setPstates ref (resumed_spec (h.pstates ref) time).ok) hok
    · obtain ⟨ref, -, hok⟩ := Runs.bind_eq_ok hok
      exact checkPstateComposite_usable
        (h.setPstates ref (idled_spec (h.pstates ref) time).ok) hok

theorem recordGroupCstate_usable (h : Usable nrcpus topo datas) {cstates : Option RecordRef}
    (hok : recordGroupCstate datas cstates time state = .ok datas') :
    Usable nrcpus topo datas' := by
  obtain ⟨ref, -, hok⟩ := Runs.bind_eq_ok hok
  obtain ⟨r, hrecord, hok⟩ := Runs.bind_eq_ok hok
  exact Except.ok.inj hok ▸ h.setCstates hrecord

theorem recordGroupCstate_ok (h : Usable nrcpus topo datas) (ref : RecordRef)
    (hstate : ValidState state) :
    ∃ datas', recordGroupCstate datas (some ref) time state = .ok datas' ∧
      Usable nrcpus topo datas' := by
  obtain ⟨top, hok⟩ := h.cstates ref
  obtain ⟨r, hrecord, -⟩ := recordCstateEvent_spec hok hstate time
  refine ⟨datas.setCstates ref r, ?_, h.setCstates hrecord⟩
  simp only [recordGroupCstate, deref, hrecord, bind, Except.bind]

/-! What an event does that does not fail. -/

theorem storeData_usable (h : Usable nrcpus topo datas)
    (hok : storeData time state cpu datas = .ok datas') : Usable nrcpus topo datas' := by
  obtain ⟨ref, -, hok⟩ := Runs.bind_eq_ok hok
  split at hok
  · exact Except.ok.inj hok ▸ h
  · obtain ⟨r, hrecord, hok⟩ := Runs.bind_eq_ok hok
    obtain ⟨datas₁, hupdate, hok⟩ := Runs.bind_eq_ok hok
    obtain ⟨core, -, hok⟩ := Runs.bind_eq_ok hok
    obtain ⟨least, -, hok⟩ := Runs.bind_eq_ok hok
    obtain ⟨datas₂, hcore, hok⟩ := Runs.bind_eq_ok hok
    obtain ⟨phy, -, hok⟩ := Runs.bind_eq_ok hok
    obtain ⟨least', -, hok⟩ := Runs.bind_eq_ok hok
    exact recordGroupCstate_usable (recordGroupCstate_usable
      (updatePstates_usable (h.setCstates hrecord) hupdate) hcore) hok

theorem storeData_mapped (h : Usable nrcpus topo datas)
    (hnot : ¬ Ignored datas cpu state) (hok : storeData time state cpu datas = .ok datas') :
    ClusterMapped topo cpu := by
  obtain ⟨ref, href, hok⟩ := Runs.bind_eq_ok hok
  split at hok
  · next hignored =>
    have hown : ref = .percpu cpu := by
      unfold CpuidleDatas.percpu at href
      split at href
      · exact (Except.ok.inj href).symm
      · cases href
    rw [hown] at hignored
    exact absurd hignored hnot
  · obtain ⟨r, hrecord, hok⟩ := Runs.bind_eq_ok hok
    obtain ⟨datas₁, hupdate, hok⟩ := Runs.bind_eq_ok hok
    obtain ⟨core, -, hok⟩ := Runs.bind_eq_ok hok
    obtain ⟨least, -, hok⟩ := Runs.bind_eq_ok hok
    obtain ⟨datas₂, hcore, hok⟩ := Runs.bind_eq_ok hok
    obtain ⟨phy, hphy, hok⟩ := Runs.bind_eq_ok hok
    obtain ⟨least', hleast, -⟩ := Runs.bind_eq_ok hok
    have husable := recordGroupCstate_usable
      (updatePstates_usable (h.setCstates hrecord) hupdate) hcore
    intro phy' hphy'
    rw [husable.topo, hphy'] at hphy
    obtain rfl : phy' = phy := Except.ok.inj hphy
    exact leastCstate_mapped hleast

theorem storeData_ok (hp : PartlyMapped nrcpus topo) (h : Usable nrcpus topo datas)
    (hcpu : cpu ∈ cpuIds topo) (hstate : ValidState state)
    (hmapped : Ignored datas cpu state ∨ ClusterMapped topo cpu) :
    ∃ datas', storeData time state cpu datas = .ok datas' := by
  have hpercpu := percpu_of_range hp h.nrcpus hcpu
  by_cases hignored : Ignored datas cpu state
  · have hboth : state = -1 ∧ (datas.cstates (.percpu cpu)).cstateMax = -1 := hignored
    exact ⟨datas, by simp only [storeData, hpercpu, bind, Except.bind, hboth, and_self, if_true]⟩
  · have hmapped := hmapped.resolve_left hignored
    obtain ⟨phy, core, hl⟩ := located_of_shape hp.shape hcpu
    obtain ⟨hcores, hclusters⟩ := located_own hp hl hmapped
    have hcoreNe : core.cpuHead ≠ [] := hp.shape.coresInhabited phy hl.phy_mem core hl.core_mem
    have hclusterNe : phy.enumCpus ≠ [] := by
      obtain ⟨node, rest, hnodes⟩ := List.exists_cons_of_ne_nil hcoreNe
      exact List.ne_nil_of_mem ((hp.shape.mem_enumCpus hl.phy_mem).mpr
        ⟨core, hl.core_mem, hnodes ▸ List.mem_cons_self⟩)
    -- the CPU, its core and its cluster, one after the other
    obtain ⟨top, hok⟩ := h.cstates (.percpu cpu)
    obtain ⟨r, hrecord, -⟩ := recordCstateEvent_spec hok hstate time
    have h₁ := h.setCstates hrecord
    obtain ⟨datas₁, hupdate⟩ : ∃ d, updatePstates (datas.setCstates (.percpu cpu) r)
        (datas.pstates (.percpu cpu)).pstate cpu state time = .ok d :=
      updatePstates_ok hp h₁ hcpu hmapped _
    have h₂ := updatePstates_usable h₁ hupdate
    obtain ⟨least₁, hleast₁, hvalid₁⟩ := leastCstate_valid (currentCstates_valid h₂.cstates)
      (fun node hnode => (hcores node hnode).1) (fun node hnode => (hcores node hnode).2) hcoreNe
    obtain ⟨datas₂, hcore, h₃⟩ : ∃ d, recordGroupCstate datas₁
        (some (.core phy.physicalId core.coreId)) time least₁ = .ok d ∧ Usable nrcpus topo d :=
      recordGroupCstate_ok h₂ _ hvalid₁
    obtain ⟨least₂, hleast₂, hvalid₂⟩ := leastCstate_valid (currentCstates_valid h₃.cstates)
      (fun node hnode => (hclusters node hnode).1) (fun node hnode => (hclusters node hnode).2)
      hclusterNe
    obtain ⟨datas₃, hcluster, -⟩ : ∃ d, recordGroupCstate datas₂
        (some (.cluster phy.physicalId)) time least₂ = .ok d ∧ Usable nrcpus topo d :=
      recordGroupCstate_ok h₃ _ hvalid₂
    have hproceed : ¬ (state = -1 ∧ (datas.cstates (.percpu cpu)).cstateMax = -1) := hignored
    refine ⟨datas₃, ?_⟩
    simp only [storeData, hpercpu, bind, Except.bind, hproceed, if_false, hrecord, hupdate,
      h₂.topo, hl.core, deref, coreGetLeastCstate, hleast₁,
      (hp.pointed.core phy hl.phy_mem core hl.core_mem).1, hcore, h₃.topo, hl.cluster,
      clusterGetLeastCstate, hleast₂, (hp.pointed.cluster phy hl.phy_mem).1, hcluster]

theorem cpuChangePstate_percpu (h : Usable nrcpus topo datas) (hcpu : 0 ≤ cpu ∧ cpu < nrcpus) :
    cpuChangePstate datas cpu freq time =
      if (datas.pstates (.percpu cpu)).idle = 1 then
        .ok (datas.setPstates (.percpu cpu) (changed (datas.pstates (.percpu cpu)) freq time))
      else checkPstateComposite (datas.setPstates (.percpu cpu)
        (changed (datas.pstates (.percpu cpu)) freq time)) cpu time := by
  have hin : ¬ (cpu < 0 ∨ cpu > datas.nrcpus) := by
    rw [h.nrcpus]
    omega
  have hpercpu : datas.percpu cpu = .ok (.percpu cpu) := if_pos (h.nrcpus.symm ▸ hcpu)
  simp only [cpuChangePstate, getCurrentPstate, hin, if_false, hpercpu, deref, bind, Except.bind]
  rcases (h.pstates (.percpu cpu)).idle with hidle | hidle | hidle
  · simp [changed, hidle]
  · simp [changed, hidle]
  · simp [changed, hidle]

theorem cpuChangePstate_range (hok : cpuChangePstate datas cpu freq time = .ok datas') :
    0 ≤ cpu ∧ cpu < datas.nrcpus := by
  by_contra hrange
  have hpercpu : datas.percpu cpu = .error .outOfBounds := if_neg hrange
  by_cases hpast : cpu < 0 ∨ cpu > datas.nrcpus
  · simp [cpuChangePstate, getCurrentPstate, hpast, deref, bind, Except.bind] at hok
  · simp [cpuChangePstate, getCurrentPstate, hpast, hpercpu, bind, Except.bind] at hok

theorem cpuChangePstate_usable (h : Usable nrcpus topo datas)
    (hok : cpuChangePstate datas cpu freq time = .ok datas') : Usable nrcpus topo datas' := by
  have hchanged := h.setPstates (.percpu cpu) (changed_spec (h.pstates (.percpu cpu)) freq time).ok
  rw [cpuChangePstate_percpu h (h.nrcpus ▸ cpuChangePstate_range hok)] at hok
  split at hok
  · exact Except.ok.inj hok ▸ hchanged
  · exact checkPstateComposite_usable hchanged hok

theorem cpuChangePstate_ok_iff (hp : PartlyMapped nrcpus topo) (h : Usable nrcpus topo datas)
    (hcpu : cpu ∈ cpuIds topo) :
    (∃ datas', cpuChangePstate datas cpu freq time = .ok datas') ↔
      (datas.pstates (.percpu cpu)).idle = 1 ∨ ClusterMapped topo cpu := by
  rw [cpuChangePstate_percpu h (hp.range cpu hcpu)]
  by_cases hidle : (datas.pstates (.percpu cpu)).idle = 1
  · simp [hidle]
  · have htopo : ∀ ps, (datas.setPstates (.percpu cpu) ps).topo = topo := fun _ => h.topo
    simp only [hidle, if_false, false_or]
    constructor
    · rintro ⟨datas', hok⟩
      exact checkPstateComposite_mapped hp (htopo _) hok
    · exact checkPstateComposite_ok hp (htopo _) hcpu

theorem storeData_ok_iff (hp : PartlyMapped nrcpus topo) (h : Usable nrcpus topo datas)
    (hcpu : cpu ∈ cpuIds topo) (hstate : ValidState state) :
    (∃ datas', storeData time state cpu datas = .ok datas') ↔
      Ignored datas cpu state ∨ ClusterMapped topo cpu := by
  constructor
  · rintro ⟨datas', hok⟩
    by_cases hignored : Ignored datas cpu state
    · exact .inl hignored
    · exact .inr (storeData_mapped h hignored hok)
  · exact storeData_ok hp h hcpu hstate

end Handlers

end Idlestat.Theory.PartialMapping
