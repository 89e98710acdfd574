import Idlestat.Theory.CstateAccounting
import Idlestat.Theory.IdleVerdict

/-! A core or cluster of one CPU. Its record is allocated by `create_states`,
the CPU's by a loader, and the two are driven by different calls. -/
namespace Idlestat.Theory.SoloGroup

open Idlestat.Library Idlestat.Model.Topology Idlestat.Model.Cstates Idlestat.Model.Recorder
  Idlestat.Model.Loaders Idlestat.Theory.TopologyTree Idlestat.Theory.TopologyLookup
  Idlestat.Theory.TopologyCanonical Idlestat.Theory.CstateRecord Idlestat.Theory.Nodes
  Idlestat.Theory.Setup Idlestat.Theory.RecorderSteps Idlestat.Theory.CstateAccounting
  Idlestat.Theory.IdleVerdict

/-- The group's state `i` reads like the CPU's. -/
structure SameCstate (a b : CpuidleCstate) : Prop where
  nrdata : a.nrdata = b.nrdata
  duration : a.duration = b.duration
  minTime : a.minTime = b.minTime
  maxTime : a.maxTime = b.maxTime
  avgTime : a.avgTime = b.avgTime
  early : a.earlyWakings = b.earlyWakings
  late : a.lateWakings = b.lateWakings

structure Mirrors (group cpu : CpuidleCstates) : Prop where
  current : group.currentCstate = cpu.currentCstate
  cstateMax : group.cstateMax = cpu.cstateMax
  cstate : ∀ i, SameCstate (group.cstate i) (cpu.cstate i)

/-! ## The two records in lock-step -/

/-- What a state of the group has in common with the CPU's, whether or not it
was copied; `next` is whether the state after it was. -/
structure Shadows (copied next : Prop) (a b : CpuidleCstate) : Prop where
  data : a.data = b.data
  nrdata : a.nrdata = b.nrdata
  duration : a.duration = b.duration
  maxTime : a.maxTime = b.maxTime
  avgTime : a.avgTime = b.avgTime
  minTime : copied → a.minTime = b.minTime
  target : copied → a.targetResidency = b.targetResidency
  early : copied → a.earlyWakings = b.earlyWakings
  late : copied → next → a.lateWakings = b.lateWakings

structure Lockstep (copied : Fin maxcstate → Prop) (r c : CpuidleCstates) : Prop where
  current : r.currentCstate = c.currentCstate
  cstateMax : r.cstateMax = c.cstateMax
  cstate : ∀ i : Fin maxcstate,
    Shadows (copied i) (∀ j : Fin maxcstate, (j : Int) = i + 1 → copied j) (r.cstate i)
      (c.cstate i)

section OneState

variable {copied next : Prop} {a b : CpuidleCstate}

theorem Shadows.setData (h : Shadows copied next a b) {data data' : List CpuidleData}
    (hdata : data = data') :
    Shadows copied next { a with data := data } { b with data := data' } :=
  ⟨hdata, h.nrdata, h.duration, h.maxTime, h.avgTime, h.minTime, h.target, h.early, h.late⟩

theorem Shadows.commit (h : Shadows copied next a b) (slot : CpuidleData) {va vb : Residency}
    (hshort : copied → (va = .tooShort ↔ vb = .tooShort)) (hsame : copied → next → va = vb) :
    Shadows copied next (a.commit slot va) (b.commit slot vb) where
  data := by simp only [CpuidleCstate.commit, h.data, h.nrdata]
  nrdata := by simp only [CpuidleCstate.commit, h.nrdata]
  duration := by simp only [CpuidleCstate.commit, h.duration]
  maxTime := by simp only [CpuidleCstate.commit, h.maxTime]
  avgTime := by simp only [CpuidleCstate.commit, h.avgTime, h.nrdata]
  minTime := fun hcopied => by simp only [CpuidleCstate.commit, h.minTime hcopied]
  target := h.target
  early := fun hcopied => by simp only [CpuidleCstate.commit, hshort hcopied, h.early hcopied]
  late := fun hcopied hnext => by
    simp only [CpuidleCstate.commit, hsame hcopied hnext, h.late hcopied hnext]

end OneState

section Verdict

variable {t t' : Fin maxcstate → Int} {limit : Int} {s : Fin maxcstate} {d : ℚ}

theorem verdict_tooShort_iff : verdict t limit s d = .tooShort ↔ d < t s := by
  unfold verdict
  split
  · simp [*]
  · split <;> simp [*]

theorem verdict_congr_targets (hs : t s = t' s)
    (hnext : ∀ next : Fin maxcstate, (next : Int) = s + 1 → t next = t' next) :
    verdict t limit s d = verdict t' limit s d := by
  have hiff : ∀ next : Fin maxcstate,
      ((next : Int) = s + 1 ∧ (next : Int) ≤ limit ∧ 0 < t next ∧ (t next : ℚ) ≤ d) ↔
        (next : Int) = s + 1 ∧ (next : Int) ≤ limit ∧ 0 < t' next ∧ (t' next : ℚ) ≤ d := by
    intro next
    apply and_congr_right
    intro heq
    rw [hnext next heq]
  simp only [verdict, hs, hiff]

end Verdict

section OneRecord

variable {copied : Fin maxcstate → Prop} {top top' : Fin maxcstate → ℚ}
  {r c r' c' : CpuidleCstates} {time : ℚ} {i : Fin maxcstate}

theorem Lockstep.setCstate (h : Lockstep copied r c) {a b : CpuidleCstate}
    (hab : Shadows (copied i) (∀ j : Fin maxcstate, (j : Int) = i + 1 → copied j) a b)
    (j : Fin maxcstate) :
    Shadows (copied j) (∀ k : Fin maxcstate, (k : Int) = j + 1 → copied k)
      ((r.setCstate i a).cstate j) ((c.setCstate i b).cstate j) := by
  by_cases hj : j = i
  · subst hj
    simpa using hab
  · rw [setCstate_of_ne hj, setCstate_of_ne hj]
    exact h.cstate j

theorem Lockstep.targets (h : Lockstep copied r c) (hi : copied i) :
    targets r i = targets c i :=
  (h.cstate i).target hi

theorem cstateBegin_lockstep (h : Lockstep copied r c) {state : Int}
    (hr : cstateBegin time state r = .ok r') (hc : cstateBegin time state c = .ok c') :
    Lockstep copied r' c' := by
  obtain ⟨i, hi, hr⟩ := Runs.bind_eq_ok hr
  obtain ⟨j, hj, hc⟩ := Runs.bind_eq_ok hc
  obtain rfl : i = j := Except.ok.inj (hi.symm.trans hj)
  obtain rfl := Except.ok.inj hr
  obtain rfl := Except.ok.inj hc
  constructor
  · rfl
  · simp only [h.cstateMax]
  · apply h.setCstate
    apply (h.cstate i).setData
    rw [(h.cstate i).data, (h.cstate i).nrdata]

theorem cstateEnd_lockstep (h : Lockstep copied r c) (hrok : RecordOk top r)
    (hcok : RecordOk top' c) (hr : cstateEnd time r = .ok r') (hc : cstateEnd time c = .ok c') :
    Lockstep copied r' c' := by
  obtain ⟨i, hi, hr⟩ := Runs.bind_eq_ok hr
  obtain ⟨j, hj, hc⟩ := Runs.bind_eq_ok hc
  obtain rfl : i = j := by
    rw [h.current] at hi
    exact Except.ok.inj (hi.symm.trans hj)
  have hslots : (r.cstate i).data[(r.cstate i).nrdata]? =
      (c.cstate i).data[(c.cstate i).nrdata]? := by
    rw [(h.cstate i).data, (h.cstate i).nrdata]
  have hset : ∀ slot, (r.cstate i).data.set (r.cstate i).nrdata slot =
      (c.cstate i).data.set (c.cstate i).nrdata slot := by
    intro slot
    rw [(h.cstate i).data, (h.cstate i).nrdata]
  cases hslot : (c.cstate i).data[(c.cstate i).nrdata]? with
  | none =>
    simp only [hslot] at hc
    cases hc
  | some slot =>
    simp only [hslots, hslot, actualResidency_eq hrok.cstateMax, actualResidency_eq hcok.cstateMax,
      bind, Except.bind] at hr hc
    by_cases hpos : time - slot.beginTime ≤ 0
    · simp only [hpos, if_true] at hr hc
      obtain rfl := Except.ok.inj hr
      obtain rfl := Except.ok.inj hc
      exact ⟨rfl, h.cstateMax, h.setCstate ((h.cstate i).setData (hset _))⟩
    · simp only [hpos, if_false] at hr hc
      obtain rfl := Except.ok.inj hr
      obtain rfl := Except.ok.inj hc
      refine ⟨rfl, h.cstateMax, h.setCstate ((h.cstate i).commit _ ?_ ?_)⟩
      · intro hcopied
        rw [verdict_tooShort_iff, verdict_tooShort_iff, h.targets hcopied]
      · intro hcopied hnext
        rw [h.cstateMax]
        exact verdict_congr_targets (h.targets hcopied) fun next heq => h.targets (hnext next heq)

theorem recordCstateEvent_lockstep (h : Lockstep copied r c) (hrok : RecordOk top r)
    (hcok : RecordOk top' c) {state : Int} (hr : recordCstateEvent r time state = .ok r')
    (hc : recordCstateEvent c time state = .ok c') : Lockstep copied r' c' := by
  by_cases hsame : state = c.currentCstate
  · subst hsame
    have hrsame := recordCstateEvent_same r time
    rw [h.current] at hrsame
    obtain rfl := Except.ok.inj (hrsame.symm.trans hr)
    obtain rfl := Except.ok.inj ((recordCstateEvent_same c time).symm.trans hc)
    exact h
  · rw [recordCstateEvent_of_ne (h.current ▸ hsame), h.current] at hr
    rw [recordCstateEvent_of_ne hsame] at hc
    obtain ⟨rEnded, hrEnd, hr⟩ := Runs.bind_eq_ok hr
    obtain ⟨cEnded, hcEnd, hc⟩ := Runs.bind_eq_ok hc
    have hended : Lockstep copied rEnded cEnded := by
      by_cases hnone : c.currentCstate = -1
      · simp only [hnone, ne_eq, not_true_eq_false, if_false] at hrEnd hcEnd
        obtain rfl := Except.ok.inj hrEnd
        obtain rfl := Except.ok.inj hcEnd
        exact h
      · simp only [ne_eq, hnone, not_false_eq_true, if_true] at hrEnd hcEnd
        exact cstateEnd_lockstep h hrok hcok hrEnd hcEnd
    by_cases hleave : state = -1
    · simp only [hleave, ne_eq, not_true_eq_false, if_false] at hr hc
      obtain rfl := Except.ok.inj hr
      obtain rfl := Except.ok.inj hc
      exact hended
    · simp only [ne_eq, hleave, not_false_eq_true, if_true] at hr hc
      exact cstateBegin_lockstep hended hr hc

theorem Lockstep.mirrors (h : Lockstep copied r c) (hall : ∀ i, copied i) : Mirrors r c where
  current := h.current
  cstateMax := h.cstateMax
  cstate := fun i =>
    have hstate := h.cstate i
    ⟨hstate.nrdata, hstate.duration, hstate.minTime (hall i), hstate.maxTime, hstate.avgTime,
      hstate.early (hall i), hstate.late (hall i) fun j _ => hall j⟩

end OneRecord

section Created

variable {datas datas' : CpuidleDatas} {physicalId : Int} {cores cores' : List CpuCore}
  {phys phys' : List CpuPhysical}

/-- The cluster's record is a copy of a copy. -/
theorem createStates_createStates (source : Fin maxcstate → CpuidleCstate) :
    createStates (createStates source).cstate = createStates source := by
  have hstate : (createStates (createStates source).cstate).cstate =
      (createStates source).cstate := by
    funext i
    simp only [createStates]
    cases hname : (source i).name <;> simp [callocCstate]
  simp only [createStates] at hstate ⊢
  rw [hstate]

def CpusPointed (core : CpuCore) : Prop :=
  ∀ cpu ∈ core.cpuHead, cpu.cstates = some (.percpu cpu.cpuId)

theorem createCoreStates_solo {core : CpuCore} {cpu : Int} (hcpu : CpusPointed core)
    (hsolo : coreIds core = [cpu]) :
    createCoreStates datas core = .ok (createStates (datas.cstates (.percpu cpu)).cstate) := by
  obtain ⟨node, hhead, rfl⟩ := List.map_eq_singleton_iff.mp hsolo
  have hpointer : node.cstates = some (.percpu node.cpuId) := hcpu node (by simp [hhead])
  simp only [createCoreStates, hhead, hpointer]
  rfl

theorem setupCores_created (h : setupCores physicalId datas cores = .ok (datas', cores'))
    (hids : (cores.map CpuCore.coreId).Nodup) (hcpu : ∀ core ∈ cores, CpusPointed core) :
    cores' = cores.map (setCorePointer physicalId) ∧
      (∀ ref, (∀ core ∈ cores, ref ≠ .core physicalId core.coreId) →
        datas'.cstates ref = datas.cstates ref) ∧
      ∀ core ∈ cores, ∀ cpu, coreIds core = [cpu] →
        datas'.cstates (.core physicalId core.coreId) =
          createStates (datas.cstates (.percpu cpu)).cstate := by
  induction cores generalizing datas cores' with
  | nil =>
    obtain ⟨rfl, rfl⟩ := Prod.mk.inj (Except.ok.inj h)
    exact ⟨rfl, fun _ _ => rfl, by simp⟩
  | cons core rest ih =>
    obtain ⟨states, hcreate, h⟩ := Runs.bind_eq_ok h
    obtain ⟨⟨next, rest'⟩, hrest, h⟩ := Runs.bind_eq_ok h
    obtain ⟨rfl, rfl⟩ := Prod.mk.inj (Except.ok.inj h)
    obtain ⟨hnew, hids⟩ := List.nodup_cons.mp hids
    obtain ⟨hcores, hothers, hsolo⟩ := ih hrest hids fun c hc => hcpu c (by simp [hc])
    refine ⟨by rw [hcores]; rfl, ?_, ?_⟩
    · intro ref href
      have hne : ref ≠ .core physicalId core.coreId := href core (by simp)
      rw [hothers ref fun c hc => href c (by simp [hc])]
      simp [CpuidleDatas.setCstates, hne]
    · intro c hc cpu hone
      cases hc with
      | head =>
        have hlater : ∀ c ∈ rest, RecordRef.core physicalId core.coreId ≠
            .core physicalId c.coreId := by
          intro c hc heq
          exact hnew (List.mem_map.mpr ⟨c, hc, (RecordRef.core.inj heq).2.symm⟩)
        rw [createCoreStates_solo (hcpu core (by simp)) hone] at hcreate
        rw [hothers _ hlater, ← Except.ok.inj hcreate]
        simp [CpuidleDatas.setCstates]
      | tail _ hc =>
        rw [hsolo c hc cpu hone]
        simp [CpuidleDatas.setCstates]

theorem setupClusters_created (h : setupClusters datas phys = .ok (datas', phys'))
    (hids : (phys.map CpuPhysical.physicalId).Nodup)
    (hcoreIds : ∀ phy ∈ phys, (phy.coreHead.map CpuCore.coreId).Nodup)
    (hcpu : ∀ phy ∈ phys, ∀ core ∈ phy.coreHead, CpusPointed core) :
    phys' = phys.map setClusterPointers ∧
      (∀ ref, (∀ phy ∈ phys, ref ≠ .cluster phy.physicalId ∧
        ∀ coreId, ref ≠ .core phy.physicalId coreId) → datas'.cstates ref = datas.cstates ref) ∧
      ∀ phy ∈ phys, ∀ core ∈ phy.coreHead, ∀ cpu, coreIds core = [cpu] →
        datas'.cstates (.core phy.physicalId core.coreId) =
            createStates (datas.cstates (.percpu cpu)).cstate ∧
          (phy.coreHead = [core] → datas'.cstates (.cluster phy.physicalId) =
            createStates (datas.cstates (.percpu cpu)).cstate) := by
  induction phys generalizing datas phys' with
  | nil =>
    obtain ⟨rfl, rfl⟩ := Prod.mk.inj (Except.ok.inj h)
    exact ⟨rfl, fun _ _ => rfl, by simp⟩
  | cons phy rest ih =>
    obtain ⟨⟨cored, cores⟩, hsetup, h⟩ := Runs.bind_eq_ok h
    obtain ⟨states, hcreate, h⟩ := Runs.bind_eq_ok h
    obtain ⟨⟨next, rest'⟩, hrest, h⟩ := Runs.bind_eq_ok h
    obtain ⟨rfl, rfl⟩ := Prod.mk.inj (Except.ok.inj h)
    obtain ⟨hnew, hids⟩ := List.nodup_cons.mp hids
    obtain ⟨rfl, hcoreOthers, hcoreSolo⟩ := setupCores_created hsetup (hcoreIds phy (by simp))
      (hcpu phy (by simp))
    obtain ⟨hphys, hothers, hsolo⟩ := ih hrest hids (fun p hp => hcoreIds p (by simp [hp]))
      fun p hp => hcpu p (by simp [hp])
    have hne : ∀ p ∈ rest, phy.physicalId ≠ p.physicalId := fun p hp heq =>
      hnew (List.mem_map.mpr ⟨p, hp, heq.symm⟩)
    have hlaterCluster : next.cstates (.cluster phy.physicalId) = states := by
      rw [hothers _ fun p hp => ⟨by simpa using hne p hp, by simp⟩]
      simp [CpuidleDatas.setCstates]
    have hlaterCore : ∀ coreId, next.cstates (.core phy.physicalId coreId) =
        cored.cstates (.core phy.physicalId coreId) := by
      intro coreId
      rw [hothers _ fun p hp => ⟨by simp, by simpa using fun heq => absurd heq (hne p hp)⟩]
      simp [CpuidleDatas.setCstates]
    have hpercpu : ∀ cpu, cored.cstates (.percpu cpu) = datas.cstates (.percpu cpu) := fun cpu =>
      hcoreOthers _ (by simp)
    refine ⟨by rw [hphys]; rfl, ?_, ?_⟩
    · intro ref href
      obtain ⟨hcluster, hcore⟩ := href phy (by simp)
      rw [hothers ref fun p hp => href p (by simp [hp])]
      simp only [CpuidleDatas.setCstates, ne_eq, hcluster, not_false_eq_true,
        Function.update_of_ne]
      exact hcoreOthers ref fun c _ => hcore c.coreId
    · intro p hp core hcore cpu hone
      cases hp with
      | head =>
        have hcopy : next.cstates (.core phy.physicalId core.coreId) =
            createStates (datas.cstates (.percpu cpu)).cstate := by
          rw [hlaterCore, hcoreSolo core hcore cpu hone]
        refine ⟨hcopy, ?_⟩
        intro honly
        have hfirst : createClusterStates cored
            { phy with coreHead := phy.coreHead.map (setCorePointer phy.physicalId) } =
            .ok (createStates (cored.cstates (.core phy.physicalId core.coreId)).cstate) := by
          simp only [createClusterStates, honly, List.map_cons, setCorePointer]
          rfl
        rw [hlaterCluster, ← Except.ok.inj (hfirst.symm.trans hcreate),
          hcoreSolo core hcore cpu hone, createStates_createStates]
      | tail _ hp =>
        have hboth := hsolo p hp core hcore cpu hone
        simpa [CpuidleDatas.setCstates, hpercpu] using hboth

end Created

section Start

variable {start : CpuidleDatas} {ref : RecordRef} {cpu nrcpus : Int}

/-- What a group of one CPU is in the tree. -/
theorem mem_groups_solo {topo : CpuTopology} (hshape : TopoShape topo)
    (hgroup : (ref, [cpu]) ∈ groups topo) :
    ∃ phy ∈ topo.physicalHead, ∃ core ∈ phy.coreHead, coreIds core = [cpu] ∧
      (ref = .core phy.physicalId core.coreId ∨
        phy.coreHead = [core] ∧ ref = .cluster phy.physicalId) := by
  obtain ⟨phy, hphy, ⟨href, hmembers⟩ | ⟨core, hcore, href, hmembers⟩⟩ := mem_groups.mp hgroup
  · have hne : ∀ core ∈ phy.coreHead, coreIds core ≠ [] := by
      intro core hcore
      simpa [coreIds] using hshape.coresInhabited phy hphy core hcore
    -- no second core, since each has a CPU
    obtain ⟨core, rest, hhead⟩ :=
      List.exists_cons_of_ne_nil (hshape.clustersInhabited phy hphy)
    cases rest with
    | nil =>
      have hids : coreIds core = [cpu] := by simpa [clusterIds, hhead] using hmembers.symm
      exact ⟨phy, hphy, core, by simp [hhead], hids, .inr ⟨hhead, href⟩⟩
    | cons core' rest =>
      have hlength := congrArg List.length hmembers
      have hfirst := List.length_pos_iff.mpr (hne core (by simp [hhead]))
      have hsecond := List.length_pos_iff.mpr (hne core' (by simp [hhead]))
      simp only [clusterIds, hhead, List.flatMap_cons, List.length_append, List.length_cons,
        List.length_nil] at hlength
      omega
  · exact ⟨phy, hphy, core, hcore, hmembers.symm, .inl href⟩

theorem group_created {infos : List TopologyInfo} {loader : Loader}
    {info : Int → Fin maxcstate → CstateInfo} (hmachine : Machine nrcpus infos)
    (hfresh : freshDatas loader nrcpus info infos = .ok start)
    (hgroup : (ref, [cpu]) ∈ groups start.topo) :
    start.cstates (.percpu cpu) = buildCstateInfo (info cpu) ∧
      start.cstates ref = createStates (buildCstateInfo (info cpu)).cstate := by
  obtain ⟨topo, hbuilt, hwf, hhas⟩ := addTopoInfos_spec hmachine.nonNegative
  have hrange := hmachine.range hhas
  have hunique := hmachine.unique hwf hhas
  have hshape := TopoWf.shape hwf
  simp only [freshDatas, hbuilt, bind, Except.bind] at hfresh
  obtain ⟨mapped, hmap, hsetup⟩ := Runs.bind_eq_ok hfresh
  obtain rfl : mapTopo (mapBelow nrcpus) topo = mapped :=
    Except.ok.inj ((mapCpuStates_below hwf hunique hrange).symm.trans hmap)
  obtain ⟨⟨created, phys⟩, hclusters, hstart⟩ := Runs.bind_eq_ok hsetup
  have hpointed : ∀ phy ∈ (mapTopo (mapBelow nrcpus) topo).physicalHead,
      ∀ core ∈ phy.coreHead, CpusPointed core := by
    refine List.forall_mem_map.mpr fun phy hphy => List.forall_mem_map.mpr fun core hcore => ?_
    refine List.forall_mem_map.mpr fun node hnode => ?_
    have hbelow := (hrange _ (cpuId_mem_cpuIds hphy hcore hnode)).2
    simp [mapBelow, hbelow, mapCpuNode]
  have hids : ((mapTopo (mapBelow nrcpus) topo).physicalHead.map CpuPhysical.physicalId).Nodup := by
    simpa [mapTopo, mapCluster, Function.comp_def] using hshape.clusters
  have hcoreIds : ∀ phy ∈ (mapTopo (mapBelow nrcpus) topo).physicalHead,
      (phy.coreHead.map CpuCore.coreId).Nodup := by
    refine List.forall_mem_map.mpr fun phy hphy => ?_
    simpa [mapCluster, mapCore, Function.comp_def] using hshape.cores phy hphy
  obtain ⟨rfl, hothers, hsolo⟩ := setupClusters_created hclusters hids hcoreIds hpointed
  obtain rfl := Except.ok.inj hstart
  have hgroup' : (ref, [cpu]) ∈ groups (setPointers nrcpus topo) := hgroup
  have honline : cpu ∈ cpuIds topo := by
    rw [← cpuIds_setPointers]
    exact mem_cpuIds_of_group hgroup' (by simp)
  have hrecord : (loadedDatas loader nrcpus topo info).cstates (.percpu cpu) =
      buildCstateInfo (info cpu) := by
    cases loader with
    | native =>
      obtain ⟨online, hcall, hiff⟩ := onlineExact_of_wf hwf cpu (hrange cpu honline).1
      have htrue : online = true := hiff.mpr honline
      simp [loadedDatas, cpuRecord, loadAndBuildCstateInfo, hcall, htrue, Except.toOption]
    | sysfs => rfl
  obtain ⟨phy', hphy', core', hcore', hone, hwhere⟩ :=
    mem_groups_solo (setPointers_shape hshape) hgroup'
  obtain ⟨phy, hphy, rfl⟩ := List.mem_map.mp hphy'
  obtain ⟨core, hcore, rfl⟩ := List.mem_map.mp hcore'
  obtain ⟨hcoreRecord, hclusterRecord⟩ := hsolo phy hphy core hcore cpu hone
  refine ⟨(hothers _ (by simp)).trans hrecord, ?_⟩
  rw [← hrecord]
  cases hwhere with
  | inl href =>
    rw [href]
    exact hcoreRecord
  | inr hcluster =>
    rw [hcluster.2]
    apply hclusterRecord
    obtain ⟨only, hhead, -⟩ := List.map_eq_singleton_iff.mp hcluster.1
    rw [hhead] at hcore ⊢
    rw [List.mem_singleton.mp hcore]

/-- The states that `create_states` copied. -/
def Named (r : CpuidleCstates) (i : Fin maxcstate) : Prop :=
  (r.cstate i).name.isSome

instance (r : CpuidleCstates) (i : Fin maxcstate) : Decidable (Named r i) := by
  unfold Named
  infer_instance

theorem created_lockstep (info : Fin maxcstate → CstateInfo) :
    Lockstep (Named (buildCstateInfo info)) (createStates (buildCstateInfo info).cstate)
      (buildCstateInfo info) := by
  refine ⟨rfl, rfl, fun i => ?_⟩
  cases hname : (info i).name with
  | none =>
    have hunnamed : ¬ Named (buildCstateInfo info) i := by
      simp [Named, buildCstateInfo, initCstate, hname]
    constructor
    all_goals first
      | exact fun h => absurd h hunnamed
      | simp [createStates, buildCstateInfo, initCstate, hname, callocCstate]
  | some name =>
    constructor <;> simp [createStates, buildCstateInfo, initCstate, hname, callocCstate]

/-- A state without a name keeps the `min_time` of `calloc`. -/
theorem named_of_mirrors {info : Fin maxcstate → CstateInfo}
    (h : Mirrors (createStates (buildCstateInfo info).cstate) (buildCstateInfo info))
    (i : Fin maxcstate) : Named (buildCstateInfo info) i := by
  by_contra hunnamed
  have hname : (info i).name = none := by
    simpa [Named, buildCstateInfo, initCstate] using hunnamed
  have hmin := (h.cstate i).minTime
  simp only [createStates, buildCstateInfo, initCstate, hname, callocCstate] at hmin
  exact absurd hmin (by decide +kernel)

end Start

section Run

variable {datas datas' : CpuidleDatas} {ref : RecordRef} {cpu : Int} {event : PowerEvent}
  {phy : CpuPhysical} {core : CpuCore} {copied : Fin maxcstate → Prop}

theorem effect_lockstep (hready : Ready datas) (hvalid : ValidEvent datas.topo event)
    (hgroup : (ref, [cpu]) ∈ groups datas.topo) (hl : Located datas.topo event.cpu phy core)
    (heffect : Effect datas phy core event datas')
    (h : Lockstep copied (datas.cstates ref) (datas.cstates (.percpu cpu))) :
    Lockstep copied (datas'.cstates ref) (datas'.cstates (.percpu cpu)) := by
  have hm := hready.mapped
  obtain ⟨top, hrok⟩ := hready.cstates ref
  obtain ⟨top', hcok⟩ := hready.cstates (.percpu cpu)
  cases heffect with
  | ignored => exact h
  | changed => exact h
  | @stored time state c _ _ hstored =>
    have hiff := hl.mem_groups_iff hm hgroup
    by_cases hcpu : cpu = c
    · subst hcpu
      have hcurrent : currentCstates datas' cpu = state := hstored.current hready hvalid.1
      have hleast : least (currentCstates datas') [cpu] = state := by
        rw [least_singleton (hcurrent ▸ hvalid.1), hcurrent]
      have hgroupCall : recordCstateEvent (datas.cstates ref) time state =
          .ok (datas'.cstates ref) := by
        cases hiff.mp (List.mem_singleton.mpr rfl) with
        | inl href =>
          subst href
          rw [← hleast, hm.group_unique hgroup hl.cluster_group]
          exact hstored.atCluster
        | inr href =>
          subst href
          rw [← hleast, hm.group_unique hgroup hl.core_group]
          exact hstored.atCore
      exact recordCstateEvent_lockstep h hrok hcok hgroupCall hstored.atCpu
    · have hnot : c ∉ [cpu] := fun hmem => hcpu (List.mem_singleton.mp hmem).symm
      obtain ⟨hcluster, hcore⟩ := not_or.mp (hiff.not.mp hnot)
      have hpercpu : ref ≠ .percpu c := fun href => percpu_not_group (href ▸ hgroup)
      have hown : RecordRef.percpu cpu ≠ .percpu c := fun href => hcpu (RecordRef.percpu.inj href)
      rw [hstored.others ref hpercpu hcore hcluster,
        hstored.others (.percpu cpu) hown (by simp) (by simp)]
      exact h

variable {start : CpuidleDatas} {events : List PowerEvent}

theorem lockstep_always (h : Loaded start)
    (hvalid : ∀ event ∈ events, ValidEvent start.topo event)
    (hgroup : (ref, [cpu]) ∈ groups start.topo) :
    Runs.Always step (fun _ datas =>
      Lockstep (Named (start.cstates (.percpu cpu))) (datas.cstates ref)
        (datas.cstates (.percpu cpu))) start events := by
  have hstart : Lockstep (Named (start.cstates (.percpu cpu))) (start.cstates ref)
      (start.cstates (.percpu cpu)) := by
    obtain ⟨infos, loader, info, hmachine, hfresh⟩ := h
    obtain ⟨hcpu, href⟩ := group_created hmachine hfresh hgroup
    rw [hcpu, href]
    exact created_lockstep (info cpu)
  have halways : Runs.Always step (fun _ datas => ReadyOn start.topo start.nrcpus datas ∧
      Lockstep (Named (start.cstates (.percpu cpu))) (datas.cstates ref)
        (datas.cstates (.percpu cpu))) start events := by
    apply Runs.always_of_invariant
    · exact ⟨⟨ready_of_started h.started, rfl, rfl⟩, hstart⟩
    · intro past event rest datas hsplit hinv
      have hevent := hvalid event (by simp [hsplit])
      obtain ⟨phy, core, datas', hl, hstep, hready, heffect⟩ := hinv.1.next hevent
      refine ⟨datas', hstep, hready, ?_⟩
      obtain ⟨hnow, htopo, -⟩ := hinv.1
      exact effect_lockstep hnow (htopo ▸ hevent) (htopo ▸ hgroup) (htopo ▸ hl) heffect hinv.2
  exact fun past rest datas hsplit hrun => (halways past rest datas hsplit hrun).2

end Run

/-- At every point of every run the record of a group of one CPU reads like the
CPU's exactly when all of the CPU's states have names. Whatever the names, the
two never differ in more than what `create_states` did not copy. -/
theorem solo_group_mirrors {start : CpuidleDatas} (h : Loaded start) {events : List PowerEvent}
    (hvalid : ∀ event ∈ events, ValidEvent start.topo event) {ref : RecordRef} {cpu : Int}
    (hgroup : (ref, [cpu]) ∈ groups start.topo) :
    (∃ final, Runs.run step start events = .ok final) ∧
      (Runs.Always step (fun _ datas => Mirrors (datas.cstates ref) (datas.cstates (.percpu cpu)))
          start events ↔
        ∀ i, ((start.cstates (.percpu cpu)).cstate i).name.isSome) ∧
      Runs.Always step (fun _ datas =>
        Lockstep (Named (start.cstates (.percpu cpu))) (datas.cstates ref)
          (datas.cstates (.percpu cpu))) start events := by
  have hlockstep := lockstep_always h hvalid hgroup
  refine ⟨run_total h hvalid, ⟨?_, ?_⟩, hlockstep⟩
  · intro hmirrors
    obtain ⟨infos, loader, info, hmachine, hfresh⟩ := h
    obtain ⟨hcpu, href⟩ := group_created hmachine hfresh hgroup
    have hstart : Mirrors (start.cstates ref) (start.cstates (.percpu cpu)) :=
      hmirrors [] events start rfl rfl
    rw [hcpu, href] at hstart
    rw [hcpu]
    exact named_of_mirrors hstart
  · intro hall past rest datas hsplit hrun
    exact (hlockstep past rest datas hsplit hrun).mirrors hall

def oneInfos : List TopologyInfo :=
  [{ physicalId := 0, coreId := 0, cpuId := 0 }]

theorem oneInfos_machine : Machine 1 oneInfos where
  nonNegative := by simp [oneInfos, NonNegative]
  below := by simp [oneInfos]
  once := by simp [oneInfos]

/-- A machine of one CPU whose states all have this name. -/
def oneDatas (name : Option (List Char)) : CpuidleDatas :=
  machineDatas .sysfs 1 (fun _ _ => { name := name, targetResidency := 1 }) oneInfos

theorem oneDatas_loaded (name : Option (List Char)) : Loaded (oneDatas name) :=
  machineDatas_loaded .sysfs _ oneInfos_machine

def idleSecond : List PowerEvent :=
  [.storeData 0 1 0, .storeData 1 (-1) 0]

theorem solo_group_mirrors_named :
    Runs.Always step (fun _ datas =>
        Mirrors (datas.cstates (.core 0 0)) (datas.cstates (.percpu 0)))
      (oneDatas (some ['C'])) idleSecond := by
  have hvalid : ∀ event ∈ idleSecond, ValidEvent (oneDatas (some ['C'])).topo event := by
    decide +kernel
  have hgroup : (RecordRef.core 0 0, [0]) ∈ groups (oneDatas (some ['C'])).topo := by
    decide +kernel
  have hmirrors := (solo_group_mirrors (oneDatas_loaded (some ['C'])) hvalid hgroup).2.1
  exact hmirrors.mpr (by decide +kernel)

/-- After one second in a state without a name, the shortest period is one
second for the CPU and 0 for its core. -/
theorem solo_group_differs :
    Loaded (oneDatas none) ∧ (∀ event ∈ idleSecond, ValidEvent (oneDatas none).topo event) ∧
      (.core 0 0, [0]) ∈ groups (oneDatas none).topo ∧
      ∃ datas, Runs.run step (oneDatas none) idleSecond = .ok datas ∧
        ((datas.cstates (.percpu 0)).cstate 1).minTime = 1000000 ∧
        ((datas.cstates (.core 0 0)).cstate 1).minTime = 0 ∧
        ¬ Mirrors (datas.cstates (.core 0 0)) (datas.cstates (.percpu 0)) := by
  refine ⟨oneDatas_loaded none, by decide +kernel, by decide +kernel, ?_⟩
  obtain ⟨datas, hrun, hmin⟩ : ∃ datas, Runs.run step (oneDatas none) idleSecond = .ok datas ∧
      (((datas.cstates (.percpu 0)).cstate 1).minTime,
        ((datas.cstates (.core 0 0)).cstate 1).minTime) = (1000000, 0) :=
    Runs.map_eq_ok (by decide +kernel)
  obtain ⟨hcpu, hcore⟩ := Prod.mk.inj hmin
  refine ⟨datas, hrun, hcpu, hcore, ?_⟩
  intro h
  have hsame := (h.cstate 1).minTime
  rw [hcpu, hcore] at hsame
  exact absurd hsame (by norm_num)

end Idlestat.Theory.SoloGroup
