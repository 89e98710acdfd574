import Idlestat.Library.Interleaving
import Idlestat.Theory.TraceEvents

/-! The footprint of an event is the part of the records that belongs to the
cluster of its CPU. Events of different clusters therefore commute, and a trace
may interleave its clusters in any way. -/
namespace Idlestat.Theory.ClusterCommute

open Idlestat.Library Idlestat.Library.Interleaving Idlestat.Model.Topology
  Idlestat.Model.Cstates Idlestat.Model.Pstates Idlestat.Model.Recorder
  Idlestat.Model.TraceLine Idlestat.Model.Loaders Idlestat.Theory.CstateRecord
  Idlestat.Theory.Nodes Idlestat.Theory.TopologyCanonical Idlestat.Theory.Setup
  Idlestat.Theory.RecorderSteps Idlestat.Theory.TraceEvents

def recordAt (datas : CpuidleDatas) (ref : RecordRef) : CpuidleCstates × CpufreqPstates :=
  (datas.cstates ref, datas.pstates ref)

def clusterRegion (phy : CpuPhysical) : Set RecordRef :=
  {ref | match ref with
    | .percpu cpu => cpu ∈ clusterIds phy
    | .core physicalId _ => physicalId = phy.physicalId
    | .cluster physicalId => physicalId = phy.physicalId}

section Region

variable {nrcpus : Int} {topo : CpuTopology} {phy phy' : CpuPhysical} {core : CpuCore}
  {cpu : Int} {ref : RecordRef}

@[simp] theorem coreRef_mem_clusterRegion : coreRef phy core ∈ clusterRegion phy := rfl

@[simp] theorem clusterRef_mem_clusterRegion : clusterRef phy ∈ clusterRegion phy := rfl

theorem clusterRegion_disjoint (hm : Mapped nrcpus topo) (hphy : phy ∈ topo.physicalHead)
    (hphy' : phy' ∈ topo.physicalHead) (hne : phy ≠ phy') :
    ∀ ref ∈ clusterRegion phy, ref ∉ clusterRegion phy' := by
  have hid : phy.physicalId ≠ phy'.physicalId :=
    fun heq => hne (List.inj_on_of_nodup_map hm.shape.clusters hphy hphy' heq)
  intro ref href href'
  cases ref with
  | percpu cpu => exact hne (eq_of_flatMap_nodup hm.unique hphy hphy' href href')
  | core physicalId coreId => exact hid (href.symm.trans href')
  | cluster physicalId => exact hid (href.symm.trans href')

end Region

section Tables

variable {phy : CpuPhysical} {core : CpuCore} {cpu : Int} {time : ℚ} {p q : PstateTable}

def SameTable (phy : CpuPhysical) (p q : PstateTable) : Prop :=
  ∀ ref ∈ clusterRegion phy, p ref = q ref

theorem SameTable.update (h : SameTable phy p q) (ref : RecordRef) (ps : CpufreqPstates) :
    SameTable phy (Function.update p ref ps) (Function.update q ref ps) := by
  intro ref' href'
  by_cases heq : ref' = ref
  · subst heq
    simp
  · simp [heq, h ref' href']

theorem SameTable.composed (h : SameTable phy p q) (hcore : core ∈ phy.coreHead) (time : ℚ) :
    SameTable phy (composed phy core time p) (composed phy core time q) := by
  have hcoreHighest : coreHighest p core = coreHighest q core := by
    apply greatest_congr
    intro c hc
    rw [h (.percpu c) (List.mem_flatMap.mpr ⟨core, hcore, hc⟩)]
  have hclusterHighest : clusterHighest p phy = clusterHighest q phy := by
    apply greatest_congr
    intro c hc
    rw [h (.percpu c) hc]
  unfold RecorderSteps.composed
  rw [hcoreHighest, hclusterHighest, h (coreRef phy core) rfl, h (clusterRef phy) rfl]
  exact (h.update _ _).update _ _

theorem SameTable.changed (h : SameTable phy p q) (hcore : core ∈ phy.coreHead)
    (hcpu : cpu ∈ clusterIds phy) (freq : Nat) (time : ℚ) :
    SameTable phy (changedTable p phy core cpu freq time)
      (changedTable q phy core cpu freq time) := by
  have hown := h (.percpu cpu) hcpu
  unfold changedTable
  rw [hown]
  split
  · exact h.update _ _
  · exact (h.update _ _).composed hcore time

theorem SameTable.stored (h : SameTable phy p q) (hcore : core ∈ phy.coreHead)
    (hcpu : cpu ∈ clusterIds phy) (state : Int) (time : ℚ) :
    SameTable phy (storedTable p phy core cpu state time)
      (storedTable q phy core cpu state time) := by
  have hown := h (.percpu cpu) hcpu
  unfold storedTable
  rw [hown]
  split
  · exact h
  · exact (h.update _ _).composed hcore time

theorem composed_outside {ref : RecordRef} (href : ref ∉ clusterRegion phy) :
    composed phy core time p ref = p ref := by
  apply composed_other
  · intro heq
    exact href (heq ▸ coreRef_mem_clusterRegion)
  · intro heq
    exact href (heq ▸ clusterRef_mem_clusterRegion)

private theorem update_outside {ref : RecordRef} (hcpu : cpu ∈ clusterIds phy)
    (href : ref ∉ clusterRegion phy) (ps : CpufreqPstates) :
    Function.update p (.percpu cpu) ps ref = p ref := by
  apply Function.update_of_ne
  intro heq
  exact href (heq ▸ hcpu)

theorem changedTable_outside {ref : RecordRef} (hcpu : cpu ∈ clusterIds phy)
    (href : ref ∉ clusterRegion phy) (freq : Nat) :
    changedTable p phy core cpu freq time ref = p ref := by
  unfold changedTable
  split
  · exact update_outside hcpu href _
  · exact (composed_outside href).trans (update_outside hcpu href _)

theorem storedTable_outside {ref : RecordRef} (hcpu : cpu ∈ clusterIds phy)
    (href : ref ∉ clusterRegion phy) (state : Int) :
    storedTable p phy core cpu state time ref = p ref := by
  unfold storedTable
  split
  · rfl
  · exact (composed_outside href).trans (update_outside hcpu href _)

end Tables

section Event

variable {nrcpus : Int} {topo : CpuTopology} {phy : CpuPhysical} {core : CpuCore} {cpu : Int}
  {state : Int} {time : ℚ} {s s' t t' : CpuidleDatas}

abbrev SameRecords (phy : CpuPhysical) (s t : CpuidleDatas) : Prop :=
  AgreeOn recordAt (clusterRegion phy) s t

theorem sameRecords_iff : SameRecords phy s t ↔
    (∀ ref ∈ clusterRegion phy, s.cstates ref = t.cstates ref) ∧
      SameTable phy s.pstates t.pstates := by
  simp only [SameRecords, AgreeOn, recordAt, SameTable, Prod.mk.injEq]
  exact ⟨fun h => ⟨fun ref href => (h ref href).1, fun ref href => (h ref href).2⟩,
    fun h ref href => ⟨h.1 ref href, h.2 ref href⟩⟩

theorem stored_outside (h : Stored s s' phy core cpu state time) (hcpu : cpu ∈ clusterIds phy)
    {ref : RecordRef} (href : ref ∉ clusterRegion phy) : recordAt s' ref = recordAt s ref := by
  have hcstates : s'.cstates ref = s.cstates ref := by
    apply h.others
    · exact fun heq => href (heq ▸ hcpu)
    · exact fun heq => href (heq ▸ coreRef_mem_clusterRegion)
    · exact fun heq => href (heq ▸ clusterRef_mem_clusterRegion)
  rw [recordAt, recordAt, hcstates, h.pstates, storedTable_outside hcpu href]

private theorem stored_currentCstates (hs : Stored s s' phy core cpu state time)
    (ht : Stored t t' phy core cpu state time)
    (hsame : ∀ ref ∈ clusterRegion phy, s.cstates ref = t.cstates ref)
    (hown : s'.cstates (.percpu cpu) = t'.cstates (.percpu cpu)) :
    ∀ c ∈ clusterIds phy, currentCstates s' c = currentCstates t' c := by
  intro c hc
  unfold currentCstates
  by_cases heq : c = cpu
  · rw [heq, hown]
  · have hne : RecordRef.percpu c ≠ .percpu cpu := by simpa using heq
    rw [hs.others _ hne (by simp) (by simp), ht.others _ hne (by simp) (by simp),
      hsame (.percpu c) hc]

theorem stored_determined (hs : Stored s s' phy core cpu state time)
    (ht : Stored t t' phy core cpu state time) (hl : Located topo cpu phy core)
    (hsame : SameRecords phy s t) : SameRecords phy s' t' := by
  obtain ⟨hcstates, hpstates⟩ := sameRecords_iff.mp hsame
  have hown : s'.cstates (.percpu cpu) = t'.cstates (.percpu cpu) := by
    have hs' := hs.atCpu
    rw [hcstates (.percpu cpu) hl.mem_clusterIds, ht.atCpu] at hs'
    exact (Except.ok.inj hs').symm
  have hcurrent := stored_currentCstates hs ht hcstates hown
  have hcore : s'.cstates (coreRef phy core) = t'.cstates (coreRef phy core) := by
    have hleast : least (currentCstates s') (coreIds core) =
        least (currentCstates t') (coreIds core) :=
      least_congr fun c hc => hcurrent c (List.mem_flatMap.mpr ⟨core, hl.core_mem, hc⟩)
    have hs' := hs.atCore
    rw [hcstates (coreRef phy core) rfl, hleast, ht.atCore] at hs'
    exact (Except.ok.inj hs').symm
  have hcluster : s'.cstates (clusterRef phy) = t'.cstates (clusterRef phy) := by
    have hs' := hs.atCluster
    rw [hcstates (clusterRef phy) rfl, least_congr hcurrent, ht.atCluster] at hs'
    exact (Except.ok.inj hs').symm
  apply sameRecords_iff.mpr
  constructor
  · intro ref href
    by_cases hcpu : ref = .percpu cpu
    · rw [hcpu, hown]
    · by_cases hcoreRef : ref = coreRef phy core
      · rw [hcoreRef, hcore]
      · by_cases hclusterRef : ref = clusterRef phy
        · rw [hclusterRef, hcluster]
        · rw [hs.others ref hcpu hcoreRef hclusterRef, ht.others ref hcpu hcoreRef hclusterRef,
            hcstates ref href]
  · rw [hs.pstates, ht.pstates]
    exact hpstates.stored hl.core_mem hl.mem_clusterIds state time

theorem ignored_iff (hsame : SameRecords phy s t) (hcpu : cpu ∈ clusterIds phy) :
    Ignored s cpu state ↔ Ignored t cpu state := by
  have hrecord := (sameRecords_iff.mp hsame).1 (.percpu cpu) hcpu
  unfold Ignored
  rw [hrecord]

section Power

variable {event : PowerEvent}

theorem effect_outside (h : Effect s phy core event s') (hl : Located topo event.cpu phy core)
    {ref : RecordRef} (href : ref ∉ clusterRegion phy) : recordAt s' ref = recordAt s ref := by
  cases h with
  | ignored => rfl
  | stored _ hstored => exact stored_outside hstored hl.mem_clusterIds href
  | changed =>
    rw [recordAt, recordAt]
    congr 1
    exact changedTable_outside hl.mem_clusterIds href _

theorem effect_determined (hs : Effect s phy core event s') (ht : Effect t phy core event t')
    (hl : Located topo event.cpu phy core) (hsame : SameRecords phy s t) :
    SameRecords phy s' t' := by
  cases hs with
  | @ignored time state cpu hignored =>
    cases ht with
    | ignored => exact hsame
    | stored hnot => exact absurd ((ignored_iff hsame hl.mem_clusterIds).mp hignored) hnot
  | @stored time state cpu s' hnot hstored =>
    cases ht with
    | ignored hignored => exact absurd ((ignored_iff hsame hl.mem_clusterIds).mpr hignored) hnot
    | stored _ hstored' => exact stored_determined hstored hstored' hl hsame
  | changed =>
    cases ht with
    | changed =>
      obtain ⟨hcstates, hpstates⟩ := sameRecords_iff.mp hsame
      apply sameRecords_iff.mpr
      exact ⟨hcstates, hpstates.changed hl.core_mem hl.mem_clusterIds _ _⟩

end Power

theorem power_footprint {event : PowerEvent} (hl : Located topo event.cpu phy core)
    (hvalid : ValidEvent topo event) :
    Footprint recordAt (ReadyOn topo nrcpus) (fun datas => step datas event)
      (clusterRegion phy) := by
  -- the handler's own search finds the same cluster and core
  have hnext : ∀ {s s' : CpuidleDatas}, ReadyOn topo nrcpus s → step s event = .ok s' →
      Effect s phy core event s' := by
    intro s s' hready hstep
    obtain ⟨phy', core', next, hl', hnext, -, heffect⟩ := hready.next hvalid
    obtain rfl : phy' = phy := Option.some.inj (hl'.cluster.symm.trans hl.cluster)
    obtain rfl : core' = core := Option.some.inj (hl'.core.symm.trans hl.core)
    obtain rfl : next = s' := Except.ok.inj (hnext.symm.trans hstep)
    exact heffect
  constructor
  · intro s hready
    obtain ⟨-, -, next, -, hstep, hready', -⟩ := hready.next hvalid
    exact ⟨next, hstep, hready'⟩
  · intro s s' hready hstep ref href
    exact effect_outside (hnext hready hstep) hl href
  · intro s s' t t' hs ht hsame hstep hstep'
    exact effect_determined (hnext hs hstep) (hnext ht hstep') hl hsame

theorem storeIrq_footprint (hl : Located topo cpu phy core) (irqid : Int) (irqname : List Char) :
    Footprint recordAt (ReadyOn topo nrcpus) (fun datas => storeIrq cpu irqid irqname datas)
      (clusterRegion phy) := by
  constructor
  · intro s hready
    exact ⟨_, storeIrq_eq hready hl.mem_cpuIds, storeIrq_ready hready⟩
  · intro s s' hready hstep ref href
    have hne : ref ≠ .percpu cpu := fun heq => href (heq ▸ hl.mem_clusterIds)
    rw [← Except.ok.inj ((storeIrq_eq hready hl.mem_cpuIds).symm.trans hstep)]
    simp [recordAt, CpuidleDatas.setCstates, hne]
  · intro s s' t t' hs ht hsame hstep hstep'
    obtain ⟨hcstates, hpstates⟩ := sameRecords_iff.mp hsame
    rw [← Except.ok.inj ((storeIrq_eq hs hl.mem_cpuIds).symm.trans hstep),
      ← Except.ok.inj ((storeIrq_eq ht hl.mem_cpuIds).symm.trans hstep')]
    apply sameRecords_iff.mpr
    refine ⟨fun ref href => ?_, hpstates⟩
    by_cases heq : ref = .percpu cpu
    · subst heq
      simp [CpuidleDatas.setCstates, hcstates (.percpu cpu) hl.mem_clusterIds]
    · simp [CpuidleDatas.setCstates, heq, hcstates ref href]

theorem traceStep_footprint {event : TraceEvent} (hl : Located topo event.cpu phy core)
    (hvalid : ValidCall topo event) :
    Footprint recordAt (ReadyOn topo nrcpus) (fun datas => traceStep datas event)
      (clusterRegion phy) := by
  cases event with
  | power event => exact power_footprint hl hvalid
  | storeIrq cpu irqid irqname => exact storeIrq_footprint hl irqid irqname

end Event

section Traces

variable {nrcpus : Int} {topo : CpuTopology} {datas : CpuidleDatas}

def clusterOf (topo : CpuTopology) (event : TraceEvent) : Option CpuPhysical :=
  cpuToCluster event.cpu topo

theorem traceStep_comm (h : ReadyOn topo nrcpus datas) {a b : TraceEvent}
    (ha : ValidCall topo a) (hb : ValidCall topo b) (hne : clusterOf topo a ≠ clusterOf topo b) :
    (traceStep datas a >>= fun datas' => traceStep datas' b) =
      (traceStep datas b >>= fun datas' => traceStep datas' a) := by
  have hm : Mapped nrcpus topo := by
    obtain ⟨hready, rfl, rfl⟩ := h
    exact hready.mapped
  obtain ⟨phy, core, hl⟩ := hm.located ha.cpu_mem
  obtain ⟨phy', core', hl'⟩ := hm.located hb.cpu_mem
  have hphy : phy ≠ phy' := by
    intro heq
    apply hne
    rw [clusterOf, clusterOf, hl.cluster, hl'.cluster, heq]
  apply Footprint.commute _ (traceStep_footprint hl ha) (traceStep_footprint hl' hb)
    (clusterRegion_disjoint hm hl.phy_mem hl'.phy_mem hphy) h
  intro s t hs ht hsame
  apply CpuidleDatas.ext
  · exact hs.nrcpus.trans ht.nrcpus.symm
  · funext ref
    exact congrArg Prod.fst (hsame ref)
  · funext ref
    exact congrArg Prod.snd (hsame ref)
  · exact hs.topo.trans ht.topo.symm

theorem run_interleaved (h : ReadyOn topo nrcpus datas) {first second : List TraceEvent}
    (hvalid : ∀ event ∈ first, ValidCall topo event)
    (hsame : SameProjections (clusterOf topo) first second) :
    ∃ final, Runs.run traceStep datas first = .ok final ∧
      Runs.run traceStep datas second = .ok final := by
  obtain ⟨final, hrun, -⟩ := traceRun_total h hvalid
  have heq : Runs.run traceStep datas first = Runs.run traceStep datas second := by
    have hkeep : ∀ s e s', ReadyOn topo nrcpus s → ValidCall topo e → traceStep s e = .ok s' →
        ReadyOn topo nrcpus s' := by
      intro s e s' hs he hstep
      obtain ⟨next, hnext, hready⟩ := traceStep_total hs he
      exact Except.ok.inj (hnext.symm.trans hstep) ▸ hready
    apply run_eq_of_sameProjections hkeep _ hsame hvalid h
    intro s a b hs ha hb hne
    exact traceStep_comm hs ha hb hne
  exact ⟨final, hrun, heq ▸ hrun⟩

/-- Wherever a trace has got to, two events of different clusters may be swapped,
and more generally any two interleavings that keep the order of events within
each cluster end in the same state. -/
theorem clusters_commute {start : CpuidleDatas} (h : Loaded start) {past : List TraceEvent}
    (hpast : ∀ event ∈ past, ValidCall start.topo event)
    (hrun : Runs.run traceStep start past = .ok datas) :
    (∀ a b, ValidCall start.topo a → ValidCall start.topo b →
      clusterOf start.topo a ≠ clusterOf start.topo b →
      ∃ final, Runs.run traceStep datas [a, b] = .ok final ∧
        Runs.run traceStep datas [b, a] = .ok final) ∧
    ∀ first second, (∀ event ∈ first, ValidCall start.topo event) →
      SameProjections (clusterOf start.topo) first second →
      ∃ final, Runs.run traceStep datas first = .ok final ∧
        Runs.run traceStep datas second = .ok final := by
  obtain ⟨datas', hrun', hready⟩ := traceRun_total (readyOn_of_loaded h) hpast
  obtain rfl : datas' = datas := Except.ok.inj (hrun'.symm.trans hrun)
  constructor
  · intro a b ha hb hne
    apply run_interleaved hready
    · simp [ha, hb]
    · intro c
      by_cases hca : clusterOf start.topo a = c
      · have hcb : clusterOf start.topo b ≠ c := fun hcb => hne (hca.trans hcb.symm)
        simp [hca, hcb]
      · simp [List.filter_cons, hca]
  · intro first second hvalid hsame
    exact run_interleaved hready hvalid hsame

end Traces

def twoClusterInfos : List TopologyInfo :=
  [{ physicalId := 0, coreId := 0, cpuId := 0 }, { physicalId := 1, coreId := 0, cpuId := 1 }]

def twoClusterDatas : CpuidleDatas :=
  (freshDatas .sysfs 2 (fun _ _ => { name := none, targetResidency := 0 })
    twoClusterInfos).toOption.getD
    (loadedDatas .sysfs 2 allocCpuTopoInfo fun _ _ => { name := none, targetResidency := 0 })

theorem twoClusterDatas_loaded : Loaded twoClusterDatas := by
  have hmachine : Machine 2 twoClusterInfos :=
    ⟨by simp [twoClusterInfos, NonNegative], by simp [twoClusterInfos],
      by simp [twoClusterInfos]⟩
  obtain ⟨start, hfresh, hloaded, -⟩ := exists_loaded .sysfs
    (fun _ _ => { name := none, targetResidency := 0 }) hmachine
  have hstart : twoClusterDatas = start := by
    simp [twoClusterDatas, hfresh, Except.toOption]
  rwa [hstart]

theorem clusters_commute_two :
    ∃ final,
      Runs.run traceStep twoClusterDatas
        [.power (.storeData 0 1 0), .power (.cpuChangePstate 1 100 2)] = .ok final ∧
      Runs.run traceStep twoClusterDatas
        [.power (.cpuChangePstate 1 100 2), .power (.storeData 0 1 0)] = .ok final := by
  have hids : cpuIds twoClusterDatas.topo = [0, 1] := by decide +kernel
  have hstart : Runs.run traceStep twoClusterDatas [] = .ok twoClusterDatas := rfl
  apply (clusters_commute twoClusterDatas_loaded (by simp) hstart).1
  · simp [ValidCall, ValidEvent, hids, ValidState, maxcstate]
  · simp [ValidCall, ValidEvent, hids]
  · decide +kernel

end Idlestat.Theory.ClusterCommute
