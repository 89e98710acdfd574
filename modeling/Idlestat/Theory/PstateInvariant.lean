import Idlestat.Theory.RecorderSteps

/-! The representation invariant of every P-state record, over runs that feed
events to a trace and to its baseline and merge their frequency tables. -/
namespace Idlestat.Theory.PstateInvariant

open Idlestat.Library Idlestat.Library.RunningStats Idlestat.Model.Topology
  Idlestat.Model.Cstates Idlestat.Model.Pstates Idlestat.Model.Recorder
  Idlestat.Theory.CstateRecord Idlestat.Theory.Nodes Idlestat.Theory.PstateRecord
  Idlestat.Theory.Setup Idlestat.Theory.RecorderSteps

structure PstatesExact (ps : CpufreqPstates) : Prop where
  freqs : ps.pstate.Pairwise fun a b => a.freq < b.freq
  ids : ∀ (i : Nat) (p : CpufreqPstate), ps.pstate[i]? = some p → p.id = i
  length : ps.max = ps.pstate.length
  current : ps.current = -1 ∨ 0 ≤ ps.current ∧ ps.current < ps.max
  unused : ∀ p ∈ ps.pstate, p.count = 0 →
    p.duration = 0 ∧ p.avgTime = 0 ∧ p.maxTime = 0 ∧ p.minTime = dblMax
  used : ∀ p ∈ ps.pstate, 0 < p.count →
    p.avgTime * p.count = p.duration ∧ 0 < p.minTime ∧ p.minTime ≤ p.avgTime ∧
      p.avgTime ≤ p.maxTime ∧ p.maxTime ≤ p.duration

section Exact

variable {ps : CpufreqPstates}

theorem dblMax_pos : 0 < dblMax := by
  decide +kernel

theorem entry_stats (h : PstatesOk ps) {p : CpufreqPstate} (hp : p ∈ ps.pstate) :
    ∃ xs : List ℚ, (∀ x ∈ xs, 0 < x) ∧ stats p = ofList dblMax xs ∧ p.count = xs.length := by
  obtain ⟨xs, hpos, hstats⟩ := h.entries (row p) (List.mem_map_of_mem hp)
  refine ⟨xs, hpos, hstats, ?_⟩
  rw [← ofList_count dblMax xs]
  exact congrArg Running.count hstats

theorem pstatesExact_of_ok (h : PstatesOk ps) : PstatesExact ps where
  freqs := h.table.freq_sorted
  ids := by
    intro i p hp
    have hids : (ps.pstate.map CpufreqPstate.id)[i]? = (List.range ps.pstate.length)[i]? := by
      rw [h.ids]
    obtain ⟨hi, -⟩ := List.getElem?_eq_some_iff.mp hp
    rw [List.getElem?_map, hp, List.getElem?_range hi] at hids
    exact Option.some.inj hids
  length := h.max
  current := by
    have hrange := h.current
    rw [h.max]
    omega
  unused := by
    intro p hp hzero
    obtain ⟨xs, -, hstats, hcount⟩ := entry_stats h hp
    obtain rfl : xs = [] := List.length_eq_zero_iff.mp (hcount.symm.trans hzero)
    exact ⟨congrArg Running.total hstats, congrArg Running.mean hstats,
      congrArg Running.greatest hstats, congrArg Running.least hstats⟩
  used := by
    intro p hp hpos
    obtain ⟨xs, hxs, hstats, hcount⟩ := entry_stats h hp
    have hne : xs ≠ [] := List.length_pos_iff.mp (hcount ▸ hpos)
    have htotal : p.duration = (ofList dblMax xs).total := congrArg Running.total hstats
    have hmean : p.avgTime = (ofList dblMax xs).mean := congrArg Running.mean hstats
    have hleast : p.minTime = (ofList dblMax xs).least := congrArg Running.least hstats
    have hgreatest : p.maxTime = (ofList dblMax xs).greatest := congrArg Running.greatest hstats
    rw [htotal, hmean, hleast, hgreatest, hcount]
    refine ⟨?_, ofList_bounds dblMax_pos hxs hne⟩
    rw [ofList_mean_mul, ofList_total]

end Exact

inductive MergeEvent
  | datas (event : PowerEvent)
  | baseline (event : PowerEvent)
  | mergePstates
  deriving DecidableEq

def mergeStep (both : CpuidleDatas × CpuidleDatas) :
    MergeEvent → Except Fault (CpuidleDatas × CpuidleDatas)
  | .datas event => do
    let datas ← step both.1 event
    .ok (datas, both.2)
  | .baseline event => do
    let baseline ← step both.2 event
    .ok (both.1, baseline)
  | .mergePstates => mergePstates both.1 both.2

/-- Events are about CPUs of their own tree, and a merge indexes the baseline
with the CPUs of the trace. -/
def ValidMerge (datas baseline : CpuidleDatas) : MergeEvent → Prop
  | .datas event => ValidEvent datas.topo event
  | .baseline event => ValidEvent baseline.topo event
  | .mergePstates => datas.nrcpus ≤ baseline.nrcpus

section Merge

theorem allocAll_ok {l : List CpufreqPstate} {ps : CpufreqPstates} (h : PstatesOk ps) :
    PstatesOk (l.foldl (fun ps p => (allocPstate ps p.freq).1) ps) := by
  induction l generalizing ps with
  | nil => exact h
  | cons p rest ih => exact ih ((allocPstate_spec h.table p.freq).ok h)

theorem mergePstatesCpu_ok {a b : CpufreqPstates} (ha : PstatesOk a) (hb : PstatesOk b) :
    PstatesOk (mergePstatesCpu a b).1 ∧ PstatesOk (mergePstatesCpu a b).2 :=
  ⟨allocAll_ok ha, allocAll_ok hb⟩

variable {topo baseTopo : CpuTopology} {nrcpus baseNrcpus : Int}

theorem readyOn_setPstates {datas : CpuidleDatas} (h : ReadyOn topo nrcpus datas)
    (ref : RecordRef) {ps : CpufreqPstates} (hps : PstatesOk ps) :
    ReadyOn topo nrcpus (datas.setPstates ref ps) :=
  ⟨h.ready.setPstates ref hps, h.topo, h.nrcpus⟩

def BothReady (topo baseTopo : CpuTopology) (nrcpus baseNrcpus : Int)
    (both : CpuidleDatas × CpuidleDatas) : Prop :=
  ReadyOn topo nrcpus both.1 ∧ ReadyOn baseTopo baseNrcpus both.2

theorem mergePstates_ready {both : CpuidleDatas × CpuidleDatas} (hle : nrcpus ≤ baseNrcpus)
    (h : BothReady topo baseTopo nrcpus baseNrcpus both) :
    ∃ both', mergePstates both.1 both.2 = .ok both' ∧
      BothReady topo baseTopo nrcpus baseNrcpus both' := by
  unfold mergePstates
  rw [Runs.foldlM_eq_run]
  refine Runs.run_invariant (fun _ => BothReady topo baseTopo nrcpus baseNrcpus) h ?_
  rintro past cpu rest ⟨datas, baseline⟩ hsplit ⟨ha, hb⟩
  have hcpu : cpu ∈ List.range both.1.nrcpus.toNat := by simp [hsplit]
  have hlt : (cpu : Int) < nrcpus := by
    have hmem := List.mem_range.mp hcpu
    have hsize := h.1.nrcpus
    omega
  have hsizeA : datas.nrcpus = nrcpus := ha.nrcpus
  have hsizeB : baseline.nrcpus = baseNrcpus := hb.nrcpus
  have hrefA : datas.percpu cpu = .ok (.percpu cpu) := by
    simp [CpuidleDatas.percpu, hsizeA, hlt]
  have hrefB : baseline.percpu cpu = .ok (.percpu cpu) := by
    simp [CpuidleDatas.percpu, hsizeB, hlt.trans_le hle]
  obtain ⟨hokA, hokB⟩ := mergePstatesCpu_ok (ha.ready.pstates (.percpu cpu))
    (hb.ready.pstates (.percpu cpu))
  refine ⟨_, by simp only [hrefA, hrefB, bind, Except.bind]; rfl, ?_, ?_⟩
  · exact readyOn_setPstates ha _ hokA
  · exact readyOn_setPstates hb _ hokB

theorem mergeStep_ready {both : CpuidleDatas × CpuidleDatas} {datas baseline : CpuidleDatas}
    {event : MergeEvent} (hvalid : ValidMerge datas baseline event)
    (h : BothReady datas.topo baseline.topo datas.nrcpus baseline.nrcpus both) :
    ∃ both', mergeStep both event = .ok both' ∧
      BothReady datas.topo baseline.topo datas.nrcpus baseline.nrcpus both' := by
  cases event with
  | datas event =>
    obtain ⟨phy, core, datas', -, hstep, hready, -⟩ := h.1.next hvalid
    exact ⟨(datas', both.2), by simp only [mergeStep, hstep, bind, Except.bind], hready, h.2⟩
  | baseline event =>
    obtain ⟨phy, core, baseline', -, hstep, hready, -⟩ := h.2.next hvalid
    exact ⟨(both.1, baseline'), by simp only [mergeStep, hstep, bind, Except.bind], h.1, hready⟩
  | mergePstates => exact mergePstates_ready hvalid h

end Merge

/-- Every P-state record of a trace and of its baseline satisfies the invariant
after every event and every merge, at any times. -/
theorem pstates_exact {start baseline : CpuidleDatas} (h : Loaded start) (hb : Loaded baseline)
    (events : List MergeEvent) (hvalid : ∀ event ∈ events, ValidMerge start baseline event) :
    (∃ final, Runs.run mergeStep (start, baseline) events = .ok final) ∧
      Runs.Always mergeStep
        (fun _ both => ∀ ref, PstatesExact (both.1.pstates ref) ∧ PstatesExact (both.2.pstates ref))
        (start, baseline) events := by
  have hstart : BothReady start.topo baseline.topo start.nrcpus baseline.nrcpus (start, baseline) :=
    ⟨⟨ready_of_started h.started, rfl, rfl⟩, ⟨ready_of_started hb.started, rfl, rfl⟩⟩
  have hstep : ∀ past event rest both, events = past ++ event :: rest →
      BothReady start.topo baseline.topo start.nrcpus baseline.nrcpus both →
      ∃ both', mergeStep both event = .ok both' ∧
        BothReady start.topo baseline.topo start.nrcpus baseline.nrcpus both' :=
    fun past event rest both hsplit hboth =>
      mergeStep_ready (hvalid event (by simp [hsplit])) hboth
  constructor
  · obtain ⟨final, hrun, -⟩ := Runs.run_invariant (fun _ => BothReady _ _ _ _) hstart hstep
    exact ⟨final, hrun⟩
  · intro past rest both hsplit hrun ref
    have hboth := Runs.always_of_invariant (fun _ => BothReady _ _ _ _) hstart hstep past rest both
      hsplit hrun
    exact ⟨pstatesExact_of_ok (hboth.1.ready.pstates ref),
      pstatesExact_of_ok (hboth.2.ready.pstates ref)⟩

theorem pstates_exact_pair :
    (∀ event ∈ [MergeEvent.datas (.cpuChangePstate 0 200 0), .datas (.cpuChangePstate 0 100 (-1)),
        .baseline (.cpuChangePstate 1 300 0), .mergePstates],
      ValidMerge pairDatas pairDatas event) ∧
    (∃ final, Runs.run mergeStep (pairDatas, pairDatas)
      [.datas (.cpuChangePstate 0 200 0), .datas (.cpuChangePstate 0 100 (-1)),
        .baseline (.cpuChangePstate 1 300 0), .mergePstates] = .ok final) ∧
      Runs.Always mergeStep
        (fun _ both => ∀ ref, PstatesExact (both.1.pstates ref) ∧ PstatesExact (both.2.pstates ref))
        (pairDatas, pairDatas)
        [.datas (.cpuChangePstate 0 200 0), .datas (.cpuChangePstate 0 100 (-1)),
          .baseline (.cpuChangePstate 1 300 0), .mergePstates] :=
  have hvalid : ∀ event ∈ [MergeEvent.datas (.cpuChangePstate 0 200 0),
      .datas (.cpuChangePstate 0 100 (-1)), .baseline (.cpuChangePstate 1 300 0), .mergePstates],
      ValidMerge pairDatas pairDatas event := by
    simp [ValidMerge, ValidEvent, cpuIds_pairDatas]
  ⟨hvalid, pstates_exact pairDatas_loaded pairDatas_loaded _ hvalid⟩

end Idlestat.Theory.PstateInvariant
