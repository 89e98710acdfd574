import Idlestat.Theory.ComparisonReport
import Idlestat.Theory.TraceEvents
import Mathlib.Data.List.FinRange

/-! The C-state table of the comparison report. The display loop stops at the
deepest state of the main trace, so the rows are complete exactly when no deeper
state has hits. -/
namespace Idlestat.Theory.CstateComparison

open Idlestat.Library Idlestat.Model.Topology Idlestat.Model.Cstates Idlestat.Model.Recorder
  Idlestat.Model.Loaders Idlestat.Model.TraceLine Idlestat.Model.Report
  Idlestat.Model.Baseline Idlestat.Model.TopologyDump Idlestat.Theory.ComparisonReport
  Idlestat.Theory.CstateRecord Idlestat.Theory.Nodes Idlestat.Theory.Setup
  Idlestat.Theory.RecorderSteps Idlestat.Theory.TraceEvents

variable (main : CpuidleCstates) (base : Option CpuidleCstates)

def cstateEntry (i : Fin maxcstate) : CpuidleCstate × Option CpuidleCstate :=
  (main.cstate i, base.map fun b => b.cstate i)

/-- One row for every state with hits on either side. -/
def cstateRows : List CstateRow :=
  ((List.finRange maxcstate).filter fun i => Hit CpuidleCstate.nrdata (cstateEntry main base i)).map
    fun i => entryRow cstateRow callocCstate (cstateEntry main base i)

/-- The report of one object has exactly these rows, and leaves no baseline
state pending for the next object. -/
def CstatesCompared (cpu : List Char) (printed : List (ReportLine CstateRow)) : Prop :=
  ∃ rdata, displayCstates comparisonCstateOps main base cpu ⟨none, printed⟩ = .ok rdata ∧
    rowsOf rdata.printed = rowsOf printed ++ cstateRows main base ∧ rdata.currBaseline = none

variable {main base}

/-- `cstateEntry` on the indices of the loop. -/
private def entryAt (main : CpuidleCstates) (base : Option CpuidleCstates) (i : Nat) :
    CpuidleCstate × Option CpuidleCstate :=
  if h : i < maxcstate then cstateEntry main base ⟨i, h⟩ else (callocCstate, none)

private theorem entryAt_fin (i : Fin maxcstate) :
    entryAt main base i = cstateEntry main base i := by
  simp [entryAt]

private theorem cstateRows_eq : cstateRows main base =
    (((List.range maxcstate).map (entryAt main base)).filter
      (Hit CpuidleCstate.nrdata ·)).map (entryRow cstateRow callocCstate) := by
  rw [← List.map_coe_finRange_eq_range, List.map_map, List.filter_map, List.map_map]
  unfold cstateRows
  simp only [Function.comp_def, entryAt_fin]

private def shownRows (main : CpuidleCstates) (base : Option CpuidleCstates) : List CstateRow :=
  (((List.range (main.cstateMax + 1).toNat).map (entryAt main base)).filter
    (Hit CpuidleCstate.nrdata ·)).map (entryRow cstateRow callocCstate)

private theorem displayCstates_eq (h : main.cstateMax < maxcstate) (cpu : List Char)
    (printed : List (ReportLine CstateRow)) :
    displayCstates comparisonCstateOps main base cpu ⟨none, printed⟩ =
      .ok ⟨none, printed ++ objectLines cpu (shownRows main base)⟩ := by
  have hentries : (List.range (main.cstateMax + 1).toNat).mapM (cstatesAt main base) =
      .ok ((List.range (main.cstateMax + 1).toNat).map (entryAt main base)) := by
    apply Runs.mapM_eq_ok_map
    intro i hi
    have hlt : i < maxcstate := by
      have hrange := List.mem_range.mp hi
      omega
    have hindex : cstateIndex (i : Int) = .ok ⟨i, hlt⟩ := cstateIndex_fin ⟨i, hlt⟩
    simp only [cstatesAt, hindex, bind, Except.bind, entryAt, dif_pos hlt, cstateEntry]
  unfold displayCstates
  rw [hentries, comparisonCstateOps_eq]
  exact displayStates_eq _

private theorem shownRows_eq_iff (h : main.cstateMax < maxcstate) :
    shownRows main base = cstateRows main base ↔ ∀ i : Fin maxcstate, main.cstateMax < i →
      ¬ Hit CpuidleCstate.nrdata (cstateEntry main base i) := by
  unfold shownRows
  generalize hn : (main.cstateMax + 1).toNat = n
  have hsplit : List.range maxcstate =
      List.range n ++ (List.range (maxcstate - n)).map (n + ·) := by
    rw [← List.range_add]
    congr 1
    omega
  rw [cstateRows_eq, hsplit, List.map_append, List.filter_append, List.map_append,
    List.self_eq_append_right, List.map_eq_nil_iff, List.filter_eq_nil_iff]
  simp only [List.mem_map, List.mem_range, forall_exists_index, and_imp,
    forall_apply_eq_imp_iff₂, decide_eq_true_eq]
  constructor
  · intro hquiet i hi
    have hk := hquiet (i - n) (by omega)
    rwa [show n + (i - n) = i by omega, entryAt_fin] at hk
  · intro hquiet k hk
    have hlt : n + k < maxcstate := by omega
    have hi := hquiet ⟨n + k, hlt⟩ (by simp only; omega)
    rwa [← entryAt_fin] at hi

/-- A record whose `cstate_max` is past the array makes the loop leave it. -/
private theorem displayCstates_past (h : ¬ main.cstateMax < maxcstate) (cpu : List Char)
    (rdata : CompareReportData CpuidleCstate CstateRow) :
    ∀ rdata', displayCstates comparisonCstateOps main base cpu rdata ≠ .ok rdata' := by
  intro rdata' hdisplay
  obtain ⟨entries, hentries, -⟩ := Runs.bind_eq_ok hdisplay
  have hall := Runs.mapM_eq_ok_iff.mp hentries
  have hmem : maxcstate ∈ List.range (main.cstateMax + 1).toNat := by
    apply List.mem_range.mpr
    omega
  obtain ⟨k, hk, hget⟩ := List.mem_iff_getElem.mp hmem
  have hindex := hall.get hk (hall.length_eq ▸ hk)
  rw [List.get_eq_getElem, hget] at hindex
  simp [cstatesAt, cstateIndex, bind, Except.bind] at hindex

/-- The comparison is complete exactly when no state deeper than the deepest one
of the main trace has hits. -/
theorem cstates_compared (main : CpuidleCstates) (base : Option CpuidleCstates) (cpu : List Char)
    (printed : List (ReportLine CstateRow)) :
    CstatesCompared main base cpu printed ↔
      main.cstateMax < maxcstate ∧
        ∀ i : Fin maxcstate, main.cstateMax < i →
          ¬ Hit CpuidleCstate.nrdata (cstateEntry main base i) := by
  by_cases h : main.cstateMax < maxcstate
  · rw [← shownRows_eq_iff h]
    unfold CstatesCompared
    rw [displayCstates_eq h]
    simp [h]
  · constructor
    · rintro ⟨rdata, hdisplay, -⟩
      exact absurd hdisplay (displayCstates_past h cpu _ rdata)
    · rintro ⟨hlt, -⟩
      exact absurd hlt h

section Dump

variable {paired : Paired}

/-- The node has records, and no state deeper than its deepest one has hits on
either side. -/
def CallComplete (paired : Paired) (call : DumpCall) : Prop :=
  ∃ cstates, call.arg = some cstates ∧
    (paired.datas.cstates cstates).cstateMax < maxcstate ∧
    ∀ i : Fin maxcstate, (paired.datas.cstates cstates).cstateMax < i →
      ¬ Hit CpuidleCstate.nrdata (cstateEntry (paired.datas.cstates cstates)
        (call.baseline.map paired.baseline.cstates) i)

def callRows (paired : Paired) (call : DumpCall) : List CstateRow :=
  match call.arg with
  | none => []
  | some cstates =>
    cstateRows (paired.datas.cstates cstates) (call.baseline.map paired.baseline.cstates)

theorem CallComplete.rows {call : DumpCall} (h : CallComplete paired call)
    (printed : List (ReportLine CstateRow)) :
    dumpCstates comparisonCstateOps paired call ⟨none, printed⟩ =
      .ok ⟨none, printed ++ objectLines call.cpu (callRows paired call)⟩ := by
  obtain ⟨cstates, harg, hmax, hquiet⟩ := h
  have hrows : callRows paired call = cstateRows (paired.datas.cstates cstates)
      (call.baseline.map paired.baseline.cstates) := by
    rw [callRows, harg]
  rw [hrows, ← (shownRows_eq_iff hmax).mpr hquiet, ← displayCstates_eq hmax]
  simp only [dumpCstates, harg, deref, bind, Except.bind]

theorem dump_complete (h : ∀ call ∈ dumpCalls true paired.topo, CallComplete paired call) :
    dumpCpuTopoInfo (dumpCstates comparisonCstateOps paired) compareAllocData paired.topo true =
      .ok ⟨none, (dumpCalls true paired.topo).flatMap fun call =>
        objectLines call.cpu (callRows paired call)⟩ :=
  dumpCpuTopoInfo_eq fun call hcall => (h call hcall).rows

end Dump

/-! ## Recorded records -/

def WithinMax (r : CpuidleCstates) : Prop :=
  ∀ i : Fin maxcstate, r.cstateMax < i → (r.cstate i).nrdata = 0

section Recorded

variable {top : Fin maxcstate → ℚ} {r r' : CpuidleCstates} {time : ℚ} {state : Int}

theorem recordCstateEvent_withinMax (h : RecordOk top r) (hstate : ValidState state)
    (hrecord : recordCstateEvent r time state = .ok r') (hwithin : WithinMax r) :
    WithinMax r' := by
  obtain ⟨r'', hrecord', -, hrecorded⟩ := recordCstateEvent_spec h hstate time
  obtain rfl : r'' = r' := Except.ok.inj (hrecord'.symm.trans hrecord)
  intro i hi
  rw [hrecorded.cstateMax] at hi
  have hdeeper : r.cstateMax < i := (le_max_left _ _).trans_lt hi
  have hnot : r.currentCstate ≠ i := fun heq => absurd (heq ▸ h.current.2) hdeeper.not_ge
  rw [(hrecorded.kept i (.inl hnot)).2]
  exact hwithin i hdeeper

end Recorded

theorem traceStep_withinMax {topo : CpuTopology} {nrcpus : Int} {datas datas' : CpuidleDatas}
    {event : TraceEvent} (h : ReadyOn topo nrcpus datas) (hvalid : ValidCall topo event)
    (hstep : traceStep datas event = .ok datas')
    (hwithin : ∀ ref, WithinMax (datas.cstates ref)) (ref : RecordRef) :
    WithinMax (datas'.cstates ref) := by
  have hrecord : ∀ {ref : RecordRef} {time : ℚ} {state : Int}, ValidState state →
      recordCstateEvent (datas.cstates ref) time state = .ok (datas'.cstates ref) →
      WithinMax (datas'.cstates ref) := by
    intro ref time state hstate hrecord
    obtain ⟨top, hok⟩ := h.ready.cstates ref
    exact recordCstateEvent_withinMax hok hstate hrecord (hwithin ref)
  cases event with
  | storeIrq cpu irqid irqname =>
    rw [← Except.ok.inj ((storeIrq_eq h hvalid).symm.trans hstep)]
    apply Setup.update_all WithinMax _ hwithin
    unfold attributeIrq
    split
    · exact hwithin _
    · exact hwithin (.percpu cpu)
  | power event =>
    obtain ⟨phy, core, next, hl, hnext, hready', heffect⟩ := h.next hvalid
    obtain rfl : next = datas' := Except.ok.inj (hnext.symm.trans hstep)
    cases heffect with
    | ignored => exact hwithin ref
    | changed => exact hwithin ref
    | @stored time state cpu next hnot hstored =>
      have hm : Mapped nrcpus topo := h.nrcpus ▸ h.topo ▸ h.ready.mapped
      have hleast : ∀ {members : List Int}, members ≠ [] →
          ValidState (least (currentCstates next) members) := fun hne =>
        least_valid hne fun c _ => currentCstates_valid hready'.ready.cstates c
      by_cases hcpu : ref = .percpu cpu
      · rw [hcpu]
        exact hrecord hvalid.1 hstored.atCpu
      · by_cases hcore : ref = coreRef phy core
        · rw [hcore]
          exact hrecord (hleast (hm.group_inhabited hl.core_group)) hstored.atCore
        · by_cases hcluster : ref = clusterRef phy
          · rw [hcluster]
            exact hrecord (hleast (hm.group_inhabited hl.cluster_group)) hstored.atCluster
          · rw [hstored.others ref hcpu hcore hcluster]
            exact hwithin ref

/-- In every record of a loaded trace the deepest states with hits are within
`cstate_max`, which is an index of the array. -/
theorem recorded_withinMax {start datas : CpuidleDatas} (h : Loaded start)
    {events : List TraceEvent} (hvalid : ∀ event ∈ events, ValidCall start.topo event)
    (hrun : Runs.run traceStep start events = .ok datas) (ref : RecordRef) :
    (datas.cstates ref).cstateMax < maxcstate ∧ WithinMax (datas.cstates ref) := by
  have hstep : ∀ past event rest state, events = past ++ event :: rest →
      ReadyOn start.topo start.nrcpus state ∧ (∀ ref, WithinMax (state.cstates ref)) →
      ∃ next, traceStep state event = .ok next ∧
        ReadyOn start.topo start.nrcpus next ∧ ∀ ref, WithinMax (next.cstates ref) := by
    intro past event rest state hsplit hinv
    have hevent := hvalid event (by simp [hsplit])
    obtain ⟨next, hnext, hready⟩ := traceStep_total hinv.1 hevent
    exact ⟨next, hnext, hready, traceStep_withinMax hinv.1 hevent hnext hinv.2⟩
  have hstart : ∀ ref, WithinMax (start.cstates ref) :=
    fun ref i _ => (h.started.cstates ref).nrdata i
  obtain ⟨final, hfinal, hready, hwithin⟩ := Runs.run_invariant
    (fun _ state => ReadyOn start.topo start.nrcpus state ∧ ∀ ref, WithinMax (state.cstates ref))
    ⟨readyOn_of_loaded h, hstart⟩ hstep
  obtain rfl : final = datas := Except.ok.inj (hfinal.symm.trans hrun)
  obtain ⟨top, hok⟩ := hready.ready.cstates ref
  exact ⟨hok.cstateMax, hwithin ref⟩

def idleOnce (state : Int) : CpuidleCstates :=
  ((recordCstateEvent (buildCstateInfo fun _ => { name := none, targetResidency := 0 }) 0 state
    >>= fun r => recordCstateEvent r 1 (-1)).toOption).getD emptyCstates

/-- State 2 has hits in the baseline only, and gets no row. -/
theorem cstates_incomplete :
    ¬ CstatesCompared (idleOnce 0) (some (idleOnce 2)) ['c', 'p', 'u', '0'] [] := by
  rintro ⟨rdata, hdisplay, hrows, -⟩
  have hone : (displayCstates comparisonCstateOps (idleOnce 0) (some (idleOnce 2))
      ['c', 'p', 'u', '0'] ⟨none, []⟩).map (fun rdata => (rowsOf rdata.printed).length) =
        .ok 1 := by
    decide +kernel
  have htwo : (cstateRows (idleOnce 0) (some (idleOnce 2))).length = 2 := by
    decide +kernel
  rw [hdisplay, Except.map, hrows] at hone
  simp [rowsOf, htwo] at hone

end Idlestat.Theory.CstateComparison
