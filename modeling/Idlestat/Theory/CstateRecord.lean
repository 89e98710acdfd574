import Idlestat.Library.RunningStats
import Idlestat.Library.Runs
import Idlestat.Model.Loaders

/-! What `record_cstate_event` does to one record: the summary of every state
stays the summary of its list of intervals, and an event ends the stretch of
the state that was current and opens one for the state it enters. -/
namespace Idlestat.Theory.CstateRecord

open Idlestat.Library Idlestat.Library.RunningStats Idlestat.Model.Topology
  Idlestat.Model.Cstates Idlestat.Model.Loaders

theorem cMin_eq_min (a b : ℚ) : cMin a b = min a b := by
  unfold cMin
  rcases lt_trichotomy a b with h | rfl | h
  · simp [h, h.le]
  · simp
  · simp [h.not_gt, h.le]

theorem cMax_eq_max {α : Type} [LinearOrder α] (a b : α) : cMax a b = max a b := by
  unfold cMax
  rcases lt_trichotomy a b with h | rfl | h
  · simp [h.not_gt, h.le]
  · simp
  · simp [h, h.le]

/-! ## One state -/

def durations (c : CpuidleCstate) : List ℚ :=
  (c.data.take c.nrdata).map CpuidleData.duration

def summary (c : CpuidleCstate) : Running ℚ :=
  { count := c.nrdata
    total := c.duration
    mean := c.avgTime
    least := c.minTime
    greatest := c.maxTime }

/-- `top` is the value `min_time` was initialised to. -/
structure CstateOk (top : ℚ) (c : CpuidleCstate) : Prop where
  slots : c.nrdata ≤ c.data.length
  intervals : ∀ d ∈ c.data.take c.nrdata,
    d.beginTime < d.endTime ∧ d.duration = (d.endTime - d.beginTime) * usecPerSec
  summary : summary c = ofList top (durations c)
  wakings : c.earlyWakings + c.lateWakings ≤ c.nrdata

section OneState

variable {top : ℚ} {c : CpuidleCstate} {slot : CpuidleData}

theorem usecPerSec_pos : 0 < usecPerSec := by
  decide +kernel

theorem CstateOk.duration_pos (h : CstateOk top c) : ∀ x ∈ durations c, 0 < x := by
  intro x hx
  obtain ⟨d, hd, rfl⟩ := List.mem_map.mp hx
  obtain ⟨hlt, hdur⟩ := h.intervals d hd
  rw [hdur]
  exact mul_pos (sub_pos.mpr hlt) usecPerSec_pos

theorem CstateOk.setSlot (h : CstateOk top c) (slot : CpuidleData) :
    CstateOk top { c with data := c.data.set c.nrdata slot } where
  slots := by simpa using h.slots
  intervals := by simpa [List.take_set_of_le] using h.intervals
  summary := by
    have htake : (c.data.set c.nrdata slot).take c.nrdata = c.data.take c.nrdata :=
      List.take_set_of_le (le_refl _)
    exact h.summary.trans (by simp only [durations, htake])
  wakings := h.wakings

theorem CstateOk.openSlot (h : CstateOk top c) (slot : CpuidleData) :
    CstateOk top { c with data := c.data.take c.nrdata ++ [slot] } := by
  have hlen : (c.data.take c.nrdata).length = c.nrdata := List.length_take_of_le h.slots
  have htake : (c.data.take c.nrdata ++ [slot]).take c.nrdata = c.data.take c.nrdata :=
    List.take_left' hlen
  exact {
    slots := by simp [hlen]
    intervals := by simpa only [htake] using h.intervals
    summary := h.summary.trans (by simp only [durations, htake])
    wakings := h.wakings }

theorem take_set_succ {α : Type} {l : List α} {n : Nat} (hn : n < l.length) (x : α) :
    (l.set n x).take (n + 1) = l.take n ++ [x] := by
  rw [List.take_add_one, List.take_set_of_le (le_refl n), List.getElem?_set_self hn]
  rfl

theorem durations_commit (hopen : c.nrdata < c.data.length) (slot : CpuidleData)
    (verdict : Residency) :
    durations (c.commit slot verdict) = durations c ++ [slot.duration] := by
  simp [durations, CpuidleCstate.commit, take_set_succ hopen]

theorem summary_commit (slot : CpuidleData) (verdict : Residency) :
    summary (c.commit slot verdict) = (summary c).push slot.duration := by
  simp [summary, CpuidleCstate.commit, Running.push, cMin_eq_min, cMax_eq_max, cAvg]

theorem CstateOk.commit (h : CstateOk top c) (hopen : c.nrdata < c.data.length)
    (hpos : slot.beginTime < slot.endTime)
    (hdur : slot.duration = (slot.endTime - slot.beginTime) * usecPerSec)
    (verdict : Residency) : CstateOk top (c.commit slot verdict) where
  slots := by
    simp only [CpuidleCstate.commit, List.length_set]
    omega
  intervals := by
    intro d hd
    simp only [CpuidleCstate.commit, take_set_succ hopen, List.mem_append,
      List.mem_singleton] at hd
    rcases hd with hd | rfl
    · exact h.intervals d hd
    · exact ⟨hpos, hdur⟩
  summary := by
    rw [summary_commit, durations_commit hopen, ofList_concat, h.summary]
  wakings := by
    have hwakings := h.wakings
    cases verdict <;> simp [CpuidleCstate.commit] <;> omega

theorem initCstate_ok (info : CstateInfo) : CstateOk dblMax (initCstate info) where
  slots := le_refl 0
  intervals := by simp [initCstate]
  summary := rfl
  wakings := le_refl 0

theorem callocCstate_ok : CstateOk 0 callocCstate where
  slots := le_refl 0
  intervals := by simp [callocCstate]
  summary := rfl
  wakings := le_refl 0

end OneState

/-! ## One record -/

structure RecordOk (top : Fin maxcstate → ℚ) (r : CpuidleCstates) : Prop where
  cstate : ∀ i, CstateOk (top i) (r.cstate i)
  current : -1 ≤ r.currentCstate ∧ r.currentCstate ≤ r.cstateMax
  cstateMax : r.cstateMax < maxcstate
  slot : ∀ i : Fin maxcstate, r.currentCstate = i →
    (r.cstate i).nrdata < (r.cstate i).data.length

/-- `data[nrdata].begin`. -/
def openBegin (r : CpuidleCstates) (i : Fin maxcstate) : ℚ :=
  (((r.cstate i).data[(r.cstate i).nrdata]?).map CpuidleData.beginTime).getD 0

/-- A C-state index, or -1 for a running CPU. -/
def ValidState (state : Int) : Prop :=
  -1 ≤ state ∧ state < maxcstate

instance (state : Int) : Decidable (ValidState state) := by
  unfold ValidState
  infer_instance

theorem ValidState.eq_neg_one_or {state : Int} (h : ValidState state) :
    state = -1 ∨ ∃ i : Fin maxcstate, state = i := by
  obtain ⟨hlow, hhigh⟩ := h
  by_cases hneg : state = -1
  · exact .inl hneg
  · exact .inr ⟨⟨state.toNat, by omega⟩, by simp; omega⟩

theorem RecordOk.validState {top : Fin maxcstate → ℚ} {r : CpuidleCstates}
    (h : RecordOk top r) : ValidState r.currentCstate :=
  ⟨h.current.1, h.current.2.trans_lt h.cstateMax⟩

@[simp] theorem cstateIndex_fin (i : Fin maxcstate) : cstateIndex i = .ok i := by
  have hi := i.isLt
  have hrange : 0 ≤ (i : Int) ∧ (i : Int) < maxcstate := ⟨by omega, by omega⟩
  simp [cstateIndex, hrange]

section OneRecord

variable {top : Fin maxcstate → ℚ} {r r' : CpuidleCstates} {time : ℚ} {i : Fin maxcstate}

@[simp] theorem setCstate_self (c : CpuidleCstate) : (r.setCstate i c).cstate i = c := by
  simp [CpuidleCstates.setCstate]

@[simp] theorem setCstate_of_ne {j : Fin maxcstate} (hj : j ≠ i) (c : CpuidleCstate) :
    (r.setCstate i c).cstate j = r.cstate j := by
  simp [CpuidleCstates.setCstate, hj]

theorem setCstate_ok (h : RecordOk top r) {c : CpuidleCstate} (hc : CstateOk (top i) c)
    (j : Fin maxcstate) : CstateOk (top j) ((r.setCstate i c).cstate j) := by
  by_cases hj : j = i
  · subst hj
    simpa using hc
  · simpa [hj] using h.cstate j

theorem actualResidency_ok (hmax : r.cstateMax < maxcstate) (duration : ℚ) :
    ∃ verdict, actualResidency r i duration = .ok verdict := by
  by_cases hshort : duration < (r.cstate i).targetResidency
  · exact ⟨.tooShort, by simp [actualResidency, hshort]⟩
  · by_cases hnext : (i.val : Int) + 1 ≤ r.cstateMax
    · have hlt : i.val + 1 < maxcstate := by omega
      have hindex : cstateIndex ((i.val : Int) + 1) = .ok ⟨i.val + 1, hlt⟩ :=
        cstateIndex_fin ⟨i.val + 1, hlt⟩
      exact ⟨_, by simp only [actualResidency, hshort, hnext, hindex, if_true, if_false]; rfl⟩
    · exact ⟨.asExpected, by simp [actualResidency, hshort, hnext]⟩

theorem RecordOk.openSlot_eq (h : RecordOk top r) (hi : r.currentCstate = i) :
    ∃ slot, (r.cstate i).data[(r.cstate i).nrdata]? = some slot ∧
      slot.beginTime = openBegin r i := by
  have hget := List.getElem?_eq_getElem (h.slot i hi)
  exact ⟨_, hget, by simp [openBegin, hget]⟩

structure Ended (r r' : CpuidleCstates) (time : ℚ) (i : Fin maxcstate) : Prop where
  others : ∀ j ≠ i, r'.cstate j = r.cstate j
  duration : (r'.cstate i).duration = (r.cstate i).duration +
    if openBegin r i < time then (time - openBegin r i) * usecPerSec else 0
  nrdata : (r'.cstate i).nrdata = (r.cstate i).nrdata + if openBegin r i < time then 1 else 0

private theorem recordOk_ended (h : RecordOk top r) {c : CpuidleCstate} (hc : CstateOk (top i) c)
    (verdict : Residency) :
    RecordOk top { r.setCstate i c with actualResidency := verdict, currentCstate := -1 } where
  cstate := setCstate_ok h hc
  current := ⟨le_refl _, h.current.1.trans h.current.2⟩
  cstateMax := h.cstateMax
  slot := fun j hj => by
    simp only at hj
    omega

theorem cstateEnd_spec (h : RecordOk top r) (hi : r.currentCstate = i) (time : ℚ) :
    ∃ r', cstateEnd time r = .ok r' ∧ RecordOk top r' ∧ r'.currentCstate = -1 ∧
      r'.cstateMax = r.cstateMax ∧ Ended r r' time i := by
  obtain ⟨slot, hslot, hbegin⟩ := h.openSlot_eq hi
  by_cases hpos : openBegin r i < time
  · have hle : ¬ time - slot.beginTime ≤ 0 := by
      rw [hbegin]
      linarith
    obtain ⟨verdict, hverdict⟩ := actualResidency_ok (i := i) h.cstateMax
      ((time - slot.beginTime) * usecPerSec)
    have hcommit : CstateOk (top i) ((r.cstate i).commit
        { beginTime := slot.beginTime, endTime := time,
          duration := (time - slot.beginTime) * usecPerSec } verdict) :=
      (h.cstate i).commit (h.slot i hi) (hbegin ▸ hpos) rfl verdict
    refine ⟨_, ?_, recordOk_ended h hcommit verdict, rfl, rfl, ?_⟩
    · simp only [cstateEnd, hi, cstateIndex_fin, hslot, hle, hverdict, bind, Except.bind,
        if_false]
    · exact {
        others := fun j hj => setCstate_of_ne hj _
        duration := by simp [CpuidleCstate.commit, hpos, hbegin]
        nrdata := by simp [CpuidleCstate.commit, hpos] }
  · have hle : time - slot.beginTime ≤ 0 := by
      rw [hbegin]
      linarith
    have hset := (h.cstate i).setSlot
      { beginTime := slot.beginTime, endTime := time, duration := time - slot.beginTime }
    refine ⟨_, ?_, recordOk_ended h hset r.actualResidency, rfl, rfl, ?_⟩
    · simp only [cstateEnd, hi, cstateIndex_fin, hslot, hle, bind, Except.bind, if_true]
      rfl
    · exact {
        others := fun j hj => setCstate_of_ne hj _
        duration := by simp [hpos]
        nrdata := by simp [hpos] }

theorem cstateBegin_spec (h : RecordOk top r) (time : ℚ) (i : Fin maxcstate) :
    ∃ r', cstateBegin time i r = .ok r' ∧ RecordOk top r' ∧ r'.currentCstate = i ∧
      r'.cstateMax = max r.cstateMax i ∧ openBegin r' i = time ∧
      ∀ j, (r'.cstate j).duration = (r.cstate j).duration ∧
        (r'.cstate j).nrdata = (r.cstate j).nrdata := by
  have hi := i.isLt
  have hmax : cMax r.cstateMax i = max r.cstateMax i := cMax_eq_max _ _
  have hlen : ((r.cstate i).data.take (r.cstate i).nrdata).length = (r.cstate i).nrdata :=
    List.length_take_of_le (h.cstate i).slots
  have hopen := (h.cstate i).openSlot { beginTime := time, endTime := 0, duration := 0 }
  refine ⟨_, by simp only [cstateBegin, cstateIndex_fin, bind, Except.bind]; rfl, ?_, rfl, hmax,
    ?_, ?_⟩
  · exact {
      cstate := setCstate_ok h hopen
      current := ⟨show (-1 : Int) ≤ i by omega, by simp [hmax]⟩
      cstateMax := by
        have hlt := h.cstateMax
        simp only [hmax]
        exact max_lt hlt (by omega)
      slot := by
        intro j hj
        obtain rfl : i = j := by simp only at hj; omega
        simp [hlen] }
  · simp [openBegin, hlen]
  · intro j
    by_cases hj : j = i
    · subst hj
      simp
    · simp [hj]

/-- Everything `record_cstate_event` does that another state can depend on. -/
structure Recorded (r r' : CpuidleCstates) (time : ℚ) (state : Int) : Prop where
  current : r'.currentCstate = state
  cstateMax : r'.cstateMax = max r.cstateMax state
  opened : ∀ i : Fin maxcstate, state = i →
    openBegin r' i = if r.currentCstate = i then openBegin r i else time
  left : ∀ i : Fin maxcstate, r.currentCstate = i → state ≠ i →
    (r'.cstate i).duration = (r.cstate i).duration +
      (if openBegin r i < time then (time - openBegin r i) * usecPerSec else 0) ∧
    (r'.cstate i).nrdata = (r.cstate i).nrdata + if openBegin r i < time then 1 else 0
  kept : ∀ i : Fin maxcstate, r.currentCstate ≠ i ∨ state = i →
    (r'.cstate i).duration = (r.cstate i).duration ∧
      (r'.cstate i).nrdata = (r.cstate i).nrdata

theorem recordCstateEvent_same (r : CpuidleCstates) (time : ℚ) :
    recordCstateEvent r time r.currentCstate = .ok r := by
  simp [recordCstateEvent]

theorem recordCstateEvent_of_ne {state : Int} (hne : state ≠ r.currentCstate) :
    recordCstateEvent r time state =
      (if r.currentCstate ≠ -1 then cstateEnd time r else .ok r) >>= fun r =>
        if state ≠ -1 then cstateBegin time state r else .ok r := by
  by_cases hnone : r.currentCstate = -1
  · rw [hnone] at hne
    simp only [recordCstateEvent, hne, hnone, ne_eq, not_true_eq_false, if_false]
  · simp only [recordCstateEvent, hne, hnone, ne_eq, not_false_eq_true, if_true, if_false]

/-- The first half of an event on a record in another state. -/
private theorem leave_spec (h : RecordOk top r) (time : ℚ) :
    ∃ r', (if r.currentCstate ≠ -1 then cstateEnd time r else .ok r) = .ok r' ∧
      RecordOk top r' ∧ r'.currentCstate = -1 ∧ r'.cstateMax = r.cstateMax ∧
      (∀ i : Fin maxcstate, r.currentCstate = i → Ended r r' time i) ∧
      ∀ i : Fin maxcstate, r.currentCstate ≠ i → r'.cstate i = r.cstate i := by
  rcases h.validState.eq_neg_one_or with hnone | ⟨i, hi⟩
  · refine ⟨r, by simp [hnone], h, hnone, rfl, fun i hi => ?_, fun _ _ => rfl⟩
    omega
  · obtain ⟨r', hend, hok, hcur, hmax, hended⟩ := cstateEnd_spec h hi time
    have hne : r.currentCstate ≠ -1 := by omega
    refine ⟨r', by simp [hne, hend], hok, hcur, hmax, fun j hj => ?_, fun j hj => ?_⟩
    · obtain rfl : i = j := by omega
      exact hended
    · exact hended.others j fun heq => hj (heq ▸ hi)

/-- A state that is neither -1 nor an index of `cstate` reads past the array. -/
theorem recordCstateEvent_invalid (h : RecordOk top r) {state : Int} (hstate : ¬ ValidState state)
    (time : ℚ) : recordCstateEvent r time state = .error .outOfBounds := by
  have hne : state ≠ r.currentCstate := fun heq => hstate (heq ▸ h.validState)
  have hrange : ¬ (0 ≤ state ∧ state < maxcstate) := fun hrange =>
    hstate ⟨by omega, hrange.2⟩
  have hnot : state ≠ -1 := by
    rintro rfl
    exact hstate ⟨le_refl _, by decide⟩
  obtain ⟨r', hleave, -⟩ := leave_spec h time
  rw [recordCstateEvent_of_ne hne, hleave]
  simp [hnot, cstateBegin, cstateIndex, hrange, bind, Except.bind]

private theorem enter_spec (h : RecordOk top r) (hnone : r.currentCstate = -1) {state : Int}
    (hstate : ValidState state) (time : ℚ) :
    ∃ r', (if state ≠ -1 then cstateBegin time state r else .ok r) = .ok r' ∧
      RecordOk top r' ∧ r'.currentCstate = state ∧ r'.cstateMax = max r.cstateMax state ∧
      (∀ i : Fin maxcstate, state = i → openBegin r' i = time) ∧
      ∀ j, (r'.cstate j).duration = (r.cstate j).duration ∧
        (r'.cstate j).nrdata = (r.cstate j).nrdata := by
  rcases hstate.eq_neg_one_or with rfl | ⟨i, rfl⟩
  · have hmax : max r.cstateMax (-1) = r.cstateMax :=
      max_eq_left (h.current.1.trans h.current.2)
    refine ⟨r, by simp, h, hnone, hmax.symm, fun i hi => ?_, fun _ => ⟨rfl, rfl⟩⟩
    omega
  · obtain ⟨r', hbegin, hok, hcur, hmax, hopen, hsame⟩ := cstateBegin_spec h time i
    have hne : (i : Int) ≠ -1 := by omega
    refine ⟨r', by simp [hne, hbegin], hok, hcur, hmax, fun j hj => ?_, hsame⟩
    obtain rfl : i = j := by omega
    exact hopen

theorem recordCstateEvent_spec (h : RecordOk top r) {state : Int} (hstate : ValidState state)
    (time : ℚ) :
    ∃ r', recordCstateEvent r time state = .ok r' ∧ RecordOk top r' ∧
      Recorded r r' time state := by
  by_cases hsame : state = r.currentCstate
  · subst hsame
    refine ⟨r, recordCstateEvent_same r time, h, ?_⟩
    exact {
      current := rfl
      cstateMax := (max_eq_left h.current.2).symm
      opened := fun i hi => by simp [hi]
      left := fun i hi hne => absurd hi hne
      kept := fun _ _ => ⟨rfl, rfl⟩ }
  · obtain ⟨r₁, hleave, hok₁, hcur₁, hmax₁, hended, hothers⟩ := leave_spec h time
    obtain ⟨r₂, henter, hok₂, hcur₂, hmax₂, hopen, hkept⟩ := enter_spec hok₁ hcur₁ hstate time
    refine ⟨r₂, ?_, hok₂, ?_⟩
    · rw [recordCstateEvent_of_ne hsame, hleave]
      exact henter
    · exact {
        current := hcur₂
        cstateMax := by rw [hmax₂, hmax₁]
        opened := fun i hi => by
          have hne : r.currentCstate ≠ i := fun hcur => hsame (hi.trans hcur.symm)
          rw [hopen i hi, if_neg hne]
        left := fun i hi _ => by
          rw [(hkept i).1, (hkept i).2]
          exact ⟨(hended i hi).duration, (hended i hi).nrdata⟩
        kept := fun i hi => by
          have hne : r.currentCstate ≠ i := by
            rcases hi with hi | hi
            · exact hi
            · exact fun hcur => hsame (hi.trans hcur.symm)
          rw [(hkept i).1, (hkept i).2, hothers i hne]
          exact ⟨rfl, rfl⟩ }

end OneRecord

/-! ## The records the loaders build -/

/-- The value `min_time` starts from: the native loader leaves the records of
offline CPUs as `calloc` returned them. -/
def initialMinTime (loader : Loader) (topo : CpuTopology) (cpu : Int) : ℚ :=
  match loader with
  | .native => if (cpuIsOnline topo cpu).toOption.getD false then dblMax else 0
  | .sysfs => dblMax

theorem emptyCstates_ok : RecordOk (fun _ => 0) emptyCstates where
  cstate := fun _ => callocCstate_ok
  current := ⟨le_refl _, le_refl _⟩
  cstateMax := show (-1 : Int) < maxcstate by decide
  slot := fun i hi => by
    simp only [emptyCstates] at hi
    omega

theorem buildCstateInfo_ok (info : Fin maxcstate → CstateInfo) :
    RecordOk (fun _ => dblMax) (buildCstateInfo info) where
  cstate := fun i => initCstate_ok (info i)
  current := ⟨le_refl _, le_refl _⟩
  cstateMax := show (-1 : Int) < maxcstate by decide
  slot := fun i hi => by
    simp only [buildCstateInfo, emptyCstates] at hi
    omega

theorem cpuRecord_ok (loader : Loader) (topo : CpuTopology)
    (info : Int → Fin maxcstate → CstateInfo) (cpu : Int) :
    RecordOk (fun _ => initialMinTime loader topo cpu) (cpuRecord loader topo info cpu) := by
  cases loader with
  | native =>
    cases honline : (cpuIsOnline topo cpu).toOption.getD false with
    | true => simpa [cpuRecord, initialMinTime, loadAndBuildCstateInfo, honline] using
        buildCstateInfo_ok (info cpu)
    | false => simpa [cpuRecord, initialMinTime, loadAndBuildCstateInfo, honline] using
        emptyCstates_ok
  | sysfs => exact buildCstateInfo_ok (info cpu)

/-! ## Summaries against the interval list -/

/-- The statistics of one state are those of its list of intervals. -/
structure CstateExact (top : ℚ) (c : CpuidleCstate) : Prop where
  slots : c.nrdata ≤ c.data.length
  intervals : ∀ d ∈ c.data.take c.nrdata,
    d.beginTime < d.endTime ∧ d.duration = (d.endTime - d.beginTime) * usecPerSec ∧
      0 < d.duration
  duration : c.duration = (durations c).sum
  minTime : IsLeast {x | x = top ∨ x ∈ durations c} c.minTime
  minTimeRecorded : c.nrdata ≠ 0 → (∀ x ∈ durations c, x ≤ top) →
    IsLeast {x | x ∈ durations c} c.minTime
  maxTime : c.nrdata ≠ 0 → IsGreatest {x | x ∈ durations c} c.maxTime
  avgTime : c.avgTime = (durations c).sum / c.nrdata
  unused : c.nrdata = 0 → c.minTime = top ∧ c.maxTime = 0 ∧ c.avgTime = 0
  wakings : c.earlyWakings + c.lateWakings ≤ c.nrdata

structure RecordExact (top : ℚ) (r : CpuidleCstates) : Prop where
  current : r.currentCstate = -1 ∨ 0 ≤ r.currentCstate ∧ r.currentCstate ≤ r.cstateMax
  cstateMax : r.cstateMax < maxcstate
  cstate : ∀ i, CstateExact top (r.cstate i)

section Exact

variable {top : ℚ} {c : CpuidleCstate}

theorem CstateOk.length_durations (h : CstateOk top c) : (durations c).length = c.nrdata := by
  simp [durations, h.slots]

theorem CstateOk.minTime (h : CstateOk top c) :
    IsLeast {x | x = top ∨ x ∈ durations c} c.minTime := by
  have hmin : c.minTime = (ofList top (durations c)).least := congrArg Running.least h.summary
  rw [hmin]
  exact ofList_least top (durations c)

theorem CstateOk.exact (h : CstateOk top c) : CstateExact top c where
  slots := h.slots
  intervals := fun d hd => ⟨(h.intervals d hd).1, (h.intervals d hd).2,
    h.duration_pos _ (List.mem_map_of_mem hd)⟩
  duration := (congrArg Running.total h.summary).trans (ofList_total top (durations c))
  minTime := h.minTime
  minTimeRecorded := by
    intro hne hbound
    obtain ⟨x, hx⟩ := List.exists_mem_of_length_pos
      (l := durations c) (by rw [h.length_durations]; omega)
    refine ⟨?_, fun y hy => h.minTime.2 (.inr hy)⟩
    rcases h.minTime.1 with htop | hmem
    · -- the start value is reached only where some period lasted exactly that long
      have hle : c.minTime ≤ x := h.minTime.2 (.inr hx)
      have heq : x = c.minTime := le_antisymm (htop ▸ hbound x hx) hle
      exact heq ▸ hx
    · exact hmem
  maxTime := by
    intro hne
    have hmax : c.maxTime = (ofList top (durations c)).greatest :=
      congrArg Running.greatest h.summary
    rw [hmax]
    apply ofList_greatest top h.duration_pos
    intro hnil
    have hlen := h.length_durations
    rw [hnil] at hlen
    exact hne hlen.symm
  avgTime := by
    rw [← h.length_durations, ← ofList_mean top]
    exact congrArg Running.mean h.summary
  unused := by
    intro hzero
    have hnil : durations c = [] := List.length_eq_zero_iff.mp (h.length_durations.trans hzero)
    have hsummary := h.summary
    rw [hnil] at hsummary
    exact ⟨congrArg Running.least hsummary, congrArg Running.greatest hsummary,
      congrArg Running.mean hsummary⟩
  wakings := h.wakings

theorem RecordOk.exact {r : CpuidleCstates} (h : RecordOk (fun _ => top) r) :
    RecordExact top r where
  current := by
    have hcur := h.current
    omega
  cstateMax := h.cstateMax
  cstate := fun i => (h.cstate i).exact

end Exact

def recordStep (r : CpuidleCstates) (event : ℚ × Int) : Except Fault CpuidleCstates :=
  recordCstateEvent r event.1 event.2

/-- No sequence of events stops the recorder, and after every one of them each
summary is that of the recorded intervals. -/
theorem recordCstateEvent_exact (loader : Loader) (topo : CpuTopology)
    (info : Int → Fin maxcstate → CstateInfo) (cpu : Int) (events : List (ℚ × Int))
    (hvalid : ∀ event ∈ events, ValidState event.2) :
    (∃ r, Runs.run recordStep (cpuRecord loader topo info cpu) events = .ok r) ∧
      Runs.Always recordStep (fun _ r => RecordExact (initialMinTime loader topo cpu) r)
        (cpuRecord loader topo info cpu) events := by
  have hstart := cpuRecord_ok loader topo info cpu
  have hstep : ∀ past event rest r, events = past ++ event :: rest →
      RecordOk (fun _ => initialMinTime loader topo cpu) r →
      ∃ r', recordStep r event = .ok r' ∧
        RecordOk (fun _ => initialMinTime loader topo cpu) r' := by
    intro past event rest r hsplit hok
    obtain ⟨r', hrecord, hok', -⟩ :=
      recordCstateEvent_spec hok (hvalid event (by simp [hsplit])) event.1
    exact ⟨r', hrecord, hok'⟩
  constructor
  · obtain ⟨r, hrun, -⟩ := Runs.run_invariant (fun _ r => RecordOk _ r) hstart hstep
    exact ⟨r, hrun⟩
  · intro past rest r hsplit hrun
    exact (Runs.always_of_invariant (fun _ r => RecordOk _ r) hstart hstep past rest r hsplit
      hrun).exact

theorem recordCstateEvent_exact_two :
    (∀ event ∈ [((0 : ℚ), (1 : Int)), (2, -1)], ValidState event.2) ∧
    (∃ r, Runs.run recordStep (cpuRecord .sysfs allocCpuTopoInfo (fun _ _ => ⟨none, 0⟩) 0)
        [(0, 1), (2, -1)] = .ok r) ∧
      Runs.Always recordStep (fun _ r => RecordExact (initialMinTime .sysfs allocCpuTopoInfo 0) r)
        (cpuRecord .sysfs allocCpuTopoInfo (fun _ _ => ⟨none, 0⟩) 0) [(0, 1), (2, -1)] :=
  have hvalid : ∀ event ∈ [((0 : ℚ), (1 : Int)), (2, -1)], ValidState event.2 := by decide
  ⟨hvalid, recordCstateEvent_exact .sysfs allocCpuTopoInfo _ 0 _ hvalid⟩

/-- A record of an offline CPU reports a least time of 0 before any period, and
after a period longer than the largest `double` that number is reported. -/
theorem minTime_not_least :
    (Runs.run recordStep (cpuRecord .native allocCpuTopoInfo (fun _ _ => ⟨none, 0⟩) 0)
        [(0, -1)]).map (fun r => ((r.cstate 0).nrdata, (r.cstate 0).minTime)) = .ok (0, 0) ∧
      (0 : ℚ) ≠ dblMax ∧
    (Runs.run recordStep (cpuRecord .sysfs allocCpuTopoInfo (fun _ _ => ⟨none, 0⟩) 0)
        [(0, 0), (dblMax, -1)]).map
          (fun r => ((r.cstate 0).nrdata, durations (r.cstate 0), (r.cstate 0).minTime)) =
        .ok (1, [dblMax * usecPerSec], dblMax) ∧
      dblMax ∉ [dblMax * usecPerSec] := by
  decide +kernel

end Idlestat.Theory.CstateRecord
