import Idlestat.Theory.PstateRecord

/-! What one call of `record_group_freq` is asked to do, for any record whose
table is sorted and whose index is in range, and exactly when it does so. -/
namespace Idlestat.Theory.GroupUpdate

open Idlestat.Library.RunningStats Idlestat.Model.Cstates Idlestat.Model.Pstates
  Idlestat.Theory.CstateRecord Idlestat.Theory.PstateRecord

/-- The requested change: the frequency before the call gives way to `freq`. -/
structure FreqChanged (ps ps' : CpufreqPstates) (time : ℚ) (freq : Nat) : Prop where
  stopped : freq = 0 → ps'.current = -1
  current : freq ≠ 0 → currentFreq ps' = some freq
  duration : ∀ g, currentFreq ps = some g → g ≠ freq →
    (statsOf ps' g).total =
      (statsOf ps g).total + max 0 (usecPerSec * (time - ps.timeEnter))
  count : ∀ g, currentFreq ps = some g → g ≠ freq →
    (statsOf ps' g).count = (statsOf ps g).count +
      if 0 < usecPerSec * (time - ps.timeEnter) then 1 else 0
  timeEnter : freq ≠ 0 → currentFreq ps ≠ some freq → ps'.timeEnter = time
  same : currentFreq ps = some freq → ps' = ps
  others : ∀ g, currentFreq ps ≠ some g → statsOf ps' g = statsOf ps g

/-- An entry of frequency 0 is current and none is to be shown: the request
asks for `current` to be -1 and for no change at all. -/
def StopsZero (ps : CpufreqPstates) (freq : Nat) : Prop :=
  freq = 0 ∧ currentFreq ps = some 0

instance (ps : CpufreqPstates) (freq : Nat) : Decidable (StopsZero ps freq) := by
  unfold StopsZero
  infer_instance

section Closing

variable {ps ps' : CpufreqPstates} {freq g : Nat} {time : ℚ}

private theorem gained {before after : Running ℚ} {elapsed : ℚ}
    (h : after = if 0 < elapsed then before.push elapsed else before) :
    after.total = before.total + max 0 elapsed ∧
      after.count = before.count + if 0 < elapsed then 1 else 0 := by
  subst h
  by_cases hpos : 0 < elapsed
  · rw [if_pos hpos, if_pos hpos, max_eq_right hpos.le]
    exact ⟨rfl, rfl⟩
  · rw [if_neg hpos, if_neg hpos, max_eq_left (not_lt.mp hpos), add_zero]
    exact ⟨rfl, rfl⟩

private structure PeriodClosed (ps ps' : CpufreqPstates) (time : ℚ) : Prop where
  stats : ∀ g, statsOf ps' g =
    if currentFreq ps = some g ∧ 0 < usecPerSec * (time - ps.timeEnter)
    then (statsOf ps g).push (usecPerSec * (time - ps.timeEnter)) else statsOf ps g

private theorem PeriodClosed.gained (h : PeriodClosed ps ps' time) (hg : currentFreq ps = some g) :
    (statsOf ps' g).total =
        (statsOf ps g).total + max 0 (usecPerSec * (time - ps.timeEnter)) ∧
      (statsOf ps' g).count = (statsOf ps g).count +
        if 0 < usecPerSec * (time - ps.timeEnter) then 1 else 0 := by
  apply GroupUpdate.gained
  rw [h.stats]
  simp only [hg, true_and]

private theorem PeriodClosed.others (h : PeriodClosed ps ps' time)
    (hg : currentFreq ps ≠ some g) : statsOf ps' g = statsOf ps g := by
  rw [h.stats]
  simp only [hg, false_and, if_false]

end Closing

section Call

variable {ps : CpufreqPstates} {freq : Nat}

private theorem changed_of_opened (h : TableOk ps) (hpos : 0 < freq)
    (hnone : currentFreq ps = none) (time : ℚ) :
    FreqChanged ps (openNextPstate (allocPstate ps freq).1 (allocPstate ps freq).2 time)
      time freq := by
  have halloc := allocPstate_spec h freq
  have hno : ∀ g, currentFreq ps ≠ some g := by simp [hnone]
  exact {
    stopped := fun hzero => absurd hzero hpos.ne'
    current := fun _ => halloc.index
    duration := fun g hg => absurd hg (hno g)
    count := fun g hg => absurd hg (hno g)
    timeEnter := fun _ _ => rfl
    same := fun hsame => absurd hsame (hno freq)
    others := fun g _ => halloc.stats g }

private theorem changed_of_moved {g : Nat} (h : TableOk ps) (hpos : 0 < freq)
    (hcur : currentFreq ps = some g) (hne : g ≠ freq) (time : ℚ) :
    FreqChanged ps
      (openCurrentPstate { closeCurrentPstate (allocPstate ps freq).1 time with
        current := (allocPstate ps freq).2 } time) time freq := by
  have halloc := allocPstate_spec h freq
  have hindex : (allocPstate ps freq).1.current ≠ -1 := by
    rw [Ne, ← halloc.table.currentFreq_eq_none, halloc.currentFreq, hcur]
    exact Option.some_ne_none g
  have hclosed := closeCurrentPstate_spec halloc.table hindex time
  have hperiod : PeriodClosed ps (openCurrentPstate
      { closeCurrentPstate (allocPstate ps freq).1 time with
        current := (allocPstate ps freq).2 } time) time := by
    constructor
    intro g'
    refine (hclosed.stats g').trans ?_
    rw [halloc.currentFreq, halloc.stats, halloc.timeEnter, mul_comm]
  exact {
    stopped := fun hzero => absurd hzero hpos.ne'
    current := fun _ => (hclosed.freqAt _).trans halloc.index
    duration := fun g' hg' _ => (hperiod.gained hg').1
    count := fun g' hg' _ => (hperiod.gained hg').2
    timeEnter := fun _ _ => rfl
    same := fun hsame => absurd (Option.some.inj (hcur.symm.trans hsame)) hne
    others := fun g' hg' => hperiod.others hg' }

private theorem changed_of_stopped {g : Nat} (h : TableOk ps) (hcur : currentFreq ps = some g)
    (hne : g ≠ 0) (time : ℚ) :
    FreqChanged ps { closeCurrentPstate ps time with current := -1 } time 0 := by
  have hindex : ps.current ≠ -1 := by
    rw [Ne, ← h.currentFreq_eq_none, hcur]
    exact Option.some_ne_none g
  have hclosed := closeCurrentPstate_spec h hindex time
  have hperiod : PeriodClosed ps { closeCurrentPstate ps time with current := -1 } time := by
    constructor
    intro g'
    refine (hclosed.stats g').trans ?_
    rw [mul_comm]
  exact {
    stopped := fun _ => rfl
    current := fun hzero => absurd rfl hzero
    duration := fun g' hg' _ => (hperiod.gained hg').1
    count := fun g' hg' _ => (hperiod.gained hg').2
    timeEnter := fun hzero => absurd rfl hzero
    same := fun hsame => absurd (Option.some.inj (hcur.symm.trans hsame)) hne
    others := fun g' hg' => hperiod.others hg' }

private theorem changed_of_unchanged (h : TableOk ps) (hsame : currentFreq ps = shown freq)
    (time : ℚ) : FreqChanged ps ps time freq := by
  by_cases hpos : 0 < freq
  · have hcur : currentFreq ps = some freq := hsame.trans (if_pos hpos)
    exact {
      stopped := fun hzero => absurd hzero hpos.ne'
      current := fun _ => hcur
      duration := fun g hg hne => absurd (Option.some.inj (hg.symm.trans hcur)) hne
      count := fun g hg hne => absurd (Option.some.inj (hg.symm.trans hcur)) hne
      timeEnter := fun _ hne => absurd hcur hne
      same := fun _ => rfl
      others := fun _ _ => rfl }
  · have hcur : currentFreq ps = none := hsame.trans (if_neg hpos)
    have hzero : freq = 0 := Nat.eq_zero_of_not_pos hpos
    exact {
      stopped := fun _ => h.currentFreq_eq_none.mp hcur
      current := fun hne => absurd hzero hne
      duration := fun g hg => absurd (hcur.symm.trans hg) (by simp)
      count := fun g hg => absurd (hcur.symm.trans hg) (by simp)
      timeEnter := fun hne => absurd hzero hne
      same := fun _ => rfl
      others := fun _ _ => rfl }

/-- The slip shows up in `current`: it still designates the old frequency. -/
private theorem not_changed_of_slips (h : TableOk ps) (hslips : Slips ps freq) (time : ℚ) :
    ¬ FreqChanged ps (allocPstate ps freq).1 time freq := by
  intro hchanged
  apply hslips.currentFreq_ne h
  rw [shown, if_pos hslips.1, ← hchanged.current hslips.1.ne']
  exact (allocPstate_spec h freq).currentFreq.symm

private theorem not_changed_of_stopsZero {ps' : CpufreqPstates} (hzero : StopsZero ps freq)
    (time : ℚ) : ¬ FreqChanged ps ps' time freq := by
  intro hchanged
  have hstopped := hchanged.stopped hzero.1
  rw [hchanged.same (hzero.2.trans (congrArg some hzero.1.symm))] at hstopped
  have hcur := hzero.2
  rw [currentFreq, hstopped, freqAt_of_neg (by decide)] at hcur
  exact absurd hcur (by simp)

/-- The call does what it is asked to do unless it takes a new frequency for the
current one, or is asked to leave an entry of frequency 0 for none. -/
theorem recordGroupFreq_exact (h : TableOk ps) (freq : Nat) (time : ℚ) :
    FreqChanged ps (recordGroupFreq ps time freq) time freq ↔
      ¬ Slips ps freq ∧ ¬ StopsZero ps freq := by
  have hzeroFails : StopsZero ps freq →
      ¬ FreqChanged ps (recordGroupFreq ps time freq) time freq :=
    fun hzero => not_changed_of_stopsZero hzero time
  have hbranch := recordGroupFreq_cases h freq time
  generalize recordGroupFreq ps time freq = recorded at hbranch hzeroFails
  cases hbranch with
  | unchanged hsame =>
    have hchanged := changed_of_unchanged h hsame time
    exact ⟨fun _ => ⟨fun hslips => hslips.currentFreq_ne h hsame,
      fun hzero => hzeroFails hzero hchanged⟩, fun _ => hchanged⟩
  | slipped hslips =>
    exact ⟨fun hchanged => absurd hchanged (not_changed_of_slips h hslips time),
      fun hnot => absurd hslips hnot.1⟩
  | opened hnot hpos hnone =>
    have hchanged := changed_of_opened h hpos hnone time
    exact ⟨fun _ => ⟨hnot, fun hzero => hzeroFails hzero hchanged⟩, fun _ => hchanged⟩
  | moved hnot hpos hcur hne =>
    have hchanged := changed_of_moved h hpos hcur hne time
    exact ⟨fun _ => ⟨hnot, fun hzero => hzeroFails hzero hchanged⟩, fun _ => hchanged⟩
  | @stopped g hzero hcur =>
    subst hzero
    constructor
    · intro hchanged
      exact ⟨fun hslips => absurd hslips.1 (by simp),
        fun hstops => hzeroFails hstops hchanged⟩
    · rintro ⟨-, hnot⟩
      exact changed_of_stopped h hcur (fun hg => hnot ⟨rfl, hg ▸ hcur⟩) time

def runningAt1000 : CpufreqPstates :=
  { buildPstateInfo with pstate := [newPstate 0 1000], current := 0, max := 1 }

theorem runningAt1000_ok : TableOk runningAt1000 where
  sorted := by simp [rows, runningAt1000, row, Library.SortedKeys.Increasing]
  max := rfl
  current := ⟨by decide, by decide⟩

theorem recordGroupFreq_exact_above :
    FreqChanged runningAt1000 (recordGroupFreq runningAt1000 2 1500) 2 1500 :=
  (recordGroupFreq_exact runningAt1000_ok 1500 2).mpr ⟨by decide, by decide⟩

/-- A new frequency directly below the current one is not switched to. -/
theorem recordGroupFreq_below :
    TableOk runningAt1000 ∧
      ¬ FreqChanged runningAt1000 (recordGroupFreq runningAt1000 2 500) 2 500 := by
  refine ⟨runningAt1000_ok, fun hchanged => ?_⟩
  exact absurd (hchanged.current (by decide)) (by decide)

end Call

end Idlestat.Theory.GroupUpdate
