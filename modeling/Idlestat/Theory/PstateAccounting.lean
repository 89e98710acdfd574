import Idlestat.Theory.CstateAccounting

/-! The time recorded for each frequency of a CPU against the time the CPU was
operating at it. The record loses time when a CPU whose idle flag is unknown
changes frequency and when a running CPU is woken up again, and gains some when
a sleeping CPU enters another C-state; without such steps it is exact. -/
namespace Idlestat.Theory.PstateAccounting

open Idlestat.Library Idlestat.Library.Timeline Idlestat.Library.RunningStats
  Idlestat.Model.Topology Idlestat.Model.Cstates Idlestat.Model.Pstates Idlestat.Model.Recorder
  Idlestat.Theory.CstateRecord Idlestat.Theory.Nodes Idlestat.Theory.PstateRecord
  Idlestat.Theory.Setup Idlestat.Theory.RecorderSteps Idlestat.Theory.CstateAccounting

/-! ## The offline reading -/

def latestFreq (events : List PowerEvent) (cpu : Int) : Option Nat :=
  events.foldl (fun latest event =>
    match event with
    | .storeData _ _ _ => latest
    | .cpuChangePstate c freq _ => if c = cpu then some freq else latest) none

def reading (cpu : Int) (events : List PowerEvent) : Option Nat × Int :=
  (latestFreq events cpu, latestState events cpu)

def cpuHistory (events : List PowerEvent) (cpu : Int) : History ℚ (Option Nat × Int) :=
  observed PowerEvent.time (reading cpu) events

/-- The time the CPU was operating, in state -1, at this frequency. -/
def operatingTime (events : List PowerEvent) (cpu : Int) (freq : Nat) : ℚ :=
  timeIn (cpuHistory events cpu) (some freq, -1)

def lastEventTime (events : List PowerEvent) : ℚ :=
  lastTime (observed PowerEvent.time (fun _ => ()) events)

/-- The time since the record was last opened, if it was at this frequency. -/
def pending (ps : CpufreqPstates) (freq : Nat) (time : ℚ) : ℚ :=
  if currentFreq ps = some freq then usecPerSec * (time - ps.timeEnter) else 0

/-- What the record knows of a frequency at a time. -/
def accrued (ps : CpufreqPstates) (operating : Prop) [Decidable operating] (freq : Nat)
    (time : ℚ) : ℚ :=
  (statsOf ps freq).total + if operating then pending ps freq time else 0

/-- The record of the CPU is exact at the time of the last event. -/
def ExactAt (events : List PowerEvent) (cpu : Int) (ps : CpufreqPstates) : Prop :=
  ∀ freq > 0, accrued ps (latestState events cpu = -1) freq (lastEventTime events) =
    usecPerSec * operatingTime events cpu freq

/-- A period at a known frequency has been open for some time. -/
def Unsettled (ps : CpufreqPstates) (time : ℚ) : Prop :=
  ∃ freq > 0, currentFreq ps = some freq ∧ ps.timeEnter < time

/-- The event does not meet a defect: with a period open, idle events alternate
and no frequency event finds an operating CPU with its idle flag unknown. -/
def TimeKept (datas : CpuidleDatas) : PowerEvent → Prop
  | .storeData time state cpu =>
    ¬ Ignored datas cpu state → Unsettled (datas.pstates (.percpu cpu)) time →
      (state = -1 ↔ currentCstates datas cpu ≠ -1)
  | .cpuChangePstate cpu _ time =>
    Unsettled (datas.pstates (.percpu cpu)) time → (datas.pstates (.percpu cpu)).idle = -1 →
      currentCstates datas cpu ≠ -1

theorem unsettled_iff {ps : CpufreqPstates} {time : ℚ} :
    Unsettled ps time ↔ 0 < (currentFreq ps).getD 0 ∧ ps.timeEnter < time := by
  unfold Unsettled
  cases currentFreq ps with
  | none => simp
  | some freq => simp [and_comm]

instance (ps : CpufreqPstates) (time : ℚ) : Decidable (Unsettled ps time) :=
  decidable_of_iff _ unsettled_iff.symm

instance (datas : CpuidleDatas) : (event : PowerEvent) → Decidable (TimeKept datas event)
  | .storeData _ _ _ => inferInstanceAs (Decidable (¬ _ → _ → (_ ↔ ¬ _)))
  | .cpuChangePstate _ _ _ => inferInstanceAs (Decidable (_ → _ → ¬ _))

section OneRecord

variable {ps ps' : CpufreqPstates} {time : ℚ} {operating : Prop} [Decidable operating]

def OpenedBy (ps : CpufreqPstates) (time : ℚ) : Prop :=
  currentFreq ps ≠ none → ps.timeEnter ≤ time

theorem pending_nonneg (h : OpenedBy ps time) (freq : Nat) : 0 ≤ pending ps freq time := by
  unfold pending
  split
  · next hcur =>
    have hle := h (by simp [hcur])
    exact mul_nonneg usecPerSec_pos.le (sub_nonneg.mpr hle)
  · exact le_refl _

theorem pending_eq_zero_iff (h : OpenedBy ps time) :
    (∀ freq > 0, pending ps freq time = 0) ↔ ¬ Unsettled ps time := by
  constructor
  · rintro hzero ⟨freq, hpos, hcur, hlt⟩
    have hpending := hzero freq hpos
    rw [pending, if_pos hcur] at hpending
    exact (mul_pos usecPerSec_pos (sub_pos.mpr hlt)).ne' hpending
  · intro hnot freq hpos
    unfold pending
    split
    · next hcur =>
      have hle := h (by simp [hcur])
      have heq : ps.timeEnter = time :=
        le_antisymm hle (not_lt.mp fun hlt => hnot ⟨freq, hpos, hcur, hlt⟩)
      rw [heq, sub_self, mul_zero]
    · rfl

/-- Dropping what is pending under a condition is harmless unless time is at stake. -/
theorem pending_dropped_iff (h : OpenedBy ps time) (cond : Prop) :
    (∀ freq > 0, cond → pending ps freq time = 0) ↔ (Unsettled ps time → ¬ cond) := by
  constructor
  · intro hdrop hunsettled hcond
    exact (pending_eq_zero_iff h).mp (fun freq hpos => hdrop freq hpos hcond) hunsettled
  · intro himp freq hpos hcond
    exact (pending_eq_zero_iff h).mpr (fun hunsettled => himp hunsettled hcond) freq hpos

theorem pending_reopened (hopen : currentFreq ps ≠ none → ps.timeEnter = time) (freq : Nat) :
    pending ps freq time = 0 := by
  unfold pending
  split
  · next hcur => rw [hopen (by simp [hcur]), sub_self, mul_zero]
  · rfl

/-- Closing the period adds what was pending, whether or not it took time. -/
theorem total_closed (h : OpenedBy ps time) (freq : Nat) :
    (if currentFreq ps = some freq ∧ 0 < (time - ps.timeEnter) * usecPerSec
      then (statsOf ps freq).push ((time - ps.timeEnter) * usecPerSec)
      else statsOf ps freq).total = (statsOf ps freq).total + pending ps freq time := by
  have hnonneg := pending_nonneg h freq
  unfold pending at hnonneg ⊢
  rw [mul_comm usecPerSec] at hnonneg ⊢
  split
  · next hboth => simp [hboth.1, Running.push]
  · next hnot =>
    split
    · next hcur =>
      rw [if_pos hcur] at hnonneg
      have hzero : (time - ps.timeEnter) * usecPerSec = 0 :=
        le_antisymm (not_lt.mp fun hpos => hnot ⟨hcur, hpos⟩) hnonneg
      rw [hzero, add_zero]
    · rw [add_zero]

theorem resumed_exact (hok : PstatesOk ps) (h : OpenedBy ps time) :
    (∀ freq > 0, accrued (resumed ps time) True freq time = accrued ps operating freq time) ↔
      (Unsettled ps time → ¬ operating) := by
  have hresumed := resumed_spec hok time
  have hopen : currentFreq (resumed ps time) ≠ none → (resumed ps time).timeEnter = time := by
    intro hne
    rw [hresumed.current] at hne
    rw [hresumed.timeEnter, if_neg hne]
  have hiff : ∀ freq, accrued (resumed ps time) True freq time = accrued ps operating freq time ↔
      (operating → pending ps freq time = 0) := by
    intro freq
    by_cases hop : operating
    · simp [accrued, hresumed.stats, pending_reopened hopen, hop]
    · simp [accrued, hresumed.stats, pending_reopened hopen, hop]
  simp only [hiff]
  exact pending_dropped_iff h operating

theorem idled_exact (hok : PstatesOk ps) (h : OpenedBy ps time) :
    (∀ freq > 0, accrued (idled ps time) False freq time = accrued ps operating freq time) ↔
      (Unsettled ps time → operating) := by
  have hidled := idled_spec hok time
  have hiff : ∀ freq, accrued (idled ps time) False freq time = accrued ps operating freq time ↔
      (¬ operating → pending ps freq time = 0) := by
    intro freq
    by_cases hop : operating
    · simp [accrued, hidled.stats, total_closed h, hop]
    · simp [accrued, hidled.stats, total_closed h, hop]
  simp only [hiff]
  rw [pending_dropped_iff h, not_not]

/-- The flag is unknown or, in a record with a table, says whether the CPU is
operating. -/
def FlagKnown (ps : CpufreqPstates) (operating : Prop) : Prop :=
  ps.idle = -1 ∨ ps.pstate ≠ [] ∧ (ps.idle = 1 ↔ ¬ operating)

theorem changed_exact (hok : PstatesOk ps) (h : OpenedBy ps time)
    (hflag : FlagKnown ps operating) (freq : Nat) :
    (∀ f > 0, accrued (changed ps freq time) operating f time = accrued ps operating f time) ↔
      (Unsettled ps time → ps.idle = -1 → ¬ operating) := by
  have hchanged := changed_spec hok freq time
  have hopen : ps.idle ≠ 1 → currentFreq (changed ps freq time) ≠ none →
      (changed ps freq time).timeEnter = time := by
    intro hidle _
    rw [hchanged.timeEnter, if_neg hidle]
  rcases hok.idle with hidle | hidle | hidle
  · -- the flag is unknown, and the period that was open is forgotten
    have hdropped : ∀ f, accrued (changed ps freq time) operating f time =
        accrued ps operating f time ↔ (operating → pending ps f time = 0) := by
      intro f
      have hreopened := pending_reopened (hopen (by omega)) f
      by_cases hop : operating
      · simp [accrued, hchanged.stats, hreopened, hidle, hop]
      · simp [accrued, hchanged.stats, hidle, hop]
    simp only [hdropped, hidle, forall_const]
    exact pending_dropped_iff h operating
  · have hop : operating := by
      rcases hflag with hflag | hflag
      · omega
      · exact not_not.mp (hflag.2.not.mp (by omega))
    refine iff_of_true (fun f _ => ?_) (fun _ hunknown => by omega)
    have hreopened := pending_reopened (hopen (by omega)) f
    simp only [accrued, hchanged.stats, hidle, true_and, total_closed h, hreopened, hop, if_true,
      add_zero]
  · have hop : ¬ operating := by
      rcases hflag with hflag | hflag
      · omega
      · exact hflag.2.mp hidle
    refine iff_of_true (fun f _ => ?_) (fun _ hunknown => by omega)
    simp [accrued, hchanged.stats, hidle, hop]

end OneRecord

section OneEvent

variable {events : List PowerEvent} {event : PowerEvent} {cpu : Int} {freq : Nat}

theorem latestFreq_storeData (time : ℚ) (state c : Int) :
    latestFreq (events ++ [.storeData time state c]) = latestFreq events := by
  funext cpu
  simp [latestFreq]

theorem latestFreq_cpuChangePstate (c : Int) (freq : Nat) (time : ℚ) :
    latestFreq (events ++ [.cpuChangePstate c freq time]) cpu =
      if c = cpu then some freq else latestFreq events cpu := by
  simp [latestFreq]

@[simp] theorem lastEventTime_concat :
    lastEventTime (events ++ [event]) = event.time := by
  rw [lastEventTime, observed_concat, lastTime_concat]

theorem lastTime_cpuHistory : lastTime (cpuHistory events cpu) = lastEventTime events := by
  induction events using List.reverseRecOn with
  | nil => rfl
  | append_singleton past event _ =>
    rw [cpuHistory, observed_concat, lastTime_concat, lastEventTime_concat]

theorem reading_other (hne : cpu ≠ event.cpu) :
    reading cpu (events ++ [event]) = reading cpu events := by
  cases event with
  | storeData time state c =>
    have hne' : ¬ c = cpu := fun heq => hne heq.symm
    rw [reading, latestFreq_storeData, latestState_storeData, if_neg hne', reading]
  | cpuChangePstate c freq time =>
    have hne' : ¬ c = cpu := fun heq => hne heq.symm
    rw [reading, latestFreq_cpuChangePstate, latestState_cpuChangePstate, if_neg hne', reading]

structure Followed (events : List PowerEvent) (cpu : Int) (ps : CpufreqPstates) : Prop where
  freq : currentFreq ps = latestFreq events cpu
  known : ps.pstate ≠ [] → currentFreq ps ≠ none
  opened : currentFreq ps ≠ none → ∃ event ∈ events, event.time = ps.timeEnter
  flag : FlagKnown ps (latestState events cpu = -1)

theorem Followed.openedBy {ps : CpufreqPstates} (h : Followed events cpu ps) {time : ℚ}
    (hle : ∀ event ∈ events, event.time ≤ time) : OpenedBy ps time := by
  intro hne
  obtain ⟨event, hevent, heq⟩ := h.opened hne
  exact heq ▸ hle event hevent

theorem operatingTime_concat {ps : CpufreqPstates} (h : Followed events cpu ps) :
    usecPerSec * operatingTime (events ++ [event]) cpu freq =
      usecPerSec * operatingTime events cpu freq +
        if latestState events cpu = -1 ∧ currentFreq ps = some freq
        then usecPerSec * (event.time - lastEventTime events) else 0 := by
  have hlast : lastState (cpuHistory events cpu) = some (some freq, -1) ↔
      latestState events cpu = -1 ∧ currentFreq ps = some freq := by
    rw [cpuHistory, lastState_observed, h.freq]
    by_cases hnil : events = []
    · simp [hnil, latestFreq]
    · simp [hnil, reading, and_comm]
  unfold operatingTime
  rw [cpuHistory, observed_concat, timeIn_concat, ← cpuHistory, lastTime_cpuHistory, mul_add,
    mul_ite, mul_zero]
  simp only [hlast]

/-- An exact record stays exact when what it knows does not jump at the event. -/
theorem exactAt_concat {ps ps' : CpufreqPstates} (h : Followed events cpu ps)
    (hexact : ExactAt events cpu ps) :
    ExactAt (events ++ [event]) cpu ps' ↔
      ∀ freq > 0, accrued ps' (latestState (events ++ [event]) cpu = -1) freq event.time =
        accrued ps (latestState events cpu = -1) freq event.time := by
  have hgrown : ∀ freq > 0, usecPerSec * operatingTime (events ++ [event]) cpu freq =
      accrued ps (latestState events cpu = -1) freq event.time := by
    intro freq hpos
    rw [operatingTime_concat h, ← hexact freq hpos, accrued, accrued, add_assoc]
    congr 1
    unfold pending
    split
    · next hop =>
      split
      · next hcur =>
        rw [if_pos ⟨hop, hcur⟩]
        ring
      · next hcur =>
        rw [if_neg fun hboth => hcur hboth.2, add_zero]
    · next hop => rw [if_neg fun hboth => hop hboth.1, add_zero]
  unfold ExactAt
  rw [lastEventTime_concat]
  constructor
  · intro hall freq hpos
    rw [hall freq hpos, hgrown freq hpos]
  · intro hall freq hpos
    rw [hall freq hpos, hgrown freq hpos]

variable {datas datas' : CpuidleDatas} {phy : CpuPhysical} {core : CpuCore}

theorem accrued_of_none {ps : CpufreqPstates} {operating : Prop} [Decidable operating]
    (hnone : currentFreq ps = none) (freq : Nat) (time : ℚ) :
    accrued ps operating freq time = (statsOf ps freq).total := by
  simp [accrued, pending, hnone]

theorem not_unsettled_of_none {ps : CpufreqPstates} (hnone : currentFreq ps = none) (time : ℚ) :
    ¬ Unsettled ps time := by
  rintro ⟨freq, -, hcur, -⟩
  rw [hnone] at hcur
  cases hcur

/-- An ignored event is one more wake-up of a CPU that is running. -/
theorem latestState_ignored {state : Int} (hready : Ready datas)
    (hcur : currentCstates datas cpu = latestState events cpu)
    (hignored : Ignored datas cpu state) (time : ℚ) :
    latestState (events ++ [.storeData time state cpu]) cpu = latestState events cpu := by
  rw [latestState_storeData, if_pos rfl, hignored.1, ← hcur, hignored.current hready]

private theorem accrued_stored {cpu state : Int} {time : ℚ} (hready : Ready datas)
    (hopened : OpenedBy (datas.pstates (.percpu cpu)) time)
    (hcur : currentCstates datas cpu = latestState events cpu)
    (hnot : ¬ Ignored datas cpu state) (hstored : Stored datas datas' phy core cpu state time) :
    (∀ freq > 0, accrued (datas'.pstates (.percpu cpu))
        (latestState (events ++ [.storeData time state cpu]) cpu = -1) freq time =
      accrued (datas.pstates (.percpu cpu)) (latestState events cpu = -1) freq time) ↔
      TimeKept datas (.storeData time state cpu) := by
  have hps := hready.pstates (.percpu cpu)
  have hlatest : latestState (events ++ [.storeData time state cpu]) cpu = state := by
    rw [latestState_storeData, if_pos rfl]
  simp only [hlatest, hstored.pstates, storedTable_self, TimeKept, hnot, not_false_iff,
    forall_const, hcur]
  by_cases hempty : (datas.pstates (.percpu cpu)).pstate = []
  · have hnone : currentFreq (datas.pstates (.percpu cpu)) = none :=
      pstate_eq_nil_iff.mp hempty _
    refine iff_of_true (fun freq _ => ?_) fun hun => absurd hun (not_unsettled_of_none hnone _)
    rw [if_pos hempty, accrued_of_none hnone, accrued_of_none hnone]
  · by_cases hrunning : state = -1
    · simp only [hempty, if_false, hrunning, if_true, true_iff]
      exact resumed_exact hps hopened
    · simp only [hempty, if_false, hrunning, false_iff, not_not]
      exact idled_exact hps hopened

/-- The event leaves what the record of its CPU knows as it was exactly when it
meets no defect. -/
theorem accrued_own (hready : Ready datas)
    (h : Followed events event.cpu (datas.pstates (.percpu event.cpu)))
    (hcur : currentCstates datas event.cpu = latestState events event.cpu)
    (hle : ∀ past ∈ events, past.time ≤ event.time)
    (heffect : Effect datas phy core event datas') :
    (∀ freq > 0, accrued (datas'.pstates (.percpu event.cpu))
        (latestState (events ++ [event]) event.cpu = -1) freq event.time =
      accrued (datas.pstates (.percpu event.cpu)) (latestState events event.cpu = -1) freq
        event.time) ↔ TimeKept datas event := by
  have hopened := h.openedBy hle
  cases heffect with
  | @ignored time state cpu hignored =>
    have hlatest : latestState (events ++ [.storeData time state cpu]) cpu =
        latestState events cpu := latestState_ignored hready hcur hignored time
    refine iff_of_true (fun freq _ => ?_) fun hnot => absurd hignored hnot
    change accrued _ (latestState (events ++ [.storeData time state cpu]) cpu = -1) _ _ = _
    simp only [hlatest]
    rfl
  | stored hnot hstored => exact accrued_stored hready hopened hcur hnot hstored
  | @changed cpu freq time =>
    have hchanged := changed_exact (hready.pstates (.percpu cpu)) hopened h.flag freq
    change (∀ f > 0, accrued (changedTable _ _ _ cpu freq time (.percpu cpu))
      (latestState (events ++ [.cpuChangePstate cpu freq time]) cpu = -1) f time = _) ↔
      (_ → _ → currentCstates datas cpu ≠ -1)
    have hcur' : currentCstates datas cpu = latestState events cpu := hcur
    simp only [changedTable_self, latestState_cpuChangePstate, hcur']
    exact hchanged

private theorem followed_stored {cpu state : Int} {time : ℚ} (hready : Ready datas)
    (h : Followed events cpu (datas.pstates (.percpu cpu)))
    (hstored : Stored datas datas' phy core cpu state time) :
    Followed (events ++ [.storeData time state cpu]) cpu (datas'.pstates (.percpu cpu)) := by
  have hps := hready.pstates (.percpu cpu)
  have hlatest : latestState (events ++ [.storeData time state cpu]) cpu = state := by
    rw [latestState_storeData, if_pos rfl]
  have holder : ∀ {enter : ℚ}, (∃ past ∈ events, past.time = enter) →
      ∃ past ∈ events ++ [.storeData time state cpu], past.time = enter := by
    rintro enter ⟨past, hpast, heq⟩
    exact ⟨past, List.mem_append_left _ hpast, heq⟩
  rw [hstored.pstates, storedTable_self]
  by_cases hempty : (datas.pstates (.percpu cpu)).pstate = []
  · rw [if_pos hempty]
    exact {
      freq := by rw [latestFreq_storeData, h.freq]
      known := h.known
      opened := fun hne => holder (h.opened hne)
      flag := h.flag.imp id fun hflag => absurd hempty hflag.1 }
  · rw [if_neg hempty]
    by_cases hrunning : state = -1
    · have hresumed := resumed_spec hps time
      rw [if_pos hrunning]
      exact {
        freq := by rw [latestFreq_storeData, hresumed.current, h.freq]
        known := fun _ => hresumed.current ▸ h.known hempty
        opened := fun hne => by
          rw [hresumed.current] at hne
          exact ⟨_, List.mem_concat_self, by rw [hresumed.timeEnter, if_neg hne]; rfl⟩
        flag := .inr ⟨hresumed.nonempty.not.mpr hempty, by
          rw [hlatest, hresumed.idle]
          simp [hrunning]⟩ }
    · have hidled := idled_spec hps time
      rw [if_neg hrunning]
      exact {
        freq := by rw [latestFreq_storeData, hidled.current, h.freq]
        known := fun _ => hidled.current ▸ h.known hempty
        opened := fun hne => by
          rw [hidled.current] at hne
          rw [hidled.timeEnter]
          exact holder (h.opened hne)
        flag := .inr ⟨hidled.nonempty.not.mpr hempty, by
          rw [hlatest, hidled.idle]
          simp [hrunning]⟩ }

private theorem followed_changed {cpu : Int} (hready : Ready datas)
    (h : Followed events cpu (datas.pstates (.percpu cpu))) (freq : Nat) (time : ℚ) :
    Followed (events ++ [.cpuChangePstate cpu freq time]) cpu
      (changed (datas.pstates (.percpu cpu)) freq time) := by
  have hchanged := changed_spec (hready.pstates (.percpu cpu)) freq time
  exact {
    freq := by rw [latestFreq_cpuChangePstate, if_pos rfl, hchanged.current]
    known := fun _ => by simp [hchanged.current]
    opened := fun _ => by
      rw [hchanged.timeEnter]
      split
      · next hidle =>
        -- the record was opened by the event that made its table
        have htable : (datas.pstates (.percpu cpu)).pstate ≠ [] := by
          rcases h.flag with hflag | hflag
          · omega
          · exact hflag.1
        obtain ⟨past, hpast, heq⟩ := h.opened (h.known htable)
        exact ⟨past, List.mem_append_left _ hpast, heq⟩
      · exact ⟨_, List.mem_concat_self, rfl⟩
    flag := by
      rw [latestState_cpuChangePstate]
      rcases h.flag with hflag | hflag
      · exact .inl (hchanged.idle.trans hflag)
      · exact .inr ⟨hchanged.nonempty, by rw [hchanged.idle]; exact hflag.2⟩ }

theorem followed_own (hready : Ready datas)
    (h : Followed events event.cpu (datas.pstates (.percpu event.cpu)))
    (hcur : currentCstates datas event.cpu = latestState events event.cpu)
    (heffect : Effect datas phy core event datas') :
    Followed (events ++ [event]) event.cpu (datas'.pstates (.percpu event.cpu)) := by
  cases heffect with
  | @ignored time state cpu hignored =>
    have hlatest : latestState (events ++ [.storeData time state cpu]) cpu =
        latestState events cpu := latestState_ignored hready hcur hignored time
    exact {
      freq := by rw [latestFreq_storeData, h.freq]
      known := h.known
      opened := fun hne => by
        obtain ⟨past, hpast, heq⟩ := h.opened hne
        exact ⟨past, List.mem_append_left _ hpast, heq⟩
      flag := by
        change FlagKnown _ (latestState (events ++ [.storeData time state cpu]) cpu = -1)
        rw [hlatest]
        exact h.flag }
  | stored _ hstored => exact followed_stored hready h hstored
  | @changed cpu freq time =>
    have hfollowed := followed_changed hready h freq time
    simpa [PowerEvent.cpu] using hfollowed

theorem other_cpu (hne : cpu ≠ event.cpu) (heffect : Effect datas phy core event datas')
    (h : Followed events cpu (datas.pstates (.percpu cpu)))
    (hexact : ExactAt events cpu (datas.pstates (.percpu cpu))) :
    ExactAt (events ++ [event]) cpu (datas'.pstates (.percpu cpu)) := by
  have hlatest : latestState (events ++ [event]) cpu = latestState events cpu :=
    congrArg Prod.snd (reading_other hne)
  rw [exactAt_concat h hexact, (heffect.other hne).1]
  intro freq _
  simp only [hlatest]

theorem followed_other (hne : cpu ≠ event.cpu) (heffect : Effect datas phy core event datas')
    (h : Followed events cpu (datas.pstates (.percpu cpu))) :
    Followed (events ++ [event]) cpu (datas'.pstates (.percpu cpu)) := by
  have hlatest : latestState (events ++ [event]) cpu = latestState events cpu :=
    congrArg Prod.snd (reading_other hne)
  have hfreq : latestFreq (events ++ [event]) cpu = latestFreq events cpu :=
    congrArg Prod.fst (reading_other hne)
  rw [(heffect.other hne).1]
  exact {
    freq := by rw [hfreq, h.freq]
    known := h.known
    opened := fun hknown => by
      obtain ⟨past, hpast, heq⟩ := h.opened hknown
      exact ⟨past, List.mem_append_left _ hpast, heq⟩
    flag := by
      rw [hlatest]
      exact h.flag }

end OneEvent

def AllExact (topo : CpuTopology) (events : List PowerEvent) (datas : CpuidleDatas) : Prop :=
  ∀ cpu ∈ cpuIds topo, ExactAt events cpu (datas.pstates (.percpu cpu))

structure FollowedAll (topo : CpuTopology) (nrcpus : Int) (events : List PowerEvent)
    (datas : CpuidleDatas) : Prop where
  ready : ReadyOn topo nrcpus datas
  accounted : AccountedAll topo events datas
  cpus : ∀ cpu ∈ cpuIds topo, Followed events cpu (datas.pstates (.percpu cpu))

/-- Every CPU's times per frequency are exact after every call, exactly when no
call meets one of the defects. -/
theorem pstate_accounting {start : CpuidleDatas} (h : Loaded start) (events : List PowerEvent)
    (hevents : Chronological start.topo events) :
    (∃ final, Runs.run step start events = .ok final) ∧
      (Runs.Always step (AllExact start.topo) start events ↔
        Runs.EveryStep step TimeKept start events) := by
  have hstarted := h.started
  have hm := hstarted.mapped
  refine ⟨run_total h hevents.valid, ?_⟩
  refine Runs.always_iff_everyStep (FollowedAll start.topo start.nrcpus) _ _ ?_ ?_ ?_
  · refine ⟨⟨ready_of_started hstarted, rfl, rfl⟩, accountedAll_start hstarted, fun cpu _ => ?_⟩
    rw [hstarted.pstates]
    exact ⟨rfl, fun hne => absurd rfl hne, fun hne => absurd rfl hne, .inl rfl⟩
  · intro cpu _ freq _
    have hempty : statsOf buildPstateInfo freq = Running.empty dblMax :=
      statsOf_of_absent (by simp [rows, buildPstateInfo])
    rw [hstarted.pstates, accrued_of_none rfl, hempty]
    simp [Running.empty, operatingTime, cpuHistory]
  · intro past event rest datas hsplit hinv
    have hvalid := hevents.valid event (by simp [hsplit])
    have hbefore := (hsplit ▸ hevents).before
    obtain ⟨phy, core, datas', hl, hstep, hready', heffect⟩ := hinv.ready.next hvalid
    have hcur := hinv.accounted.cpus _ hvalid.cpu_mem
    have hown := hinv.cpus _ hvalid.cpu_mem
    refine ⟨datas', hstep, ⟨hready', ?_, ?_⟩, fun hexact => ?_⟩
    · exact hinv.accounted.next hm hinv.ready.ready hvalid hbefore hl heffect
    · intro cpu hcpu
      by_cases heq : cpu = event.cpu
      · exact heq ▸ followed_own hinv.ready.ready hown hcur heffect
      · exact followed_other heq heffect (hinv.cpus cpu hcpu)
    · have hiff : ExactAt (past ++ [event]) event.cpu (datas'.pstates (.percpu event.cpu)) ↔
          TimeKept datas event := by
        rw [exactAt_concat hown (hexact _ hvalid.cpu_mem)]
        exact accrued_own hinv.ready.ready hown hcur hbefore heffect
      rw [← hiff]
      constructor
      · intro hall
        exact hall _ hvalid.cpu_mem
      · intro hself cpu hcpu
        by_cases heq : cpu = event.cpu
        · exact heq ▸ hself
        · exact other_cpu heq heffect (hinv.cpus cpu hcpu) (hexact cpu hcpu)

/-- CPU 0 gets its frequency while idle. -/
def idleChange : List PowerEvent :=
  [.storeData 0 2 0, .cpuChangePstate 0 100 1, .storeData 2 (-1) 0, .storeData 5 2 0]

theorem pstate_accounting_pair :
    (∃ final, Runs.run step pairDatas idleChange = .ok final) ∧
      Runs.Always step (AllExact pairDatas.topo) pairDatas idleChange ∧
      operatingTime idleChange 0 100 = 3 :=
  have hevents : Chronological pairDatas.topo idleChange :=
    ⟨by simp [idleChange, ValidEvent, cpuIds_pairDatas, ValidState, maxcstate], by decide +kernel⟩
  have hkept : Runs.EveryStep step TimeKept pairDatas idleChange := by decide +kernel
  have haccounted := pstate_accounting pairDatas_loaded idleChange hevents
  ⟨haccounted.1, haccounted.2.mpr hkept, by decide +kernel⟩

/-- What the record of CPU 0 says of a frequency after a run, and how long the CPU
was operating at it. -/
def recordedAndSpent (events : List PowerEvent) (freq : Nat) : Except Fault (ℚ × ℚ) :=
  (Runs.run step pairDatas events).map fun datas =>
    (accrued (datas.pstates (.percpu 0)) (latestState events 0 = -1) freq (lastEventTime events),
      usecPerSec * operatingTime events 0 freq)

/-- A busy CPU's time is dropped at a change of frequency, a second idle event
counts sleep as running time, and a second wake-up forgets running time. -/
theorem pstate_time_wrong :
    Loaded pairDatas ∧ cpuIds pairDatas.topo = [0, 1] ∧
      recordedAndSpent [.cpuChangePstate 0 100 0, .cpuChangePstate 0 200 1] 100 = .ok (0, 1000000) ∧
      recordedAndSpent [.cpuChangePstate 0 100 0, .storeData 1 0 0, .storeData 2 1 0] 100 =
        .ok (3000000, 1000000) ∧
      recordedAndSpent [.cpuChangePstate 0 100 0, .storeData 1 0 0, .storeData 2 (-1) 0,
        .storeData 3 (-1) 0] 100 = .ok (1000000, 2000000) :=
  ⟨pairDatas_loaded, cpuIds_pairDatas, by decide +kernel, by decide +kernel, by decide +kernel⟩

end Idlestat.Theory.PstateAccounting
