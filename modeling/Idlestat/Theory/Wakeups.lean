import Idlestat.Theory.TraceEvents
import Mathlib.Algebra.BigOperators.Fin

/-! Wakeup attribution. A credit is taken for the first wakeup source after an
idle state has been entered, with the verdict on the last recorded period. The
credits stay within the wakeups as long as every credit follows an exit of its
own, and within the early and late ones as long as that exit was judged. -/
namespace Idlestat.Theory.Wakeups

open Idlestat.Library Idlestat.Model.Topology Idlestat.Model.Cstates Idlestat.Model.Pstates
  Idlestat.Model.Recorder Idlestat.Model.TraceLine Idlestat.Theory.CstateRecord
  Idlestat.Theory.Nodes Idlestat.Theory.Setup Idlestat.Theory.RecorderSteps
  Idlestat.Theory.TraceEvents

/-! ## Counts by verdict -/

def wakings (verdict : Residency) (c : CpuidleCstate) : Nat :=
  match verdict with
  | .tooShort => c.earlyWakings
  | .tooLong => c.lateWakings
  | .asExpected => 0

def triggers (verdict : Residency) (irqinfo : WakeupIrq) : Nat :=
  match verdict with
  | .tooShort => irqinfo.earlyTriggers
  | .tooLong => irqinfo.lateTriggers
  | .asExpected => 0

/-- Whether a wakeup judged so counts as this one. -/
def credit (verdict judged : Residency) : Nat :=
  if judged = verdict ∧ verdict ≠ .asExpected then 1 else 0

def totalWakings (verdict : Residency) (r : CpuidleCstates) : Nat :=
  ∑ i, wakings verdict (r.cstate i)

def totalTriggers (verdict : Residency) (r : CpuidleCstates) : Nat :=
  (r.wakeinfo.map (triggers verdict)).sum

def totalCount (r : CpuidleCstates) : Nat :=
  (r.wakeinfo.map WakeupIrq.count).sum

section Counts

variable {verdict judged : Residency} {r r' : CpuidleCstates} {i : Fin maxcstate} {time : ℚ}

theorem wakings_commit (c : CpuidleCstate) (slot : CpuidleData) :
    wakings verdict (c.commit slot judged) = wakings verdict c + credit verdict judged := by
  cases verdict <;> cases judged <;> rfl

theorem triggers_trigger (irqinfo : WakeupIrq) :
    triggers verdict (WakeupIrq.trigger irqinfo judged) =
      triggers verdict irqinfo + credit verdict judged := by
  cases verdict <;> cases judged <;> rfl

theorem totalWakings_setCstate {c : CpuidleCstate} {gained : Nat}
    (hc : wakings verdict c = wakings verdict (r.cstate i) + gained) :
    totalWakings verdict (r.setCstate i c) = totalWakings verdict r + gained := by
  have heach : ∀ j, wakings verdict ((r.setCstate i c).cstate j) =
      wakings verdict (r.cstate j) + if j = i then gained else 0 := by
    intro j
    by_cases hj : j = i
    · subst hj
      rw [setCstate_self, hc, if_pos rfl]
    · rw [setCstate_of_ne hj, if_neg hj, add_zero]
  unfold totalWakings
  rw [Finset.sum_congr rfl fun j _ => heach j, Finset.sum_add_distrib, Finset.sum_ite_eq']
  simp

/-- Opening or closing a slot counts nobody's wakeup. -/
theorem totalWakings_data {c : CpuidleCstate} (hearly : c.earlyWakings = (r.cstate i).earlyWakings)
    (hlate : c.lateWakings = (r.cstate i).lateWakings) :
    totalWakings verdict (r.setCstate i c) = totalWakings verdict r := by
  have hsame : wakings verdict c = wakings verdict (r.cstate i) + 0 := by
    cases verdict with
    | asExpected => rfl
    | tooLong => exact hlate
    | tooShort => exact hearly
  have hsum := totalWakings_setCstate hsame
  rwa [add_zero] at hsum

end Counts

section Events

variable {top : Fin maxcstate → ℚ} {r r' : CpuidleCstates} {i : Fin maxcstate} {time : ℚ}
  {state : Int}

structure Judged (r r' : CpuidleCstates) (positive : Prop) : Prop where
  wakeinfo : r'.wakeinfo = r.wakeinfo
  wakeirq : r'.wakeirq = r.wakeirq
  judged : positive → ∀ verdict,
    totalWakings verdict r' = totalWakings verdict r + credit verdict r'.actualResidency
  skipped : ¬ positive → ∀ verdict, totalWakings verdict r' = totalWakings verdict r

theorem cstateEnd_judged (h : RecordOk top r) (hi : r.currentCstate = i)
    (hend : cstateEnd time r = .ok r') : Judged r r' (openBegin r i < time) := by
  obtain ⟨slot, hslot, hbegin⟩ := h.openSlot_eq hi
  simp only [cstateEnd, hi, cstateIndex_fin, hslot, bind, Except.bind, ← hbegin] at hend ⊢
  by_cases hle : time - slot.beginTime ≤ 0
  · have hnot : ¬ slot.beginTime < time := by linarith
    rw [if_pos hle] at hend
    rw [← Except.ok.inj hend]
    exact ⟨rfl, rfl, fun hpos => absurd hpos hnot, fun _ verdict => totalWakings_data rfl rfl⟩
  · have hpos : slot.beginTime < time := by linarith
    obtain ⟨judged, hjudged⟩ := actualResidency_ok (r := r) (i := i) h.cstateMax
      ((time - slot.beginTime) * usecPerSec)
    rw [if_neg hle, hjudged] at hend
    rw [← Except.ok.inj hend]
    exact ⟨rfl, rfl, fun _ verdict => totalWakings_setCstate (wakings_commit _ _),
      fun hnot => absurd hpos hnot⟩

theorem cstateBegin_wakings (hbegin : cstateBegin time i r = .ok r') :
    r'.wakeinfo = r.wakeinfo ∧ r'.wakeirq = none ∧
      ∀ verdict, totalWakings verdict r' = totalWakings verdict r := by
  simp only [cstateBegin, cstateIndex_fin, bind, Except.bind] at hbegin
  rw [← Except.ok.inj hbegin]
  exact ⟨rfl, rfl, fun verdict => totalWakings_data rfl rfl⟩

structure WakeupsRecorded (r r' : CpuidleCstates) (time : ℚ) (state : Int) : Prop where
  wakeinfo : r'.wakeinfo = r.wakeinfo
  wakeirq : r'.wakeirq = if state = -1 then r.wakeirq else none
  more : ∀ verdict, totalWakings verdict r ≤ totalWakings verdict r'
  judged : state = -1 → ∀ i : Fin maxcstate, r.currentCstate = i → openBegin r i < time →
    ∀ verdict, totalWakings verdict r' = totalWakings verdict r + credit verdict r'.actualResidency

private theorem leave_wakings (h : RecordOk top r)
    (hleave : (if r.currentCstate ≠ -1 then cstateEnd time r else .ok r) = .ok r') :
    r'.wakeinfo = r.wakeinfo ∧ r'.wakeirq = r.wakeirq ∧
      (∀ verdict, totalWakings verdict r ≤ totalWakings verdict r') ∧
      ∀ i : Fin maxcstate, r.currentCstate = i → openBegin r i < time →
        ∀ verdict, totalWakings verdict r' =
          totalWakings verdict r + credit verdict r'.actualResidency := by
  rcases h.validState.eq_neg_one_or with hnone | ⟨i, hi⟩
  · rw [if_neg (not_not.mpr hnone)] at hleave
    obtain rfl := Except.ok.inj hleave
    exact ⟨rfl, rfl, fun _ => le_refl _, fun i hi => by omega⟩
  · rw [if_pos (by omega)] at hleave
    have hjudged := cstateEnd_judged h hi hleave
    refine ⟨hjudged.wakeinfo, hjudged.wakeirq, fun verdict => ?_, fun j hj hpos => ?_⟩
    · by_cases hpos : openBegin r i < time
      · rw [hjudged.judged hpos]
        exact Nat.le_add_right _ _
      · rw [hjudged.skipped hpos]
    · obtain rfl : i = j := by omega
      exact hjudged.judged hpos

theorem recordCstateEvent_wakings (h : RecordOk top r) (hstate : ValidState state)
    (hne : state ≠ r.currentCstate) (hrecord : recordCstateEvent r time state = .ok r') :
    WakeupsRecorded r r' time state := by
  rw [recordCstateEvent_of_ne hne] at hrecord
  obtain ⟨r₁, hleave, hrecord⟩ := Runs.bind_eq_ok hrecord
  obtain ⟨hwakeinfo, hwakeirq, hmore, hjudged⟩ := leave_wakings h hleave
  rcases hstate.eq_neg_one_or with rfl | ⟨i, rfl⟩
  · obtain rfl : r₁ = r' := Except.ok.inj hrecord
    exact ⟨hwakeinfo, by rw [if_pos rfl, hwakeirq], hmore, fun _ => hjudged⟩
  · have hnot : (i : Int) ≠ -1 := by omega
    have hbegin : cstateBegin time i r₁ = .ok r' := by
      rwa [if_pos hnot] at hrecord
    obtain ⟨hwakeinfo', hwakeirq', hsame⟩ := cstateBegin_wakings hbegin
    exact {
      wakeinfo := hwakeinfo'.trans hwakeinfo
      wakeirq := by rw [if_neg hnot, hwakeirq']
      more := fun verdict => (hmore verdict).trans (hsame verdict).ge
      judged := fun hzero => absurd hzero hnot }

end Events

section Attribution

variable {r : CpuidleCstates} {irqid : Int} {irqname : List Char} {verdict : Residency}

theorem sum_modify {α : Type} {f : α → Nat} {g : α → α} {gained : Nat}
    (hg : ∀ a, f (g a) = f a + gained) {l : List α} {i : Nat} (hi : i < l.length) :
    ((l.modify i g).map f).sum = (l.map f).sum + gained := by
  induction l generalizing i with
  | nil => exact absurd hi (Nat.not_lt_zero i)
  | cons a rest ih =>
    cases i with
    | zero =>
      simp only [List.modify_zero_cons, List.map_cons, List.sum_cons, hg]
      omega
    | succ i =>
      have hrest := ih (Nat.lt_of_succ_lt_succ hi)
      simp only [List.modify_succ_cons, List.map_cons, List.sum_cons, hrest]
      omega

def source (irqinfo : WakeupIrq) : Int × List Char :=
  (irqinfo.id, irqinfo.name)

structure EntriesOk (wakeinfo : List WakeupIrq) : Prop where
  distinct : (wakeinfo.map source).Nodup
  triggers : ∀ irqinfo ∈ wakeinfo, irqinfo.earlyTriggers + irqinfo.lateTriggers ≤ irqinfo.count

/-- The credited entry `i` of `entries`: one of the table, or a new one at its end. -/
structure Credited (r r' : CpuidleCstates) (irqid : Int) (irqname : List Char)
    (entries : List WakeupIrq) (i : Nat) : Prop where
  index : i < entries.length
  table : entries = r.wakeinfo ∨ entries = r.wakeinfo ++ [newIrqinfo irqid irqname] ∧
    ∀ irqinfo ∈ r.wakeinfo, source irqinfo ≠ (irqid, irqname)
  result : r' = { r with
    wakeinfo := entries.modify i (WakeupIrq.trigger · r.actualResidency)
    wakeirq := some i }

theorem attributeIrq_credited (hnull : r.wakeirq = none) (irqid : Int) (irqname : List Char) :
    ∃ entries i, Credited r (attributeIrq r irqid irqname) irqid irqname entries i := by
  cases hfind : findIrqinfo r.wakeinfo irqid irqname with
  | some i =>
    obtain ⟨hi, -⟩ := List.findIdx?_eq_some_iff_getElem.mp hfind
    exact ⟨r.wakeinfo, i, hi, .inl rfl, by simp [attributeIrq, hnull, hfind]⟩
  | none =>
    have habsent := List.findIdx?_eq_none_iff.mp hfind
    refine ⟨r.wakeinfo ++ [newIrqinfo irqid irqname], r.wakeinfo.length, by simp, .inr ⟨rfl, ?_⟩,
      by simp [attributeIrq, hnull, hfind]⟩
    intro irqinfo hmem heq
    have hnot := habsent irqinfo hmem
    simp only [source, Prod.mk.injEq] at heq
    simp [heq.1, heq.2] at hnot

theorem attributeIrq_done (hdone : r.wakeirq ≠ none) : attributeIrq r irqid irqname = r := by
  simp [attributeIrq, hdone]

section Credited

variable {r' : CpuidleCstates} {entries : List WakeupIrq} {i : Nat}

private theorem Credited.sum (h : Credited r r' irqid irqname entries i) {f : WakeupIrq → Nat}
    {gained : Nat} (hnew : f (newIrqinfo irqid irqname) = 0)
    (htrigger : ∀ irqinfo, f (WakeupIrq.trigger irqinfo r.actualResidency) = f irqinfo + gained) :
    (r'.wakeinfo.map f).sum = (r.wakeinfo.map f).sum + gained := by
  have hentries : (entries.map f).sum = (r.wakeinfo.map f).sum := by
    rcases h.table with hold | ⟨hadded, -⟩
    · rw [hold]
    · rw [hadded]
      simp [hnew]
  rw [h.result, ← hentries]
  exact sum_modify htrigger h.index

theorem Credited.totalCount (h : Credited r r' irqid irqname entries i) :
    totalCount r' = totalCount r + 1 :=
  h.sum rfl fun _ => rfl

theorem Credited.totalTriggers (h : Credited r r' irqid irqname entries i) :
    totalTriggers verdict r' = totalTriggers verdict r + credit verdict r.actualResidency :=
  h.sum (by cases verdict <;> rfl) triggers_trigger

theorem Credited.entriesOk (h : Credited r r' irqid irqname entries i)
    (hname : irqname.length ≤ namelen) (hok : EntriesOk r.wakeinfo) : EntriesOk r'.wakeinfo := by
  have hentries : EntriesOk entries := by
    rcases h.table with hold | ⟨hadded, habsent⟩
    · rwa [hold]
    · rw [hadded]
      constructor
      · have hsource : source (newIrqinfo irqid irqname) = (irqid, irqname) := by
          simp [source, newIrqinfo, List.take_of_length_le hname]
        rw [List.map_append, List.map_singleton, hsource]
        apply List.nodup_append.mpr
        refine ⟨hok.distinct, List.nodup_singleton _, ?_⟩
        intro old hold new hnew
        obtain ⟨irqinfo, hmem, rfl⟩ := List.mem_map.mp hold
        rw [List.mem_singleton.mp hnew]
        exact habsent irqinfo hmem
      · intro irqinfo hmem
        rcases List.mem_append.mp hmem with hmem | hmem
        · exact hok.triggers irqinfo hmem
        · rw [List.mem_singleton.mp hmem]
          exact le_refl 0
  rw [h.result]
  constructor
  · rw [SortedKeys.map_modify_of_eq]
    · exact hentries.distinct
    · exact fun _ => rfl
  · intro irqinfo hmem
    obtain ⟨k, hk⟩ := List.mem_iff_getElem?.mp hmem
    rw [List.getElem?_modify] at hk
    obtain ⟨old, hold, hnew⟩ := Option.map_eq_some_iff.mp hk
    have hle := hentries.triggers old (List.mem_of_getElem? hold)
    split at hnew
    · rw [← hnew]
      cases hresidency : r.actualResidency <;> simp [WakeupIrq.trigger] <;> omega
    · rwa [← hnew]

end Credited

end Attribution

/-! ## What the events of a CPU say about it -/

/-- `state` is the idle state the CPU is in, or -1, and `since` the time it was
entered; `exits` counts the idle states it has left, and `positive` says whether
the last of them had lasted any time. -/
structure Sleep where
  state : Int
  since : ℚ
  exits : Nat
  positive : Bool
  deriving DecidableEq

def Sleep.next (cpu : Int) (sleep : Sleep) : TraceEvent → Sleep
  | .power (.storeData time state c) =>
    if c ≠ cpu ∨ state = sleep.state then sleep
    else
      { state := state
        since := time
        exits := if sleep.state = -1 then sleep.exits else sleep.exits + 1
        positive := if sleep.state = -1 then sleep.positive else sleep.since < time }
  | _ => sleep

def sleepOf (cpu : Int) (past : List TraceEvent) : Sleep :=
  past.foldl (Sleep.next cpu) { state := -1, since := 0, exits := 0, positive := false }

@[simp] theorem sleepOf_concat (cpu : Int) (past : List TraceEvent) (event : TraceEvent) :
    sleepOf cpu (past ++ [event]) = (sleepOf cpu past).next cpu event := by
  simp [sleepOf]

/-- The record of a CPU agrees with its events. -/
structure Tracks (sleep : Sleep) (r : CpuidleCstates) : Prop where
  current : r.currentCstate = sleep.state
  since : ∀ i : Fin maxcstate, r.currentCstate = i → openBegin r i = sleep.since

/-- The CPU is awake after an idle state and no wakeup source has been credited. -/
def Pending (sleep : Sleep) (r : CpuidleCstates) : Prop :=
  r.wakeirq = none ∧ sleep.state = -1 ∧ sleep.exits ≠ 0

structure Balanced (sleep : Sleep) (r : CpuidleCstates) : Prop where
  asleep : sleep.state ≠ -1 → r.wakeirq = none
  count : totalCount r ≤ sleep.exits
  countDue : Pending sleep r → totalCount r + 1 ≤ sleep.exits
  triggers : ∀ verdict, totalTriggers verdict r ≤ totalWakings verdict r
  triggersDue : Pending sleep r → sleep.positive = true → ∀ verdict,
    totalTriggers verdict r + credit verdict r.actualResidency ≤ totalWakings verdict r

inductive Touched (cpu : Int) (r r' : CpuidleCstates) : TraceEvent → Prop
  | idle {time : ℚ} {state : Int} (hstate : ValidState state)
      (hrecord : recordCstateEvent r time state = .ok r') :
      Touched cpu r r' (.power (.storeData time state cpu))
  | irq {irqid : Int} {irqname : List Char} (hr : r' = attributeIrq r irqid irqname) :
      Touched cpu r r' (.storeIrq cpu irqid irqname)
  | kept {event : TraceEvent} (hr : r' = r) (hsleep : ∀ sleep, Sleep.next cpu sleep event = sleep) :
      Touched cpu r r' event

/-- A credit is due when the source arrives, unless one has been taken already. -/
def CreditDue (past : List TraceEvent) (datas : CpuidleDatas) : TraceEvent → Prop
  | .storeIrq cpu _ _ =>
    (datas.cstates (.percpu cpu)).wakeirq = none →
      (sleepOf cpu past).state = -1 ∧ (sleepOf cpu past).exits ≠ 0 ∧
        ((sleepOf cpu past).positive = true ∨
          (datas.cstates (.percpu cpu)).actualResidency = .asExpected)
  | .power _ => True

section History

variable {top : Fin maxcstate → ℚ} {r r' : CpuidleCstates} {sleep : Sleep} {cpu state : Int}
  {time : ℚ}

theorem next_same : sleep.next cpu (.power (.storeData time sleep.state cpu)) = sleep := by
  simp [Sleep.next]

theorem next_moved (hne : state ≠ sleep.state) :
    sleep.next cpu (.power (.storeData time state cpu)) =
      { state := state
        since := time
        exits := if sleep.state = -1 then sleep.exits else sleep.exits + 1
        positive := if sleep.state = -1 then sleep.positive else sleep.since < time } := by
  simp [Sleep.next, hne]

theorem Tracks.idle (h : Tracks sleep r) (hok : RecordOk top r) (hstate : ValidState state)
    (hrecord : recordCstateEvent r time state = .ok r') :
    Tracks (sleep.next cpu (.power (.storeData time state cpu))) r' := by
  by_cases hsame : state = sleep.state
  · subst hsame
    rw [← h.current, recordCstateEvent_same] at hrecord
    rw [next_same, ← Except.ok.inj hrecord]
    exact h
  · obtain ⟨r'', hrecord', -, hrecorded⟩ := recordCstateEvent_spec hok hstate time
    obtain rfl : r'' = r' := Except.ok.inj (hrecord'.symm.trans hrecord)
    rw [next_moved hsame]
    constructor
    · exact hrecorded.current
    · intro i hi
      have hnew : r.currentCstate ≠ i := by
        intro heq
        apply hsame
        rw [← hrecorded.current, hi, ← heq, h.current]
      rw [hrecorded.opened i (hrecorded.current.symm.trans hi), if_neg hnew]

theorem Balanced.idle (h : Balanced sleep r) (htracks : Tracks sleep r) (hok : RecordOk top r)
    (hstate : ValidState state) (hrecord : recordCstateEvent r time state = .ok r') :
    Balanced (sleep.next cpu (.power (.storeData time state cpu))) r' := by
  by_cases hsame : state = sleep.state
  · subst hsame
    rw [← htracks.current, recordCstateEvent_same] at hrecord
    rw [next_same, ← Except.ok.inj hrecord]
    exact h
  · have hne : state ≠ r.currentCstate := htracks.current ▸ hsame
    have hwakeups := recordCstateEvent_wakings hok hstate hne hrecord
    have hcount : totalCount r' = totalCount r := by
      unfold totalCount
      rw [hwakeups.wakeinfo]
    have htriggers : ∀ verdict, totalTriggers verdict r' = totalTriggers verdict r := by
      intro verdict
      unfold totalTriggers
      rw [hwakeups.wakeinfo]
    have hle := h.count
    rw [next_moved hsame]
    constructor
    · intro hasleep
      rw [hwakeups.wakeirq, if_neg hasleep]
    · rw [hcount]
      dsimp only
      split <;> omega
    · -- the credit falls due with the exit
      intro hpending
      have hawake : state = -1 := hpending.2.1
      have hleft : sleep.state ≠ -1 := fun heq => hsame (hawake.trans heq.symm)
      rw [hcount, if_neg hleft]
      exact Nat.succ_le_succ hle
    · intro verdict
      rw [htriggers]
      exact (h.triggers verdict).trans (hwakeups.more verdict)
    · intro hpending hpositive verdict
      have hawake : state = -1 := hpending.2.1
      have hleft : sleep.state ≠ -1 := fun heq => hsame (hawake.trans heq.symm)
      rcases hok.validState.eq_neg_one_or with hnone | ⟨i, hi⟩
      · exact absurd (htracks.current.symm.trans hnone) hleft
      · have hlasted : openBegin r i < time := by
          rw [htracks.since i hi]
          simpa [hleft] using hpositive
        rw [htriggers, hwakeups.judged hawake i hi hlasted]
        exact Nat.add_le_add_right (h.triggers verdict) _

theorem Tracks.irq (h : Tracks sleep r) (irqid : Int) (irqname : List Char) :
    Tracks sleep (attributeIrq r irqid irqname) := by
  by_cases hnull : r.wakeirq = none
  · obtain ⟨entries, i, hcredited⟩ := attributeIrq_credited hnull irqid irqname
    rw [hcredited.result]
    exact ⟨h.current, h.since⟩
  · rwa [attributeIrq_done hnull]

theorem Balanced.irq (h : Balanced sleep r) (irqid : Int) (irqname : List Char)
    (hdue : r.wakeirq = none → sleep.state = -1 ∧ sleep.exits ≠ 0 ∧
      (sleep.positive = true ∨ r.actualResidency = .asExpected)) :
    Balanced sleep (attributeIrq r irqid irqname) := by
  by_cases hnull : r.wakeirq = none
  · obtain ⟨hawake, hexits, hjudged⟩ := hdue hnull
    have hpending : Pending sleep r := ⟨hnull, hawake, hexits⟩
    obtain ⟨entries, i, hcredited⟩ := attributeIrq_credited hnull irqid irqname
    have hwakings : ∀ verdict, totalWakings verdict (attributeIrq r irqid irqname) =
        totalWakings verdict r := by
      intro verdict
      rw [hcredited.result]
      rfl
    have hpaid : ¬ Pending sleep (attributeIrq r irqid irqname) := by
      intro hpending'
      have hnone := hpending'.1
      rw [hcredited.result] at hnone
      cases hnone
    constructor
    · exact fun hasleep => absurd hawake hasleep
    · rw [hcredited.totalCount]
      exact h.countDue hpending
    · exact fun hpending' => absurd hpending' hpaid
    · intro verdict
      rw [hcredited.totalTriggers, hwakings]
      rcases hjudged with hpositive | hexpected
      · exact h.triggersDue hpending hpositive verdict
      · rw [hexpected]
        cases verdict <;> exact h.triggers _
    · exact fun hpending' => absurd hpending' hpaid
  · rwa [attributeIrq_done hnull]

theorem entriesOk_irq (h : EntriesOk r.wakeinfo) (irqid : Int) {irqname : List Char}
    (hname : irqname.length ≤ namelen) :
    EntriesOk (attributeIrq r irqid irqname).wakeinfo := by
  by_cases hnull : r.wakeirq = none
  · obtain ⟨entries, i, hcredited⟩ := attributeIrq_credited hnull irqid irqname
    exact hcredited.entriesOk hname h
  · rwa [attributeIrq_done hnull]

theorem recordCstateEvent_wakeinfo (hok : RecordOk top r) (hstate : ValidState state)
    (hrecord : recordCstateEvent r time state = .ok r') : r'.wakeinfo = r.wakeinfo := by
  by_cases hsame : state = r.currentCstate
  · rw [hsame, recordCstateEvent_same] at hrecord
    rw [Except.ok.inj hrecord]
  · exact (recordCstateEvent_wakings hok hstate hsame hrecord).wakeinfo

end History

section Runs

variable {topo : CpuTopology} {nrcpus : Int} {datas datas' : CpuidleDatas} {event : TraceEvent}
  {past : List TraceEvent} {cpu : Int}

/-- The name fits the array of an entry. -/
def ShortName : TraceEvent → Prop
  | .storeIrq _ _ irqname => irqname.length ≤ namelen
  | .power _ => True

/-- The credits of a CPU are within its wakeups. -/
structure WithinWakeups (past : List TraceEvent) (cpu : Int) (r : CpuidleCstates) : Prop where
  count : (r.wakeinfo.map WakeupIrq.count).sum ≤ (sleepOf cpu past).exits
  early : (r.wakeinfo.map WakeupIrq.earlyTriggers).sum ≤ ∑ i, (r.cstate i).earlyWakings
  late : (r.wakeinfo.map WakeupIrq.lateTriggers).sum ≤ ∑ i, (r.cstate i).lateWakings

theorem Balanced.within {r : CpuidleCstates} (h : Balanced (sleepOf cpu past) r) :
    WithinWakeups past cpu r :=
  ⟨h.count, h.triggers .tooShort, h.triggers .tooLong⟩

theorem traceStep_touched (h : ReadyOn topo nrcpus datas) (hvalid : ValidCall topo event)
    (hstep : traceStep datas event = .ok datas') (cpu : Int) :
    Touched cpu (datas.cstates (.percpu cpu)) (datas'.cstates (.percpu cpu)) event := by
  cases event with
  | storeIrq c irqid irqname =>
    rw [← Except.ok.inj ((storeIrq_eq h hvalid).symm.trans hstep)]
    by_cases heq : c = cpu
    · subst heq
      exact .irq (by simp [CpuidleDatas.setCstates])
    · have hne : RecordRef.percpu cpu ≠ .percpu c := fun href =>
        heq (RecordRef.percpu.inj href).symm
      exact .kept (by simp [CpuidleDatas.setCstates, hne]) fun _ => rfl
  | power event =>
    obtain ⟨phy, core, next, hl, hnext, -, heffect⟩ := h.next hvalid
    obtain rfl : next = datas' := Except.ok.inj (hnext.symm.trans hstep)
    by_cases heq : event.cpu = cpu
    · cases heffect with
      | @ignored time state c hignored =>
        obtain rfl : c = cpu := heq
        have hcurrent : (datas.cstates (.percpu c)).currentCstate = -1 := hignored.current h.ready
        have hsame := recordCstateEvent_same (datas.cstates (.percpu c)) time
        rw [hcurrent] at hsame
        rw [hignored.1]
        exact .idle (by decide) hsame
      | stored hnot hstored =>
        obtain rfl := heq
        exact .idle hvalid.1 hstored.atCpu
      | changed => exact .kept rfl fun _ => rfl
    · apply Touched.kept (heffect.other fun hcpu => heq hcpu.symm).2
      intro sleep
      cases event with
      | storeData time state c => exact if_pos (.inl heq)
      | cpuChangePstate => rfl

/-- What holds of the records of all CPUs after any run. -/
structure WakeupsInv (topo : CpuTopology) (nrcpus : Int) (past : List TraceEvent)
    (datas : CpuidleDatas) : Prop where
  ready : ReadyOn topo nrcpus datas
  tracks : ∀ cpu, Tracks (sleepOf cpu past) (datas.cstates (.percpu cpu))
  entries : ∀ cpu, EntriesOk (datas.cstates (.percpu cpu)).wakeinfo

theorem WakeupsInv.start {start : CpuidleDatas} (h : Loaded start) :
    WakeupsInv start.topo start.nrcpus [] start where
  ready := readyOn_of_loaded h
  tracks := fun cpu => by
    have hfresh := h.started.cstates (.percpu cpu)
    refine ⟨hfresh.current, fun i hi => ?_⟩
    have hcurrent := hfresh.current
    omega
  entries := fun cpu => by
    rw [(h.started.cstates (.percpu cpu)).wakeinfo]
    exact ⟨List.nodup_nil, by simp⟩

theorem WakeupsInv.next (h : WakeupsInv topo nrcpus past datas) (hvalid : ValidCall topo event)
    (hname : ShortName event) (hstep : traceStep datas event = .ok datas') :
    WakeupsInv topo nrcpus (past ++ [event]) datas' := by
  have htouched := traceStep_touched h.ready hvalid hstep
  constructor
  · obtain ⟨next, hnext, hready⟩ := traceStep_total h.ready hvalid
    exact Except.ok.inj (hnext.symm.trans hstep) ▸ hready
  · intro cpu
    have htracks := h.tracks cpu
    obtain ⟨top, hok⟩ := h.ready.ready.cstates (.percpu cpu)
    rw [sleepOf_concat]
    cases htouched cpu with
    | idle hstate hrecord => exact htracks.idle hok hstate hrecord
    | irq hr =>
      rw [hr]
      exact htracks.irq _ _
    | kept hr hsleep => rwa [hr, hsleep]
  · intro cpu
    have hentries := h.entries cpu
    obtain ⟨top, hok⟩ := h.ready.ready.cstates (.percpu cpu)
    cases htouched cpu with
    | idle hstate hrecord => rwa [recordCstateEvent_wakeinfo hok hstate hrecord]
    | irq hr =>
      rw [hr]
      exact entriesOk_irq hentries _ hname
    | kept hr hsleep => rwa [hr]

theorem balanced_start {start : CpuidleDatas} (h : Loaded start) (cpu : Int) :
    Balanced (sleepOf cpu []) (start.cstates (.percpu cpu)) := by
  have hwakeinfo := (h.started.cstates (.percpu cpu)).wakeinfo
  have hcount : totalCount (start.cstates (.percpu cpu)) = 0 := by simp [totalCount, hwakeinfo]
  have hzero : ∀ verdict, totalTriggers verdict (start.cstates (.percpu cpu)) = 0 := by
    intro verdict
    simp [totalTriggers, hwakeinfo]
  constructor
  · exact fun hasleep => absurd rfl hasleep
  · rw [hcount]
    exact Nat.zero_le _
  · exact fun hpending => absurd rfl hpending.2.2
  · intro verdict
    rw [hzero]
    exact Nat.zero_le _
  · exact fun hpending => absurd rfl hpending.2.2

theorem balanced_next (h : WakeupsInv topo nrcpus past datas)
    (hbalanced : ∀ cpu, Balanced (sleepOf cpu past) (datas.cstates (.percpu cpu)))
    (hvalid : ValidCall topo event) (hdue : CreditDue past datas event)
    (hstep : traceStep datas event = .ok datas') (cpu : Int) :
    Balanced (sleepOf cpu (past ++ [event])) (datas'.cstates (.percpu cpu)) := by
  have hcpu := hbalanced cpu
  obtain ⟨top, hok⟩ := h.ready.ready.cstates (.percpu cpu)
  rw [sleepOf_concat]
  cases traceStep_touched h.ready hvalid hstep cpu with
  | idle hstate hrecord => exact hcpu.idle (h.tracks cpu) hok hstate hrecord
  | irq hr =>
    rw [hr]
    exact hcpu.irq _ _ hdue
  | kept hr hsleep => rwa [hr, hsleep]

/-- Every step of the run takes a credit only where one is due. -/
def CreditsDue (start : CpuidleDatas) (events : List TraceEvent) : Prop :=
  ∀ past event rest datas, events = past ++ event :: rest →
    Runs.run traceStep start past = .ok datas → CreditDue past datas event

/-- The entries are sound in every run, and their sums stay within the wakeups
in every run that takes its credits where they are due. -/
theorem wakeups_attributed {start : CpuidleDatas} (h : Loaded start) {events : List TraceEvent}
    (hvalid : ∀ event ∈ events, ValidCall start.topo event)
    (hnames : ∀ event ∈ events, ShortName event) :
    (∃ final, Runs.run traceStep start events = .ok final) ∧
    Runs.Always traceStep
      (fun _ datas => ∀ cpu, EntriesOk (datas.cstates (.percpu cpu)).wakeinfo) start events ∧
    (CreditsDue start events →
      Runs.Always traceStep
        (fun past datas => ∀ cpu, WithinWakeups past cpu (datas.cstates (.percpu cpu)))
        start events) := by
  have hstep : ∀ past event rest datas, events = past ++ event :: rest →
      WakeupsInv start.topo start.nrcpus past datas →
      ∃ next, traceStep datas event = .ok next ∧
        WakeupsInv start.topo start.nrcpus (past ++ [event]) next := by
    intro past event rest datas hsplit hinv
    have hevent : event ∈ events := by simp [hsplit]
    obtain ⟨next, hnext, -⟩ := traceStep_total hinv.ready (hvalid event hevent)
    exact ⟨next, hnext, hinv.next (hvalid event hevent) (hnames event hevent) hnext⟩
  have halways : Runs.Always traceStep (WakeupsInv start.topo start.nrcpus) start events :=
    Runs.always_of_invariant _ (WakeupsInv.start h) hstep
  refine ⟨?_, ?_, ?_⟩
  · obtain ⟨final, hrun, -⟩ := traceRun_total (readyOn_of_loaded h) hvalid
    exact ⟨final, hrun⟩
  · exact fun past rest datas hsplit hrun => (halways past rest datas hsplit hrun).entries
  · intro hdue
    have hbalanced : Runs.Always traceStep (fun past datas =>
        Runs.run traceStep start past = .ok datas ∧
          ∀ cpu, Balanced (sleepOf cpu past) (datas.cstates (.percpu cpu))) start events := by
      apply Runs.always_of_invariant
      · exact ⟨rfl, balanced_start h⟩
      · intro past event rest datas hsplit hstate
        have hinv := halways past (event :: rest) datas hsplit hstate.1
        obtain ⟨next, hnext, -⟩ := hstep past event rest datas hsplit hinv
        exact ⟨next, hnext, (Runs.run_concat hstate.1).trans hnext,
          balanced_next hinv hstate.2 (hvalid event (by simp [hsplit]))
            (hdue past event rest datas hsplit hstate.1) hnext⟩
    exact fun past rest datas hsplit hrun cpu =>
      ((hbalanced past rest datas hsplit hrun).2 cpu).within

end Runs

def timer : List Char :=
  ['t', 'i', 'm', 'e', 'r']

/-- An idle period of three seconds and then the source that ended it. -/
def timerWakeup : List TraceEvent :=
  [.power (.storeData 0 1 0), .power (.storeData 3 (-1) 0), .storeIrq 0 3 timer]

theorem timerWakeup_due : CreditsDue pairDatas timerWakeup := by
  intro past event rest datas hsplit hrun
  cases event with
  | power event => trivial
  | storeIrq cpu irqid irqname =>
    rcases past with _ | ⟨first, _ | ⟨second, _ | ⟨third, past⟩⟩⟩
    · simp [timerWakeup] at hsplit
    · simp [timerWakeup] at hsplit
    · simp only [timerWakeup, List.cons_append, List.nil_append, List.cons.injEq,
        TraceEvent.storeIrq.injEq] at hsplit
      obtain ⟨rfl, rfl, ⟨rfl, -, -⟩, -⟩ := hsplit
      exact fun _ => ⟨by decide +kernel, by decide +kernel, .inl (by decide +kernel)⟩
    · simp [timerWakeup] at hsplit

theorem wakeups_attributed_pair :
    Runs.Always traceStep
      (fun past datas => ∀ cpu, WithinWakeups past cpu (datas.cstates (.percpu cpu))) pairDatas
      timerWakeup := by
  apply (wakeups_attributed pairDatas_loaded _ _).2.2 timerWakeup_due
  · simp [timerWakeup, ValidCall, ValidEvent, cpuIds_pairDatas, ValidState, maxcstate]
  · simp [timerWakeup, ShortName, timer, namelen]

/-- A credit without an exit is one too many. -/
private theorem miscounted_of_no_exit {events : List TraceEvent}
    (hexits : (sleepOf 0 events).exits = 0)
    (hread : ((Runs.run traceStep pairDatas events).map fun datas =>
      totalCount (datas.cstates (.percpu 0))) = .ok 1) :
    ∃ datas, Runs.run traceStep pairDatas events = .ok datas ∧
      ¬ WithinWakeups events 0 (datas.cstates (.percpu 0)) := by
  obtain ⟨datas, hrun, hone⟩ := Runs.map_eq_ok hread
  refine ⟨datas, hrun, fun hwithin => ?_⟩
  have hle : totalCount (datas.cstates (.percpu 0)) ≤ (sleepOf 0 events).exits := hwithin.count
  rw [hone, hexits] at hle
  exact Nat.not_succ_le_zero 0 hle

/-- A source that arrives before any idle period is counted as a wakeup, and so
is one that arrives while the CPU is still asleep. -/
theorem wakeups_miscounted :
    Loaded pairDatas ∧ cpuIds pairDatas.topo = [0, 1] ∧ timer.length ≤ namelen ∧
      (∃ datas, Runs.run traceStep pairDatas [.storeIrq 0 3 timer] = .ok datas ∧
        ¬ WithinWakeups [.storeIrq 0 3 timer] 0 (datas.cstates (.percpu 0))) ∧
      ∃ datas, Runs.run traceStep pairDatas [.power (.storeData 0 1 0), .storeIrq 0 3 timer] =
          .ok datas ∧
        ¬ WithinWakeups [.power (.storeData 0 1 0), .storeIrq 0 3 timer] 0
          (datas.cstates (.percpu 0)) :=
  ⟨pairDatas_loaded, cpuIds_pairDatas, by decide,
    miscounted_of_no_exit (by decide +kernel) (by decide +kernel),
    miscounted_of_no_exit (by decide +kernel) (by decide +kernel)⟩

end Idlestat.Theory.Wakeups
