import Mathlib.Algebra.BigOperators.Group.Finset.Basic
import Mathlib.Algebra.Order.Group.Defs
import Mathlib.Data.Finset.Prod
import Mathlib.Tactic.Abel
import Mathlib.Tactic.Common

/-! Timed histories of a state that changes at observed instants. A stretch of
state `s` is a maximal block `i..j-1` of positions that all carry `s`, ended by
a position `j` that does not. The lemmas say what one more observation does to
the ended stretches, to their total length and to the stretch still open. -/
namespace Idlestat.Library.Timeline

variable {T σ : Type*}

abbrev History (T σ : Type*) := List (T × σ)

def stateAt (h : History T σ) (k : Nat) : Option σ :=
  h[k]?.map Prod.snd

def timeAt [Zero T] (h : History T σ) (k : Nat) : T :=
  (h[k]?.map Prod.fst).getD 0

def lastState (h : History T σ) : Option σ :=
  h.getLast?.map Prod.snd

/-- Positions `i..j-1` carry `s`, position `j` does not, and the block cannot
be extended to the left. -/
def IsStretch (h : History T σ) (s : σ) (i j : Nat) : Prop :=
  i < j ∧ j < h.length ∧ (∀ k < j, i ≤ k → stateAt h k = some s) ∧
    stateAt h j ≠ some s ∧ (i = 0 ∨ stateAt h (i - 1) ≠ some s)

instance [DecidableEq σ] (h : History T σ) (s : σ) (i j : Nat) :
    Decidable (IsStretch h s i j) := by
  unfold IsStretch
  infer_instance

/-- The last positions, from `i` on, all carry `s`, and `i` is the first such. -/
def IsOpen (h : History T σ) (s : σ) (i : Nat) : Prop :=
  i < h.length ∧ (∀ k < h.length, i ≤ k → stateAt h k = some s) ∧
    (i = 0 ∨ stateAt h (i - 1) ≠ some s)

section Stretches

variable [DecidableEq σ]

def stretches (h : History T σ) (s : σ) : Finset (Nat × Nat) :=
  (Finset.range h.length ×ˢ Finset.range h.length).filter fun p => IsStretch h s p.1 p.2

def totalLength [AddCommGroup T] (h : History T σ) (s : σ) : T :=
  ∑ p ∈ stretches h s, (timeAt h p.2 - timeAt h p.1)

def positiveCount [Zero T] [LT T] [DecidableLT T] (h : History T σ) (s : σ) : Nat :=
  ((stretches h s).filter fun p => timeAt h p.1 < timeAt h p.2).card

theorem mem_stretches {h : History T σ} {s : σ} {i j : Nat} :
    (i, j) ∈ stretches h s ↔ IsStretch h s i j := by
  simp only [stretches, Finset.mem_filter, Finset.mem_product, Finset.mem_range]
  constructor
  · exact And.right
  · intro hs
    exact ⟨⟨hs.1.trans hs.2.1, hs.2.1⟩, hs⟩

end Stretches

section Concat

variable {h : History T σ} {t : T} {s s' : σ} {i j k : Nat}

theorem stateAt_concat_lt (t : T) (s' : σ) (hk : k < h.length) :
    stateAt (h ++ [(t, s')]) k = stateAt h k := by
  simp [stateAt, List.getElem?_append_left hk]

@[simp] theorem stateAt_concat_length : stateAt (h ++ [(t, s')]) h.length = some s' := by
  simp [stateAt]

theorem timeAt_concat_lt [Zero T] (hk : k < h.length) :
    timeAt (h ++ [(t, s')]) k = timeAt h k := by
  simp [timeAt, List.getElem?_append_left hk]

@[simp] theorem timeAt_concat_length [Zero T] : timeAt (h ++ [(t, s')]) h.length = t := by
  simp [timeAt]

@[simp] theorem lastState_nil : lastState ([] : History T σ) = none := rfl

@[simp] theorem lastState_concat : lastState (h ++ [(t, s')]) = some s' := by
  simp [lastState]

theorem stateAt_pred_length : stateAt h (h.length - 1) = lastState h := by
  simp [stateAt, lastState, List.getLast?_eq_getElem?]

theorem IsOpen.lastState_eq (ho : IsOpen h s i) : lastState h = some s := by
  rw [← stateAt_pred_length]
  have hlen := ho.1
  exact ho.2.1 _ (by omega) (by omega)

theorem IsOpen.concat_same (ho : IsOpen h s i) : IsOpen (h ++ [(t, s)]) s i := by
  obtain ⟨hi, hall, hleft⟩ := ho
  refine ⟨by simp; omega, fun k hk hik => ?_, ?_⟩
  · by_cases hlt : k < h.length
    · rw [stateAt_concat_lt _ _ hlt]
      exact hall k hlt hik
    · obtain rfl : k = h.length := by simp at hk; omega
      exact stateAt_concat_length
  · rcases hleft with rfl | hleft
    · exact .inl rfl
    · exact .inr (by rwa [stateAt_concat_lt _ _ (by omega)])

theorem isOpen_concat_new (hlast : lastState h ≠ some s) :
    IsOpen (h ++ [(t, s)]) s h.length := by
  refine ⟨by simp, fun k hk hik => ?_, ?_⟩
  · obtain rfl : k = h.length := by simp at hk; omega
    exact stateAt_concat_length
  · by_cases hne : h = []
    · exact .inl (by simp [hne])
    · right
      have hpos := List.length_pos_iff.mpr hne
      rwa [stateAt_concat_lt _ _ (by omega), stateAt_pred_length]

theorem isStretch_concat_lt (hj : j < h.length) :
    IsStretch (h ++ [(t, s')]) s i j ↔ IsStretch h s i j := by
  unfold IsStretch
  have hall : (∀ k < j, i ≤ k → stateAt (h ++ [(t, s')]) k = some s) ↔
      ∀ k < j, i ≤ k → stateAt h k = some s := by
    constructor <;> intro hh k hk hik
    · simpa [stateAt_concat_lt _ _ (hk.trans hj)] using hh k hk hik
    · simpa [stateAt_concat_lt _ _ (hk.trans hj)] using hh k hk hik
  rw [hall, stateAt_concat_lt _ _ hj]
  constructor
  · rintro ⟨hij, -, hblock, hend, hleft⟩
    rw [stateAt_concat_lt _ _ (by omega)] at hleft
    exact ⟨hij, hj, hblock, hend, hleft⟩
  · rintro ⟨hij, -, hblock, hend, hleft⟩
    rw [← stateAt_concat_lt t s' (show i - 1 < h.length by omega)] at hleft
    exact ⟨hij, by simp; omega, hblock, hend, hleft⟩

theorem isStretch_concat_length :
    IsStretch (h ++ [(t, s')]) s i h.length ↔ IsOpen h s i ∧ s' ≠ s := by
  unfold IsStretch IsOpen
  constructor
  · rintro ⟨hij, -, hblock, hend, hleft⟩
    rw [stateAt_concat_lt _ _ (by omega)] at hleft
    refine ⟨⟨hij, fun k hk hik => ?_, hleft⟩, by simpa using hend⟩
    rw [← stateAt_concat_lt t s' hk]
    exact hblock k hk hik
  · rintro ⟨⟨hi, hall, hleft⟩, hne⟩
    rw [← stateAt_concat_lt t s' (show i - 1 < h.length by omega)] at hleft
    refine ⟨hi, by simp, fun k hk hik => ?_, by simpa using hne, hleft⟩
    rw [stateAt_concat_lt _ _ hk]
    exact hall k hk hik

theorem IsOpen.unique (hi : IsOpen h s i) (hj : IsOpen h s j) : i = j := by
  by_contra hne
  rcases Nat.lt_or_gt_of_ne hne with hlt | hlt
  · rcases hj.2.2 with rfl | hleft
    · omega
    · exact hleft (hi.2.1 _ (by have := hj.1; omega) (by omega))
  · rcases hi.2.2 with rfl | hleft
    · omega
    · exact hleft (hj.2.1 _ (by have := hi.1; omega) (by omega))

variable [DecidableEq σ]

theorem stretches_concat_ended (ho : IsOpen h s i) (hne : s' ≠ s) :
    stretches (h ++ [(t, s')]) s = insert (i, h.length) (stretches h s) := by
  ext ⟨a, b⟩
  rw [Finset.mem_insert, mem_stretches, mem_stretches]
  by_cases hb : b < h.length
  · rw [isStretch_concat_lt hb]
    simp [Prod.ext_iff, hb.ne]
  · by_cases hbl : b = h.length
    · subst hbl
      rw [isStretch_concat_length]
      constructor
      · rintro ⟨ha, -⟩
        exact .inl (by rw [ha.unique ho])
      · rintro (heq | hs)
        · obtain rfl : a = i := (Prod.mk.inj heq).1
          exact ⟨ho, hne⟩
        · exact absurd hs.2.1 hb
    · constructor
      · intro hs
        have := hs.2.1
        simp at this
        omega
      · rintro (heq | hs)
        · exact absurd (Prod.mk.inj heq).2 hbl
        · exact absurd hs.2.1 hb

/-- Staying in a state, or moving between two other states, ends no stretch. -/
theorem stretches_concat_kept (hkept : lastState h ≠ some s ∨ s' = s) :
    stretches (h ++ [(t, s')]) s = stretches h s := by
  ext ⟨a, b⟩
  rw [mem_stretches, mem_stretches]
  by_cases hb : b < h.length
  · exact isStretch_concat_lt hb
  · constructor
    · intro hs
      have hlen := hs.2.1
      obtain rfl : b = h.length := by simp at hlen; omega
      obtain ⟨ho, hne⟩ := isStretch_concat_length.mp hs
      rcases hkept with hlast | heq
      · exact absurd ho.lastState_eq hlast
      · exact absurd heq hne
    · exact fun hs => absurd hs.2.1 hb

theorem lt_length_of_mem_stretches {p : Nat × Nat} (hp : p ∈ stretches h s) :
    p.1 < h.length ∧ p.2 < h.length := by
  have hs := mem_stretches.mp (show (p.1, p.2) ∈ stretches h s from hp)
  exact ⟨hs.1.trans hs.2.1, hs.2.1⟩

theorem length_not_mem_stretches : (i, h.length) ∉ stretches h s := fun hmem =>
  lt_irrefl _ (lt_length_of_mem_stretches hmem).2

section Length

variable [AddCommGroup T]

private theorem sum_stretches_concat :
    ∑ p ∈ stretches h s, (timeAt (h ++ [(t, s')]) p.2 - timeAt (h ++ [(t, s')]) p.1) =
      totalLength h s := by
  refine Finset.sum_congr rfl fun p hp => ?_
  obtain ⟨h1, h2⟩ := lt_length_of_mem_stretches hp
  rw [timeAt_concat_lt h1, timeAt_concat_lt h2]

theorem totalLength_concat_ended (ho : IsOpen h s i) (hne : s' ≠ s) :
    totalLength (h ++ [(t, s')]) s = totalLength h s + (t - timeAt h i) := by
  unfold totalLength
  rw [stretches_concat_ended ho hne, Finset.sum_insert length_not_mem_stretches,
    sum_stretches_concat, timeAt_concat_length, timeAt_concat_lt ho.1, add_comm]
  rfl

theorem totalLength_concat_kept (hkept : lastState h ≠ some s ∨ s' = s) :
    totalLength (h ++ [(t, s')]) s = totalLength h s := by
  unfold totalLength
  rw [stretches_concat_kept hkept, sum_stretches_concat]
  rfl

end Length

section Count

variable [Zero T] [LT T] [DecidableLT T]

private theorem filter_stretches_concat :
    (stretches h s).filter
        (fun p => timeAt (h ++ [(t, s')]) p.1 < timeAt (h ++ [(t, s')]) p.2) =
      (stretches h s).filter fun p => timeAt h p.1 < timeAt h p.2 := by
  refine Finset.filter_congr fun p hp => ?_
  obtain ⟨h1, h2⟩ := lt_length_of_mem_stretches hp
  rw [timeAt_concat_lt h1, timeAt_concat_lt h2]

theorem positiveCount_concat_ended (ho : IsOpen h s i) (hne : s' ≠ s) :
    positiveCount (h ++ [(t, s')]) s =
      positiveCount h s + if timeAt h i < t then 1 else 0 := by
  unfold positiveCount
  rw [stretches_concat_ended ho hne, Finset.filter_insert, filter_stretches_concat,
    timeAt_concat_length, timeAt_concat_lt ho.1]
  split
  · rw [Finset.card_insert_of_notMem fun hmem =>
      length_not_mem_stretches (Finset.mem_filter.mp hmem).1]
  · rfl

theorem positiveCount_concat_kept (hkept : lastState h ≠ some s ∨ s' = s) :
    positiveCount (h ++ [(t, s')]) s = positiveCount h s := by
  unfold positiveCount
  rw [stretches_concat_kept hkept, filter_stretches_concat]

end Count

end Concat

section TimeIn

variable [AddCommGroup T]

def lastTime (h : History T σ) : T :=
  timeAt h (h.length - 1)

@[simp] theorem lastTime_concat {h : History T σ} {t : T} {s : σ} :
    lastTime (h ++ [(t, s)]) = t := by
  simp [lastTime]

variable [DecidableEq σ]

def timeIn (h : History T σ) (s : σ) : T :=
  ∑ k ∈ Finset.range (h.length - 1),
    if stateAt h k = some s then timeAt h (k + 1) - timeAt h k else 0

variable {h : History T σ} {t : T} {s s' : σ}

@[simp] theorem timeIn_nil : timeIn ([] : History T σ) s = 0 := rfl

theorem timeIn_concat :
    timeIn (h ++ [(t, s')]) s =
      timeIn h s + if lastState h = some s then t - lastTime h else 0 := by
  unfold timeIn lastTime
  by_cases hnil : h = []
  · simp [hnil]
  · have hpos := List.length_pos_iff.mpr hnil
    have hlen : (h ++ [(t, s')]).length - 1 = h.length - 1 + 1 := by
      simp
      omega
    rw [hlen, Finset.sum_range_succ]
    congr 1
    · apply Finset.sum_congr rfl
      intro k hk
      have hk' := Finset.mem_range.mp hk
      rw [stateAt_concat_lt _ _ (by omega), timeAt_concat_lt (by omega),
        timeAt_concat_lt (by omega)]
    · have hsucc : h.length - 1 + 1 = h.length := by omega
      have hlast : h.length - 1 < h.length := by omega
      rw [stateAt_concat_lt _ _ hlast, stateAt_pred_length, timeAt_concat_lt hlast, hsucc,
        timeAt_concat_length]

end TimeIn

section Observed

variable {Event : Type*}

/-- What is read off the events so far after each event, with the event's time. -/
def observed (time : Event → T) (reading : List Event → σ) (events : List Event) :
    History T σ :=
  events.mapIdx fun i event => (time event, reading (events.take (i + 1)))

variable {time : Event → T} {reading : List Event → σ} {events : List Event}

@[simp] theorem observed_nil : observed time reading [] = [] := rfl

theorem observed_concat (event : Event) :
    observed time reading (events ++ [event]) =
      observed time reading events ++ [(time event, reading (events ++ [event]))] := by
  unfold observed
  rw [List.mapIdx_append, List.mapIdx_singleton]
  congr 1
  · apply List.ext_getElem
    · simp
    · intro i hi hi'
      have hlen : i < events.length := by simpa using hi
      simp [List.take_append_of_le_length (Nat.succ_le_of_lt hlen)]
  · simp [List.take_of_length_le]

@[simp] theorem length_observed : (observed time reading events).length = events.length := by
  simp [observed]

theorem lastState_observed :
    lastState (observed time reading events) =
      if events = [] then none else some (reading events) := by
  induction events using List.reverseRecOn with
  | nil => rfl
  | append_singleton past event _ => simp [observed_concat]

theorem timeAt_observed [Zero T] {k : Nat} (hk : k < events.length) :
    timeAt (observed time reading events) k = time events[k] := by
  simp [timeAt, observed, hk]

end Observed

@[simp] theorem totalLength_nil [DecidableEq σ] [AddCommGroup T] (s : σ) :
    totalLength ([] : History T σ) s = 0 := rfl

@[simp] theorem positiveCount_nil [DecidableEq σ] [Zero T] [LT T] [DecidableLT T] (s : σ) :
    positiveCount ([] : History T σ) s = 0 := rfl

end Idlestat.Library.Timeline
