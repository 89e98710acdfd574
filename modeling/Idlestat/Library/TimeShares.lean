import Idlestat.Library.Timeline
import Mathlib.Algebra.BigOperators.Group.Finset.Piecewise
import Mathlib.Algebra.Order.BigOperators.Group.Finset
import Mathlib.Tactic.Linarith

/-! How the observed time divides among the states of a history. The shares of
all states make up the whole; a share is its ended stretches and the one still
open; and a history that is never above another spends no more time above a
bound. -/
namespace Idlestat.Library.Timeline

variable {T σ τ : Type*}

theorem exists_isOpen {h : History T σ} {s : σ} (hlast : lastState h = some s) :
    ∃ k, IsOpen h s k := by
  induction h using List.reverseRecOn with
  | nil => cases hlast
  | append_singleton past last ih =>
    obtain ⟨t₀, s₀⟩ := last
    rw [lastState_concat] at hlast
    obtain rfl := Option.some.inj hlast
    by_cases hpast : lastState past = some s₀
    · obtain ⟨k, hk⟩ := ih hpast
      exact ⟨k, hk.concat_same⟩
    · exact ⟨past.length, isOpen_concat_new hpast⟩

theorem length_congr {h : History T σ} {h' : History T τ}
    (htimes : h.map Prod.fst = h'.map Prod.fst) : h.length = h'.length := by
  rw [← List.length_map Prod.fst, htimes, List.length_map]

theorem timeAt_congr [Zero T] {h : History T σ} {h' : History T τ}
    (htimes : h.map Prod.fst = h'.map Prod.fst) (k : Nat) : timeAt h k = timeAt h' k := by
  have hget : (h.map Prod.fst)[k]? = (h'.map Prod.fst)[k]? := by rw [htimes]
  rw [List.getElem?_map, List.getElem?_map] at hget
  rw [timeAt, timeAt, hget]

section Shares

variable [AddCommGroup T] {h : History T σ} {t : T} {s s' : σ}

/-- The time spent in states with the property up to the last observation. -/
def timeWhere (h : History T σ) (p : σ → Bool) : T :=
  ∑ k ∈ Finset.range (h.length - 1),
    if (stateAt h k).any p then timeAt h (k + 1) - timeAt h k else 0

def window (h : History T σ) : T :=
  lastTime h - timeAt h 0

@[simp] theorem timeWhere_nil (p : σ → Bool) : timeWhere ([] : History T σ) p = 0 := rfl

theorem timeWhere_concat (p : σ → Bool) :
    timeWhere (h ++ [(t, s')]) p =
      timeWhere h p + if (lastState h).any p then t - lastTime h else 0 := by
  unfold timeWhere lastTime
  by_cases hnil : h = []
  · simp [hnil]
  · have hpos := List.length_pos_iff.mpr hnil
    have hlen : (h ++ [(t, s')]).length - 1 = h.length - 1 + 1 := by
      rw [List.length_append, List.length_singleton]
      omega
    rw [hlen, Finset.sum_range_succ]
    congr 1
    · apply Finset.sum_congr rfl
      intro k hk
      have hk' := Finset.mem_range.mp hk
      rw [stateAt_concat_lt _ _ (by omega), timeAt_concat_lt (by omega),
        timeAt_concat_lt (by omega)]
    · have hsucc : h.length - 1 + 1 = h.length := by omega
      have hlast : h.length - 1 < h.length := by omega
      rw [stateAt_concat_lt _ _ hlast, stateAt_pred_length, timeAt_concat_lt hlast, hsucc,
        timeAt_concat_length]

theorem window_concat :
    window (h ++ [(t, s')]) = window h + (t - (lastState h).elim t fun _ => lastTime h) := by
  cases h using List.reverseRecOn with
  | nil => simp [window, lastTime, timeAt]
  | append_singleton past last =>
    obtain ⟨t₀, s₀⟩ := last
    have hzero : timeAt (past ++ [(t₀, s₀)] ++ [(t, s')]) 0 = timeAt (past ++ [(t₀, s₀)]) 0 :=
      timeAt_concat_lt (by simp)
    simp only [window, lastTime_concat, hzero, lastState_concat, Option.elim_some]
    abel

theorem timeWhere_true : timeWhere h (fun _ => true) = window h := by
  induction h using List.reverseRecOn with
  | nil => simp [window, lastTime, timeAt]
  | append_singleton past last ih =>
    obtain ⟨t₀, s₀⟩ := last
    rw [timeWhere_concat, window_concat, ih]
    cases lastState past with
    | none => simp
    | some s => simp

theorem timeWhere_or {p q : σ → Bool} (hpq : ∀ s, ¬ (p s = true ∧ q s = true)) :
    timeWhere h (fun s => p s || q s) = timeWhere h p + timeWhere h q := by
  unfold timeWhere
  rw [← Finset.sum_add_distrib]
  apply Finset.sum_congr rfl
  intro k _
  cases stateAt h k with
  | none => simp
  | some s =>
    have hs := hpq s
    cases hp : p s <;> cases hq : q s <;> simp_all

theorem timeWhere_congr {h' : History T τ} {p : σ → Bool} {q : τ → Bool}
    (htimes : h.map Prod.fst = h'.map Prod.fst)
    (hpq : ∀ k, (stateAt h k).any p = (stateAt h' k).any q) :
    timeWhere h p = timeWhere h' q := by
  unfold timeWhere
  rw [length_congr htimes]
  apply Finset.sum_congr rfl
  intro k _
  rw [hpq k, timeAt_congr htimes, timeAt_congr htimes]

variable [DecidableEq σ]

theorem sum_timeIn (S : Finset σ) :
    ∑ s ∈ S, timeIn h s = timeWhere h (fun x => decide (x ∈ S)) := by
  unfold timeIn timeWhere
  rw [Finset.sum_comm]
  apply Finset.sum_congr rfl
  intro k _
  cases stateAt h k with
  | none => simp
  | some x => simp

/-- The share of a state is its ended stretches and what is still open. -/
theorem timeIn_eq_totalLength :
    (∀ k, IsOpen h s k → timeIn h s = totalLength h s + (lastTime h - timeAt h k)) ∧
      (lastState h ≠ some s → timeIn h s = totalLength h s) := by
  induction h using List.reverseRecOn with
  | nil => exact ⟨fun k hk => absurd hk.1 (Nat.not_lt_zero k), fun _ => rfl⟩
  | append_singleton past last ih =>
    obtain ⟨t₀, s₀⟩ := last
    rw [timeIn_concat, lastState_concat, lastTime_concat]
    by_cases hlast : lastState past = some s
    · obtain ⟨k, hk⟩ := exists_isOpen hlast
      rw [if_pos hlast, ih.1 k hk]
      constructor
      · intro k' hk'
        have hs : s₀ = s := Option.some.inj (lastState_concat.symm.trans hk'.lastState_eq)
        subst hs
        rw [hk'.unique hk.concat_same, totalLength_concat_kept (.inr rfl), timeAt_concat_lt hk.1]
        abel
      · intro hne
        rw [totalLength_concat_ended hk fun heq => hne (congrArg some heq)]
        abel
    · rw [if_neg hlast, add_zero, ih.2 hlast, totalLength_concat_kept (.inl hlast)]
      refine ⟨fun k hk => ?_, fun _ => rfl⟩
      have hs : s₀ = s := Option.some.inj (lastState_concat.symm.trans hk.lastState_eq)
      subst hs
      rw [hk.unique (isOpen_concat_new hlast), timeAt_concat_length, sub_self, add_zero]

end Shares

theorem timeAt_le_succ [Zero T] [LE T] {h : History T σ}
    (hsorted : (h.map Prod.fst).Pairwise (· ≤ ·)) {k : Nat}
    (hk : k + 1 < h.length) : timeAt h k ≤ timeAt h (k + 1) := by
  have hle := List.pairwise_iff_getElem.mp hsorted k (k + 1)
    (by rw [List.length_map]; omega) (by rw [List.length_map]; exact hk) (Nat.lt_succ_self k)
  have hk' : k < h.length := by omega
  simpa [timeAt, hk, hk'] using hle

section Below

variable [AddCommGroup T] [LinearOrder T] [IsOrderedAddMonoid T]

theorem timeWhere_le {h : History T σ} {h' : History T τ} {p : σ → Bool} {q : τ → Bool}
    (htimes : h.map Prod.fst = h'.map Prod.fst)
    (hsorted : (h.map Prod.fst).Pairwise (· ≤ ·))
    (himp : ∀ k, (stateAt h k).any p = true → (stateAt h' k).any q = true) :
    timeWhere h p ≤ timeWhere h' q := by
  unfold timeWhere
  rw [← length_congr htimes]
  apply Finset.sum_le_sum
  intro k hk
  have hk' := Finset.mem_range.mp hk
  have hmono : 0 ≤ timeAt h (k + 1) - timeAt h k :=
    sub_nonneg.mpr (timeAt_le_succ hsorted (by omega))
  rw [← timeAt_congr htimes, ← timeAt_congr htimes]
  by_cases hp : (stateAt h k).any p = true
  · rw [if_pos hp, if_pos (himp k hp)]
  · rw [if_neg hp]
    split
    · exact hmono
    · exact le_refl _

end Below

end Idlestat.Library.Timeline
