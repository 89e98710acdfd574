import Mathlib.Algebra.Order.Field.Basic
import Mathlib.Algebra.BigOperators.Group.List.Basic
import Mathlib.Algebra.Order.BigOperators.Group.List
import Mathlib.Data.List.Induction
import Mathlib.Tactic.Linarith
import Mathlib.Tactic.FieldSimp
import Mathlib.Tactic.Ring

/-! Count, total, mean, least and greatest value of a sample, kept by the
usual one-pass recurrences. `ofList` is the summary of a whole list; every
bound between the five numbers is proved about it once. -/
namespace Idlestat.Library.RunningStats

variable {K : Type*} [Field K] [LinearOrder K]

structure Running (K : Type*) where
  count : Nat
  total : K
  mean : K
  least : K
  greatest : K
  deriving DecidableEq

/-- No sample yet. `top` is the value the running minimum starts from. -/
def Running.empty (top : K) : Running K :=
  { count := 0, total := 0, mean := 0, least := top, greatest := 0 }

def Running.push (r : Running K) (x : K) : Running K :=
  { count := r.count + 1
    total := r.total + x
    mean := r.mean + (x - r.mean) / (r.count + 1 : Nat)
    least := min r.least x
    greatest := max r.greatest x }

def ofList (top : K) (xs : List K) : Running K :=
  xs.foldl Running.push (Running.empty top)

@[simp] theorem ofList_nil (top : K) : ofList top [] = Running.empty top := rfl

@[simp] theorem ofList_concat (top : K) (xs : List K) (x : K) :
    ofList top (xs ++ [x]) = (ofList top xs).push x := by
  simp [ofList]

@[simp] theorem ofList_count (top : K) (xs : List K) :
    (ofList top xs).count = xs.length := by
  induction xs using List.reverseRecOn with
  | nil => rfl
  | append_singleton xs x ih => simp [Running.push, ih]

@[simp] theorem ofList_total (top : K) (xs : List K) :
    (ofList top xs).total = xs.sum := by
  induction xs using List.reverseRecOn with
  | nil => rfl
  | append_singleton xs x ih => simp [Running.push, ih]

theorem ofList_least (top : K) (xs : List K) :
    IsLeast {y | y = top ∨ y ∈ xs} (ofList top xs).least := by
  induction xs using List.reverseRecOn with
  | nil => simp [Running.empty, IsLeast, lowerBounds]
  | append_singleton xs x ih =>
    have hset : {y | y = top ∨ y ∈ xs ++ [x]} = {y | y = top ∨ y ∈ xs} ∪ {x} := by
      ext y
      simp only [List.mem_append, List.mem_singleton, Set.mem_ofPred_eq, Set.mem_union,
        Set.mem_singleton_iff, or_assoc]
    rw [ofList_concat, hset]
    exact ih.union isLeast_singleton

theorem ofList_greatest (top : K) {xs : List K} (hpos : ∀ x ∈ xs, 0 < x) (hne : xs ≠ []) :
    IsGreatest {y | y ∈ xs} (ofList top xs).greatest := by
  induction xs using List.reverseRecOn with
  | nil => exact absurd rfl hne
  | append_singleton xs x ih =>
    have hx : 0 < x := hpos x (by simp)
    have hset : {y | y ∈ xs ++ [x]} = {y | y ∈ xs} ∪ {x} := by
      ext y
      simp only [List.mem_append, List.mem_singleton, Set.mem_ofPred_eq, Set.mem_union,
        Set.mem_singleton_iff]
    rw [ofList_concat, hset]
    by_cases hxs : xs = []
    · subst hxs
      simp [Running.push, Running.empty, hx.le]
    · exact (ih (fun y hy => hpos y (by simp [hy])) hxs).union isGreatest_singleton

section Ordered

variable [IsStrictOrderedRing K]

/-- The incremental mean is the exact mean. -/
theorem ofList_mean_mul (top : K) (xs : List K) :
    (ofList top xs).mean * xs.length = xs.sum := by
  induction xs using List.reverseRecOn with
  | nil => simp [Running.empty]
  | append_singleton xs x ih =>
    have hpos : (0 : K) < (xs.length : K) + 1 := by positivity
    have hmean : (ofList top (xs ++ [x])).mean * ((xs.length : K) + 1) =
        (ofList top xs).mean * xs.length + x := by
      simp only [ofList_concat, Running.push, ofList_count, Nat.cast_add, Nat.cast_one]
      field_simp
      ring
    simpa [ih] using hmean

theorem ofList_mean (top : K) (xs : List K) :
    (ofList top xs).mean = xs.sum / xs.length := by
  cases xs with
  | nil => simp [Running.empty]
  | cons y ys =>
    have hne : (((y :: ys).length : Nat) : K) ≠ 0 := by simp [Nat.cast_add_one_ne_zero]
    rw [eq_div_iff hne, ofList_mean_mul]

theorem ofList_bounds {top : K} (htop : 0 < top) {xs : List K} (hpos : ∀ x ∈ xs, 0 < x)
    (hne : xs ≠ []) :
    0 < (ofList top xs).least ∧ (ofList top xs).least ≤ (ofList top xs).mean ∧
      (ofList top xs).mean ≤ (ofList top xs).greatest ∧
      (ofList top xs).greatest ≤ (ofList top xs).total := by
  have hlen : (0 : K) < xs.length := by
    exact_mod_cast List.length_pos_iff.mpr hne
  have hmean := ofList_mean_mul top xs
  have hleast := ofList_least top xs
  have hgreatest := ofList_greatest top hpos hne
  refine ⟨?_, ?_, ?_, ?_⟩
  · rcases hleast.1 with h | h
    · rw [h]; exact htop
    · exact hpos _ h
  · have hsum : xs.length • (ofList top xs).least ≤ xs.sum :=
      List.card_nsmul_le_sum xs _ fun x hx => hleast.2 (.inr hx)
    rw [nsmul_eq_mul, ← hmean, mul_comm] at hsum
    exact le_of_mul_le_mul_right hsum hlen
  · have hsum : xs.sum ≤ xs.length • (ofList top xs).greatest :=
      List.sum_le_card_nsmul xs _ fun x hx => hgreatest.2 hx
    rw [nsmul_eq_mul, ← hmean, mul_comm (xs.length : K)] at hsum
    exact le_of_mul_le_mul_right hsum hlen
  · rw [ofList_total]
    exact List.single_le_sum (fun x hx => (hpos x hx).le) _ hgreatest.1

end Ordered

end Idlestat.Library.RunningStats
