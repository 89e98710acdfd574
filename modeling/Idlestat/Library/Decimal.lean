import Idlestat.Library.ScanFields
import Mathlib.Data.Rat.Floor
import Mathlib.Tactic.FieldSimp
import Mathlib.Tactic.Linarith
import Mathlib.Tactic.Positivity

/-! Numbers printed as decimals. With a fixed number of decimals a number is
rounded to the nearest one that can be printed, the even one of two; reading the
text back gives the rounded number. -/
namespace Idlestat.Library.Decimal

open Idlestat.Library.Scan

def roundEven (x : ℚ) : Int :=
  if x - ⌊x⌋ < 1 / 2 then ⌊x⌋
  else if 1 / 2 < x - ⌊x⌋ then ⌊x⌋ + 1
  else if ⌊x⌋ % 2 = 0 then ⌊x⌋ else ⌊x⌋ + 1

/-- The value that is printed with this many decimals, without its sign. -/
def units (digits : Nat) (x : ℚ) : Nat :=
  (roundEven (|x| * 10 ^ digits)).toNat

def rounded (digits : Nat) (x : ℚ) : ℚ :=
  if x < 0 then -(units digits x / 10 ^ digits) else units digits x / 10 ^ digits

/-- `%.nf`, for `n` decimals, one or more. -/
def printFixed (digits : Nat) (x : ℚ) : List Char :=
  (if x < 0 then ['-'] else []) ++ (Nat.toDigits 10 (units digits x / 10 ^ digits) ++
    '.' :: zeroPad digits (units digits x % 10 ^ digits))

def readInt (text : List Char) : Option Int :=
  match takeNumber text with
  | some (negative, magnitude, []) => some (if negative then -magnitude else magnitude)
  | _ => none

def readFixed (text : List Char) : Option ℚ :=
  match takeNumber text with
  | some (negative, magnitude, '.' :: decimals) =>
    let value : ℚ := magnitude + Nat.ofDigitChars 10 decimals 0 / 10 ^ decimals.length
    some (if negative then -value else value)
  | _ => none

theorem readInt_printInt (n : Int) : readInt (printInt n) = some n := by
  have hend : NoDigit [] := by decide
  by_cases hneg : n < 0
  · have hnumber := takeNumber_neg (n := n.natAbs) hend
    rw [List.append_nil] at hnumber
    rw [printInt_of_neg hneg, readInt, hnumber]
    simp only [if_true, Option.some.injEq]
    omega
  · have hnumber := takeNumber_toDigits (n := n.toNat) hend
    rw [List.append_nil] at hnumber
    rw [printInt_of_nonneg (not_lt.mp hneg), readInt, hnumber]
    simp only [Bool.false_eq_true, if_false, Option.some.injEq]
    omega

theorem length_zeroPad {width n : Nat} (hwidth : 0 < width) (hn : n < 10 ^ width) :
    (zeroPad width n).length = width := by
  have hlength : (Nat.toDigits 10 n).length ≤ width :=
    (Nat.length_toDigits_le_iff (by decide) hwidth).mpr hn
  simp only [zeroPad, List.length_append, List.length_replicate]
  omega

theorem readFixed_printFixed {digits : Nat} (hdigits : 0 < digits) (x : ℚ) :
    readFixed (printFixed digits x) = some (rounded digits x) := by
  have hpos : (10 ^ digits : ℚ) ≠ 0 := by positivity
  have hlength : (zeroPad digits (units digits x % 10 ^ digits)).length = digits :=
    length_zeroPad hdigits (Nat.mod_lt _ (by positivity))
  have hend : NoDigit ('.' :: zeroPad digits (units digits x % 10 ^ digits)) := by
    intro c hc
    obtain rfl := Option.some.inj hc
    decide
  have hvalue : ((units digits x / 10 ^ digits : Nat) : ℚ) +
      ((units digits x % 10 ^ digits : Nat) : ℚ) / 10 ^ digits = units digits x / 10 ^ digits := by
    have hsplit : ((10 ^ digits * (units digits x / 10 ^ digits) + units digits x % 10 ^ digits :
        Nat) : ℚ) = units digits x := by
      rw [Nat.div_add_mod]
    push_cast at hsplit
    field_simp
    linarith
  unfold readFixed printFixed rounded
  by_cases hneg : x < 0
  · have hnumber := takeNumber_neg (n := units digits x / 10 ^ digits) hend
    rw [if_pos hneg, if_pos hneg, List.singleton_append, ← List.cons_append, hnumber]
    simp only [ofDigitChars_zeroPad, hlength, hvalue, if_true]
  · have hnumber := takeNumber_toDigits (n := units digits x / 10 ^ digits) hend
    rw [if_neg hneg, if_neg hneg, List.nil_append, hnumber]
    simp only [ofDigitChars_zeroPad, hlength, hvalue, Bool.false_eq_true, if_false]

theorem mem_printFixed {digits : Nat} {x : ℚ} {c : Char} (h : c ∈ printFixed digits x) :
    c.isDigit = true ∨ c = '.' ∨ c = '-' := by
  simp only [printFixed, List.mem_append, List.mem_cons] at h
  rcases h with hsign | hwhole | hpoint | hdecimals
  · split at hsign
    · exact .inr (.inr (List.mem_singleton.mp hsign))
    · cases hsign
  · exact .inl (isDigit_of_mem_toDigits hwhole)
  · exact .inr (.inl hpoint)
  · exact .inl (isDigit_of_mem_zeroPad hdecimals)

theorem mem_printInt {n : Int} {c : Char} (h : c ∈ printInt n) : c.isDigit = true ∨ c = '-' := by
  unfold printInt at h
  split at h
  · rw [List.mem_cons] at h
    cases h with
    | inl hsign => exact .inr hsign
    | inr hdigit => exact .inl (isDigit_of_mem_toDigits hdigit)
  · exact .inl (isDigit_of_mem_toDigits h)

end Idlestat.Library.Decimal
