import Mathlib.Algebra.Ring.Int.Defs
import Mathlib.Algebra.Ring.Nat
import Mathlib.Data.List.Basic
import Mathlib.Tactic.Common

/-! `sscanf` on a C string, and `fprintf` of integers. A byte is the character
with its code. The conversions are those of glibc where `long` has 64 bits; a
floating-point conversion yields the text it matched. -/
namespace Idlestat.Library.Scan

/-- A statement about all characters of a text is decided along the text. -/
instance (priority := 2000) decidableForallChar {p : Char → Prop} [DecidablePred p]
    (text : List Char) : Decidable (∀ c ∈ text, p c) :=
  List.decidableBAll p text

def isSpace (c : Char) : Bool :=
  c = ' ' || c = '\t' || c = '\n' || c = '\x0b' || c = '\x0c' || c = '\r'

/-- Conversion specifiers; `noneOf` is a set that starts with `^`. -/
inductive Spec
  | d
  | u
  | c
  | s (width : Option Nat)
  | noneOf (chars : List Char)
  | lf
  deriving DecidableEq

inductive Directive
  | space
  | lit (c : Char)
  | conv (spec : Spec)
  | skip (spec : Spec)
  deriving DecidableEq

inductive Scanned
  | int (value : Int)
  | uint (value : Nat)
  | char (c : Char)
  | str (text : List Char)
  | float (text : List Char)
  deriving DecidableEq

/-! ## Numbers -/

/-- The value of an `int` that is given the low 32 bits of `n`. -/
def toInt (n : Int) : Int :=
  Int.bmod n (2 ^ 32)

def intMax : Nat := 2 ^ 31 - 1

def strtol (negative : Bool) (magnitude : Nat) : Int :=
  if negative then max (-magnitude) (-2 ^ 63) else min magnitude (2 ^ 63 - 1)

def strtoul (negative : Bool) (magnitude : Nat) : Nat :=
  if 2 ^ 64 ≤ magnitude then 2 ^ 64 - 1
  else if negative then (2 ^ 64 - magnitude) % 2 ^ 64
  else magnitude

/-- An optional sign and at least one digit: sign, magnitude, and what follows. -/
def takeNumber (input : List Char) : Option (Bool × Nat × List Char) :=
  let body := match input with
    | '-' :: rest => rest
    | '+' :: rest => rest
    | _ => input
  let digits := body.takeWhile Char.isDigit
  if digits = [] then none
  else some (input.head? = some '-', Nat.ofDigitChars 10 digits 0, body.dropWhile Char.isDigit)

def takeWord (word input : List Char) : Option (List Char × List Char) :=
  if (input.take word.length).map Char.toLower = word
  then some (input.take word.length, input.drop word.length)
  else none

def isHexDigit (c : Char) : Bool :=
  c.isDigit || ('a' ≤ c.toLower && c.toLower ≤ 'f')

/-- The loop that collects digits, one point and one exponent. `afterE` says
that the character before was the exponent's letter. -/
def takeDigits (hex gotDigit gotDot gotE afterE : Bool) :
    List Char → List Char × List Char
  | [] => ([], [])
  | c :: rest =>
    let keep (taken : List Char × List Char) := (c :: taken.1, taken.2)
    if c.isDigit || (hex && !gotE && isHexDigit c) then
      keep (takeDigits hex true gotDot gotE false rest)
    else if afterE && (c = '+' || c = '-') then
      keep (takeDigits hex gotDigit gotDot gotE false rest)
    else if gotDigit && !gotE && c.toLower = (if hex then 'p' else 'e') then
      keep (takeDigits hex gotDigit true true true rest)
    else if !gotDot && c = '.' then
      keep (takeDigits hex gotDigit true gotE false rest)
    else ([], c :: rest)

def takeFloat (input : List Char) : Option (List Char × List Char) :=
  let sign := if input.head? = some '-' || input.head? = some '+' then 1 else 0
  let signed (taken : List Char × List Char) := (input.take sign ++ taken.1, taken.2)
  match input.drop sign with
  | [] => none
  | c :: rest =>
    if c.toLower = 'n' then (takeWord ['n', 'a', 'n'] (c :: rest)).map signed
    else if c.toLower = 'i' then do
      let (text, rest) ← takeWord ['i', 'n', 'f'] (c :: rest)
      if (rest.head?.map Char.toLower) = some 'i' then
        let (more, rest) ← takeWord ['i', 'n', 'i', 't', 'y'] rest
        some (signed (text ++ more, rest))
      else some (signed (text, rest))
    else if c = '0' && (rest.head?.map Char.toLower) = some 'x' then
      let taken := takeDigits true false false false false (rest.drop 1)
      if taken.1 = [] then none else some (signed (c :: rest.take 1 ++ taken.1, taken.2))
    else
      let taken := takeDigits false false false false false (c :: rest)
      if taken.1.any Char.isDigit then some (signed taken) else none

/-! ## One conversion -/

inductive Outcome
  | inputFailure
  | matchingFailure
  | matched (value : Scanned) (rest : List Char)
  deriving DecidableEq

def Spec.skipsSpace : Spec → Bool
  | .c => false
  | .noneOf _ => false
  | _ => true

def Spec.convert (spec : Spec) (input : List Char) : Option (Scanned × List Char) :=
  match spec with
  | .d => (takeNumber input).map fun (negative, n, rest) => (.int (toInt (strtol negative n)), rest)
  | .u => (takeNumber input).map fun (negative, n, rest) =>
    (.uint (strtoul negative n % 2 ^ 32), rest)
  | .c => input.head?.map fun c => (.char c, input.tail)
  | .s width =>
    let word := (input.take (width.getD input.length)).takeWhile fun c => !isSpace c
    some (.str word, input.drop word.length)
  | .noneOf chars =>
    let text := input.takeWhile fun c => c ∉ chars
    if text = [] then none else some (.str text, input.drop text.length)
  | .lf => (takeFloat input).map fun (text, rest) => (.float text, rest)

def Spec.read (spec : Spec) (input : List Char) : Outcome :=
  let input := if spec.skipsSpace then input.dropWhile isSpace else input
  if input = [] then .inputFailure
  else match spec.convert input with
    | none => .matchingFailure
    | some (value, rest) => .matched value rest

theorem convert_of_read {spec : Spec} {input rest : List Char} {value : Scanned}
    (h : spec.read input = .matched value rest) :
    ∃ input', spec.convert input' = some (value, rest) := by
  simp only [Spec.read] at h
  generalize (if spec.skipsSpace = true then input.dropWhile isSpace else input) = input' at h
  split at h
  · cases h
  · split at h
    · cases h
    · next hconvert =>
      obtain ⟨rfl, rfl⟩ := Outcome.matched.inj h
      exact ⟨input', hconvert⟩

theorem read_uint_lt {spec : Spec} {input rest : List Char} {n : Nat}
    (h : spec.read input = .matched (.uint n) rest) : n < 2 ^ 32 := by
  obtain ⟨input', hconvert⟩ := convert_of_read h
  cases spec with
  | u =>
    obtain ⟨⟨negative, magnitude, rest⟩, -, heq⟩ := Option.map_eq_some_iff.mp hconvert
    obtain ⟨hvalue, -⟩ := Prod.mk.inj heq
    rw [← Scanned.uint.inj hvalue]
    exact Nat.mod_lt _ (by decide)
  | noneOf chars =>
    simp only [Spec.convert] at hconvert
    split at hconvert
    · cases hconvert
    · cases hconvert
  | s width => cases hconvert
  | c =>
    obtain ⟨x, -, heq⟩ := Option.map_eq_some_iff.mp hconvert
    cases heq
  | d =>
    obtain ⟨x, -, heq⟩ := Option.map_eq_some_iff.mp hconvert
    cases heq
  | lf =>
    obtain ⟨x, -, heq⟩ := Option.map_eq_some_iff.mp hconvert
    cases heq

/-! ## Whole formats -/

/-- The values assigned, in order, and whether the input ended too early. -/
structure Result where
  assigned : List Scanned
  eof : Bool
  deriving DecidableEq

/-- What the call returns: the number of values, or `EOF`. -/
def Result.ret (result : Result) : Int :=
  if result.eof ∧ result.assigned = [] then -1 else result.assigned.length

def sscanf : List Directive → List Char → Result
  | [], _ => ⟨[], false⟩
  | .space :: format, input => sscanf format (input.dropWhile isSpace)
  | .lit _ :: _, [] => ⟨[], true⟩
  | .lit c :: format, x :: input => if x = c then sscanf format input else ⟨[], false⟩
  | .conv spec :: format, input =>
    match spec.read input with
    | .inputFailure => ⟨[], true⟩
    | .matchingFailure => ⟨[], false⟩
    | .matched value rest =>
      let result := sscanf format rest
      ⟨value :: result.assigned, result.eof⟩
  | .skip spec :: format, input =>
    match spec.read input with
    | .inputFailure => ⟨[], true⟩
    | .matchingFailure => ⟨[], false⟩
    | .matched _ rest => sscanf format rest

/-- Format text without white space and conversions. -/
def lits (text : List Char) : List Directive :=
  text.map .lit

def printInt (n : Int) : List Char :=
  if n < 0 then '-' :: Nat.toDigits 10 n.natAbs else Nat.toDigits 10 n.natAbs

theorem exists_read_of_mem {format : List Directive} {input : List Char} {value : Scanned}
    (h : value ∈ (sscanf format input).assigned) :
    ∃ spec input' rest, Spec.read spec input' = .matched value rest := by
  induction format generalizing input with
  | nil => cases h
  | cons directive format ih =>
    cases directive with
    | space => exact ih h
    | lit c =>
      cases input with
      | nil => cases h
      | cons x input =>
        simp only [sscanf] at h
        split at h
        · exact ih h
        · cases h
    | skip spec =>
      simp only [sscanf] at h
      split at h
      · cases h
      · cases h
      · exact ih h
    | conv spec =>
      simp only [sscanf] at h
      split at h
      · cases h
      · cases h
      · next value' rest hread =>
        rcases List.mem_cons.mp h with rfl | hmem
        · exact ⟨spec, input, rest, hread⟩
        · exact ih hmem

theorem uint_lt {format : List Directive} {input : List Char} {n : Nat}
    (h : .uint n ∈ (sscanf format input).assigned) : n < 2 ^ 32 := by
  obtain ⟨spec, input', rest, hread⟩ := exists_read_of_mem h
  exact read_uint_lt hread

section RoundTrip

variable {format : List Directive} {rest : List Char} {n : Nat}

theorem sscanf_lits (text : List Char) :
    sscanf (lits text ++ format) (text ++ rest) = sscanf format rest := by
  induction text with
  | nil => rfl
  | cons c text ih =>
    change (if c = c then sscanf (lits text ++ format) (text ++ rest) else _) = _
    rw [if_pos rfl, ih]

def NoDigit (rest : List Char) : Prop :=
  ∀ c ∈ rest.head?, c.isDigit = false

instance : (rest : List Char) → Decidable (NoDigit rest)
  | [] => isTrue (by simp [NoDigit])
  | c :: _ => decidable_of_iff (c.isDigit = false) (by simp [NoDigit])

theorem isDigit_of_mem_toDigits {c : Char} (h : c ∈ Nat.toDigits 10 n) : c.isDigit = true :=
  Nat.isDigit_of_mem_toDigits (by decide) (by decide) h

theorem takeWhile_toDigits (h : NoDigit rest) :
    (Nat.toDigits 10 n ++ rest).takeWhile Char.isDigit = Nat.toDigits 10 n := by
  rw [List.takeWhile_append_of_pos fun c hc => isDigit_of_mem_toDigits hc]
  cases rest with
  | nil => simp
  | cons c rest => simp [h c rfl]

theorem dropWhile_toDigits (h : NoDigit rest) :
    (Nat.toDigits 10 n ++ rest).dropWhile Char.isDigit = rest := by
  rw [List.dropWhile_append_of_pos fun c hc => isDigit_of_mem_toDigits hc]
  cases rest with
  | nil => rfl
  | cons c rest => simp [h c rfl]

theorem toDigits_cons (n : Nat) :
    ∃ c digits, Nat.toDigits 10 n = c :: digits ∧ c.isDigit = true := by
  obtain ⟨c, digits, heq⟩ := List.exists_cons_of_ne_nil (Nat.toDigits_ne_nil (n := n) (b := 10))
  exact ⟨c, digits, heq, isDigit_of_mem_toDigits (heq ▸ List.mem_cons_self)⟩

theorem takeNumber_of_isDigit {c : Char} (hc : c.isDigit = true) (input : List Char) :
    takeNumber (c :: input) =
      some (false, Nat.ofDigitChars 10 ((c :: input).takeWhile Char.isDigit) 0,
        (c :: input).dropWhile Char.isDigit) := by
  have hminus : c ≠ '-' := fun heq => absurd hc (by rw [heq]; decide)
  have hplus : c ≠ '+' := fun heq => absurd hc (by rw [heq]; decide)
  have hne : (c :: input).takeWhile Char.isDigit ≠ [] := by simp [hc]
  unfold takeNumber
  split
  · next heq => exact absurd (List.cons.inj heq).1 hminus
  · next heq => exact absurd (List.cons.inj heq).1 hplus
  · simp only [hne, if_false, List.head?_cons, Option.some.injEq, hminus, decide_false]

theorem takeNumber_toDigits (h : NoDigit rest) :
    takeNumber (Nat.toDigits 10 n ++ rest) = some (false, n, rest) := by
  obtain ⟨c, digits, heq, hc⟩ := toDigits_cons n
  have htake := takeWhile_toDigits (n := n) h
  have hdrop := dropWhile_toDigits (n := n) h
  rw [heq, List.cons_append] at htake hdrop ⊢
  rw [takeNumber_of_isDigit hc, htake, hdrop, ← heq,
    Nat.ofDigitChars_toDigits (by decide) (by decide)]

theorem isSpace_of_isDigit {c : Char} (hc : c.isDigit = true) : isSpace c = false := by
  by_contra hspace
  simp only [isSpace, Bool.or_eq_true, decide_eq_true_eq, Bool.not_eq_false] at hspace
  rcases hspace with ((((rfl | rfl) | rfl) | rfl) | rfl) | rfl <;> exact absurd hc (by decide)

theorem toInt_strtol (hn : n ≤ intMax) : toInt (strtol false n) = n := by
  have hlt : (n : Int) < 2 ^ 31 := by
    unfold intMax at hn
    omega
  have hmin : strtol false n = n := by
    simp only [strtol, Bool.false_eq_true, if_false]
    omega
  rw [hmin, toInt, Int.bmod_eq_of_le] <;> omega

theorem read_d (hn : n ≤ intMax) (h : NoDigit rest) :
    Spec.d.read (Nat.toDigits 10 n ++ rest) = .matched (.int n) rest := by
  have hnumber := takeNumber_toDigits (n := n) h
  obtain ⟨c, digits, heq, hc⟩ := toDigits_cons n
  rw [heq, List.cons_append] at hnumber ⊢
  simp [Spec.read, Spec.skipsSpace, Spec.convert, isSpace_of_isDigit hc, hnumber,
    toInt_strtol hn]

theorem sscanf_d (hn : n ≤ intMax) (h : NoDigit rest) :
    sscanf (.conv .d :: format) (Nat.toDigits 10 n ++ rest) =
      ⟨.int n :: (sscanf format rest).assigned, (sscanf format rest).eof⟩ := by
  simp only [sscanf, read_d hn h]

theorem printInt_of_nonneg {i : Int} (hi : 0 ≤ i) : printInt i = Nat.toDigits 10 i.toNat := by
  have hnot : ¬ i < 0 := by omega
  have habs : i.natAbs = i.toNat := by omega
  rw [printInt, if_neg hnot, habs]

def IsInt (i : Int) : Prop :=
  -2 ^ 31 ≤ i ∧ i ≤ intMax

instance (i : Int) : Decidable (IsInt i) :=
  inferInstanceAs (Decidable (_ ∧ _))

theorem printInt_of_neg {i : Int} (hi : i < 0) :
    printInt i = '-' :: Nat.toDigits 10 i.natAbs := by
  rw [printInt, if_pos hi]

theorem takeNumber_neg (h : NoDigit rest) :
    takeNumber ('-' :: Nat.toDigits 10 n ++ rest) = some (true, n, rest) := by
  have htake := takeWhile_toDigits (n := n) h
  have hdrop := dropWhile_toDigits (n := n) h
  have hne : Nat.toDigits 10 n ≠ [] := Nat.toDigits_ne_nil
  simp only [takeNumber, List.cons_append, htake, hdrop, hne, if_false, List.head?_cons,
    decide_true, Nat.ofDigitChars_toDigits (show 1 < 10 by decide) (show 10 ≤ 10 by decide)]

theorem toInt_strtol_neg (hn : n ≤ 2 ^ 31) : toInt (strtol true n) = -n := by
  have hmax : strtol true n = -n := by
    simp only [strtol, if_true]
    omega
  rw [hmax, toInt, Int.bmod_eq_of_le] <;> omega

theorem read_d_int {i : Int} (hi : IsInt i) (h : NoDigit rest) :
    Spec.d.read (printInt i ++ rest) = .matched (.int i) rest := by
  obtain ⟨hmin, hmax⟩ := hi
  by_cases hneg : i < 0
  · have hnumber := takeNumber_neg (n := i.natAbs) h
    have hvalue : toInt (strtol true i.natAbs) = i := by
      rw [toInt_strtol_neg (by omega)]
      omega
    have hminus : isSpace '-' = false := by decide
    rw [List.cons_append] at hnumber
    rw [printInt_of_neg hneg]
    simp [Spec.read, Spec.skipsSpace, Spec.convert, hminus, hnumber, hvalue]
  · have hcast : ((i.toNat : Nat) : Int) = i := Int.toNat_of_nonneg (by omega)
    rw [printInt_of_nonneg (by omega), read_d (by omega) h, hcast]

theorem printInt_ne_nil (i : Int) : printInt i ≠ [] := by
  unfold printInt
  split
  · exact List.cons_ne_nil _ _
  · exact Nat.toDigits_ne_nil

theorem isSpace_head_printInt (i : Int) : ∀ c ∈ (printInt i).head?, isSpace c = false := by
  intro c hc
  by_cases hneg : i < 0
  · rw [printInt_of_neg hneg] at hc
    obtain rfl := Option.some.inj hc
    decide
  · rw [printInt_of_nonneg (by omega)] at hc
    exact isSpace_of_isDigit (isDigit_of_mem_toDigits (List.mem_of_mem_head? hc))

theorem sscanf_space_cons {c : Char} (hc : isSpace c = true) :
    sscanf (.space :: format) (c :: rest) = sscanf (.space :: format) rest := by
  simp [sscanf, hc]

theorem sscanf_space {text : List Char} (hne : text ≠ [])
    (h : ∀ c ∈ text.head?, isSpace c = false) :
    sscanf (.space :: format) (text ++ rest) = sscanf format (text ++ rest) := by
  obtain ⟨c, text, rfl⟩ := List.exists_cons_of_ne_nil hne
  simp [sscanf, h c rfl]

theorem read_s {word : List Char} (hne : word ≠ []) (hword : ∀ c ∈ word, isSpace c = false)
    {c : Char} (hc : isSpace c = true) :
    (Spec.s none).read (word ++ c :: rest) = .matched (.str word) (c :: rest) := by
  have hdrop : (word ++ c :: rest).dropWhile isSpace = word ++ c :: rest := by
    obtain ⟨x, word, rfl⟩ := List.exists_cons_of_ne_nil hne
    simp [hword x List.mem_cons_self]
  have htake : (word ++ c :: rest).takeWhile (fun c => !isSpace c) = word := by
    rw [List.takeWhile_append_of_pos fun x hx => by simp [hword x hx]]
    simp [hc]
  simp only [Spec.read, Spec.skipsSpace, if_true, hdrop, Spec.convert, Option.getD_none,
    List.take_length, htake, List.drop_left]
  simp

end RoundTrip

end Idlestat.Library.Scan
