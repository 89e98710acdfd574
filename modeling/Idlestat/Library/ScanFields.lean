import Idlestat.Library.Scan
import Mathlib.Data.List.Infix
import Mathlib.Data.List.TakeWhile

/-! The fields of a line of text under `sscanf`: text skipped up to a
character, padded numbers, words of limited width, and how far a conversion
looks. -/
namespace Idlestat.Library.Scan

section Skip

variable {format : List Directive} {rest : List Char}

theorem sscanf_conv {spec : Spec} {input : List Char} {value : Scanned}
    (h : spec.read input = .matched value rest) :
    sscanf (.conv spec :: format) input =
      ⟨value :: (sscanf format rest).assigned, (sscanf format rest).eof⟩ := by
  simp only [sscanf, h]

theorem sscanf_lit (c : Char) : sscanf (.lit c :: format) (c :: rest) = sscanf format rest :=
  if_pos rfl

theorem sscanf_skipTo {stop : Char} {text : List Char} (hne : text ≠ []) (hstop : stop ∉ text) :
    sscanf (.skip (.noneOf [stop]) :: .lit stop :: format) (text ++ stop :: rest) =
      sscanf format rest := by
  have htake : (text ++ stop :: rest).takeWhile (fun c => decide (c ∉ [stop])) = text := by
    rw [List.takeWhile_append_of_pos]
    · simp
    · intro c hc
      have hother : c ≠ stop := fun heq => hstop (heq ▸ hc)
      simpa using hother
  have hread : (Spec.noneOf [stop]).read (text ++ stop :: rest) =
      .matched (.str text) (stop :: rest) := by
    simp only [Spec.read, Spec.skipsSpace, Bool.false_eq_true, if_false, Spec.convert, htake, hne,
      List.drop_left]
    simp
  simp only [sscanf, hread, if_true]

theorem sscanf_skipTo_nil (stop : Char) :
    sscanf (.skip (.noneOf [stop]) :: format) (stop :: rest) = ⟨[], false⟩ := by
  simp [sscanf, Spec.read, Spec.skipsSpace, Spec.convert]

theorem exists_first {stop : Char} {text : List Char} (h : stop ∈ text) :
    ∃ before after, text = before ++ stop :: after ∧ stop ∉ before := by
  induction text with
  | nil => cases h
  | cons c text ih =>
    by_cases hc : c = stop
    · exact ⟨[], text, by rw [hc]; rfl, by simp⟩
    · have hmem : stop ∈ text := by
        cases h with
        | head => exact absurd rfl hc
        | tail _ h => exact h
      obtain ⟨before, after, heq, hbefore⟩ := ih hmem
      refine ⟨c :: before, after, by rw [heq]; rfl, ?_⟩
      simp [hbefore, Ne.symm hc]

/-- Behind its white space, text that is not blank starts with a word, and only
white space is lost. -/
theorem exists_word {text : List Char} (htext : ∃ c ∈ text, isSpace c = false) :
    ∃ word, word ≠ [] ∧ (∀ c ∈ word.head?, isSpace c = false) ∧
      (∀ c, isSpace c = false → (c ∈ word ↔ c ∈ text)) ∧
      ∀ rest, (text ++ rest).dropWhile isSpace = word ++ rest := by
  have hne : text.dropWhile isSpace ≠ [] := by
    intro hnil
    obtain ⟨c, hc, hspace⟩ := htext
    rw [List.dropWhile_eq_nil_iff.mp hnil c hc] at hspace
    cases hspace
  refine ⟨text.dropWhile isSpace, hne, ?_, ?_, ?_⟩
  · intro c hc
    have hnot := List.head?_dropWhile_not isSpace text
    rw [Option.mem_def.mp hc] at hnot
    simpa using hnot
  · intro c hc
    have hskipped : c ∉ text.takeWhile isSpace := by
      intro hmem
      rw [List.mem_takeWhile_imp hmem] at hc
      cases hc
    have hsplit : c ∈ text.takeWhile isSpace ++ text.dropWhile isSpace ↔ _ := List.mem_append
    rw [List.takeWhile_append_dropWhile, or_iff_right hskipped] at hsplit
    exact hsplit.symm
  · intro rest
    simp [List.dropWhile_append, hne]

theorem sscanf_space_skipTo {stop : Char} {text : List Char} (hspace : isSpace stop = false)
    (htext : ∃ c ∈ text, isSpace c = false) (hstop : stop ∉ text) :
    sscanf (.space :: .skip (.noneOf [stop]) :: .lit stop :: format) (text ++ stop :: rest) =
      sscanf format rest := by
  obtain ⟨word, hne, -, hsame, hdrop⟩ := exists_word htext
  rw [sscanf, hdrop, sscanf_skipTo hne fun hmem => hstop ((hsame stop hspace).mp hmem)]

theorem exists_of_skipTo {stop : Char} {input : List Char} {value : Scanned}
    {values : List Scanned}
    (h : (sscanf (.skip (.noneOf [stop]) :: format) input).assigned = value :: values) :
    ∃ text after, input = text ++ after ∧ text ≠ [] ∧ stop ∉ text ∧
      (sscanf format after).assigned = value :: values := by
  simp only [sscanf] at h
  cases hread : (Spec.noneOf [stop]).read input with
  | inputFailure => simp [hread] at h
  | matchingFailure => simp [hread] at h
  | matched skipped after =>
    rw [hread] at h
    simp only [Spec.read, Spec.skipsSpace, Bool.false_eq_true, if_false, Spec.convert] at hread
    split at hread
    · cases hread
    · generalize htext : input.takeWhile (fun c => decide (c ∉ [stop])) = text at hread
      by_cases hnil : text = []
      · simp [hnil] at hread
      · simp only [hnil, if_false, Outcome.matched.injEq] at hread
        refine ⟨text, after, ?_, hnil, ?_, h⟩
        · have hsplit : input = text ++ input.drop text.length := by
            rw [← htext]
            exact (List.prefix_iff_eq_append.mp (List.takeWhile_prefix _)).symm
          rw [hread.2] at hsplit
          exact hsplit
        · intro hmem
          rw [← htext] at hmem
          simpa using List.mem_takeWhile_imp hmem

theorem assigned_lits (text : List Char) {input : List Char} :
    (sscanf (lits text ++ format) input).assigned =
      if text <+: input then (sscanf format (input.drop text.length)).assigned else [] := by
  induction text generalizing input with
  | nil => simp [lits]
  | cons c text ih =>
    cases input with
    | nil => simp [lits, sscanf]
    | cons x input =>
      by_cases hx : x = c
      · subst hx
        have hlit : sscanf (lits (x :: text) ++ format) (x :: input) =
            sscanf (lits text ++ format) input := sscanf_lit x
        rw [hlit, ih]
        simp [List.cons_prefix_cons]
      · have hbegins : ¬ c :: text <+: x :: input := fun h =>
          hx (List.cons_prefix_cons.mp h).1.symm
        rw [if_neg hbegins]
        simp [lits, sscanf, hx]

end Skip

/-! ## The shape of what is assigned -/

def conversions (format : List Directive) : List Spec :=
  format.filterMap fun
    | .conv spec => some spec
    | _ => none

def Spec.Yields (spec : Spec) (value : Scanned) : Prop :=
  ∃ input rest, spec.convert input = some (value, rest)

theorem yields_u {value : Scanned} (h : Spec.u.Yields value) : ∃ n, value = .uint n := by
  obtain ⟨input, rest, hconvert⟩ := h
  obtain ⟨number, -, heq⟩ := Option.map_eq_some_iff.mp hconvert
  exact ⟨_, (Prod.mk.inj heq).1.symm⟩

theorem assigned_conversions (format : List Directive) (input : List Char) :
    ∃ k, List.Forall₂ Spec.Yields ((conversions format).take k)
      (sscanf format input).assigned := by
  induction format generalizing input with
  | nil => exact ⟨0, .nil⟩
  | cons directive format ih =>
    cases directive with
    | space => exact ih _
    | lit c =>
      cases input with
      | nil => exact ⟨0, .nil⟩
      | cons x input =>
        by_cases hx : x = c
        · simpa [sscanf, hx, conversions] using ih input
        · exact ⟨0, by simp [sscanf, hx]⟩
    | skip spec =>
      cases hread : spec.read input with
      | inputFailure => exact ⟨0, by simp [sscanf, hread]⟩
      | matchingFailure => exact ⟨0, by simp [sscanf, hread]⟩
      | matched value rest => simpa [sscanf, hread, conversions] using ih rest
    | conv spec =>
      cases hread : spec.read input with
      | inputFailure => exact ⟨0, by simp [sscanf, hread]⟩
      | matchingFailure => exact ⟨0, by simp [sscanf, hread]⟩
      | matched value rest =>
        obtain ⟨k, hk⟩ := ih rest
        obtain ⟨input', hconvert⟩ := convert_of_read hread
        rw [sscanf_conv hread]
        exact ⟨k + 1, .cons ⟨input', rest, hconvert⟩ hk⟩

/-! ## Padded numbers -/

/-- What `%0*u` prints. -/
def zeroPad (width n : Nat) : List Char :=
  List.replicate (width - (Nat.toDigits 10 n).length) '0' ++ Nat.toDigits 10 n

section Padded

variable {rest digits : List Char} {width n : Nat}

theorem isDigit_of_mem_zeroPad {c : Char} (h : c ∈ zeroPad width n) : c.isDigit = true := by
  cases List.mem_append.mp h with
  | inl hzero =>
    rw [List.eq_of_mem_replicate hzero]
    decide
  | inr hdigit => exact isDigit_of_mem_toDigits hdigit

theorem zeroPad_ne_nil : zeroPad width n ≠ [] := by
  simp [zeroPad, Nat.toDigits_ne_nil]

theorem width_le_zeroPad : width ≤ (zeroPad width n).length := by
  simp only [zeroPad, List.length_append, List.length_replicate]
  omega

theorem ofDigitChars_zeroPad : Nat.ofDigitChars 10 (zeroPad width n) 0 = n := by
  unfold zeroPad
  generalize width - (Nat.toDigits 10 n).length = k
  induction k with
  | zero => exact Nat.ofDigitChars_toDigits (by decide) (by decide)
  | succ k ih =>
    rw [List.replicate_succ, List.cons_append, Nat.ofDigitChars_cons]
    exact ih

theorem read_d_digits (hne : digits ≠ []) (hall : ∀ c ∈ digits, c.isDigit = true)
    (hn : Nat.ofDigitChars 10 digits 0 ≤ intMax) (h : NoDigit rest) :
    Spec.d.read (digits ++ rest) = .matched (.int (Nat.ofDigitChars 10 digits 0 : Nat)) rest := by
  obtain ⟨c, tail, rfl⟩ := List.exists_cons_of_ne_nil hne
  have hc : c.isDigit = true := hall c List.mem_cons_self
  have htake : (c :: tail ++ rest).takeWhile Char.isDigit = c :: tail := by
    rw [List.takeWhile_append_of_pos hall]
    cases rest with
    | nil => simp
    | cons x rest => simp [h x rfl]
  have hdrop : (c :: tail ++ rest).dropWhile Char.isDigit = rest := by
    rw [List.dropWhile_append_of_pos hall]
    cases rest with
    | nil => rfl
    | cons x rest => simp [h x rfl]
  have hnumber := takeNumber_of_isDigit hc (tail ++ rest)
  rw [← List.cons_append, htake, hdrop] at hnumber
  simp only [List.cons_append] at hnumber ⊢
  simp [Spec.read, Spec.skipsSpace, Spec.convert, isSpace_of_isDigit hc, hnumber,
    toInt_strtol hn]

theorem read_d_zeroPad (hn : n ≤ intMax) (h : NoDigit rest) :
    Spec.d.read (zeroPad width n ++ rest) = .matched (.int n) rest := by
  have hne : zeroPad width n ≠ [] := zeroPad_ne_nil
  have hread := read_d_digits hne
    (fun c hc => isDigit_of_mem_zeroPad hc) (by rwa [ofDigitChars_zeroPad]) h
  rwa [ofDigitChars_zeroPad] at hread

end Padded

section Word

variable {rest input word : List Char} {n : Nat}

/-- The word is the start of the text if no white space comes before its width,
and the text, if shorter, ends there. -/
theorem read_word (hne : word ≠ []) (hn : 0 < n)
    (hword : ∀ c ∈ word.take n, isSpace c = false)
    (hrest : n ≤ word.length ∨ ∀ c ∈ rest.head?, isSpace c = true) :
    ∃ rest', (Spec.s (some n)).read (word ++ rest) = .matched (.str (word.take n)) rest' := by
  have hdrop : (word ++ rest).dropWhile isSpace = word ++ rest := by
    obtain ⟨x, tail, rfl⟩ := List.exists_cons_of_ne_nil hne
    have hx : isSpace x = false := by
      apply hword
      obtain ⟨m, rfl⟩ : ∃ m, n = m + 1 := ⟨n - 1, by omega⟩
      simp
    simp [hx]
  have htake : ((word ++ rest).take n).takeWhile (fun c => !isSpace c) = word.take n := by
    rw [List.take_append, List.takeWhile_append_of_pos fun c hc => by simp [hword c hc]]
    cases hrest with
    | inl hlong =>
      have hzero : n - word.length = 0 := by omega
      simp [hzero]
    | inr hspace =>
      have hnil : (rest.take (n - word.length)).takeWhile (fun c => !isSpace c) = [] := by
        cases rest with
        | nil => simp
        | cons x rest =>
          cases n - word.length with
          | zero => simp
          | succ m => simp [hspace x rfl]
      rw [hnil, List.append_nil]
  refine ⟨(word ++ rest).drop (word.take n).length, ?_⟩
  simp only [Spec.read, Spec.skipsSpace, if_true, hdrop, Spec.convert, Option.getD_some, htake]
  simp [hne]

theorem read_word_bounds {text rest' : List Char}
    (h : (Spec.s (some n)).read input = .matched (.str text) rest') :
    text.length ≤ n ∧ ∀ c ∈ text, isSpace c = false := by
  obtain ⟨input', hconvert⟩ := convert_of_read h
  simp only [Spec.convert, Option.getD_some, Option.some.injEq, Prod.mk.injEq,
    Scanned.str.injEq] at hconvert
  rw [← hconvert.1]
  constructor
  · exact (List.takeWhile_sublist _).length_le.trans (List.length_take_le _ _)
  · intro c hc
    simpa using List.mem_takeWhile_imp hc

theorem scan_word_bounds {format : List Directive} {text : List Char} {values : List Scanned}
    (h : (sscanf (.conv (.s (some n)) :: format) input).assigned = .str text :: values) :
    text.length ≤ n ∧ ∀ c ∈ text, isSpace c = false := by
  simp only [sscanf] at h
  cases hread : (Spec.s (some n)).read input with
  | inputFailure => simp [hread] at h
  | matchingFailure => simp [hread] at h
  | matched value rest =>
    simp only [hread, List.cons.injEq] at h
    rw [h.1] at hread
    exact read_word_bounds hread

end Word

section Numbers

variable {rest : List Char} {n : Nat}

theorem read_u (hn : n < 2 ^ 32) (h : NoDigit rest) :
    Spec.u.read (Nat.toDigits 10 n ++ rest) = .matched (.uint n) rest := by
  have hnumber := takeNumber_toDigits (n := n) h
  obtain ⟨c, digits, heq, hc⟩ := toDigits_cons n
  have hvalue : strtoul false n % 4294967296 = n := by
    have hsmall : ¬ 2 ^ 64 ≤ n := by omega
    simp only [strtoul, hsmall, if_false, Bool.false_eq_true]
    exact Nat.mod_eq_of_lt hn
  rw [heq, List.cons_append] at hnumber ⊢
  simp [Spec.read, Spec.skipsSpace, Spec.convert, isSpace_of_isDigit hc, hnumber, hvalue]

theorem assigned_d {input : List Char} : (sscanf [.conv .d] input).assigned =
    match takeNumber (input.dropWhile isSpace) with
    | some (negative, magnitude, _) => [.int (toInt (strtol negative magnitude))]
    | none => [] := by
  have hnil : takeNumber [] = none := rfl
  simp only [sscanf, Spec.read, Spec.skipsSpace, if_true, Spec.convert]
  generalize input.dropWhile isSpace = number
  by_cases hempty : number = []
  · rw [if_pos hempty, hempty, hnil]
  · rw [if_neg hempty]
    cases takeNumber number <;> rfl

theorem int_le {format : List Directive} {input : List Char} {value : Int}
    (h : .int value ∈ (sscanf format input).assigned) : value ≤ intMax := by
  obtain ⟨spec, input', rest, hread⟩ := exists_read_of_mem h
  obtain ⟨input', hconvert⟩ := convert_of_read hread
  cases spec with
  | d =>
    obtain ⟨⟨negative, magnitude, tail⟩, -, heq⟩ := Option.map_eq_some_iff.mp hconvert
    rw [← Scanned.int.inj (Prod.mk.inj heq).1]
    have hlt : toInt (strtol negative magnitude) < ((2 ^ 32 : Nat) + 1) / 2 :=
      Int.bmod_lt (by decide)
    unfold intMax
    omega
  | noneOf chars =>
    simp only [Spec.convert] at hconvert
    split at hconvert
    · cases hconvert
    · cases hconvert
  | s width => cases hconvert
  | u =>
    obtain ⟨x, -, heq⟩ := Option.map_eq_some_iff.mp hconvert
    cases heq
  | c =>
    obtain ⟨x, -, heq⟩ := Option.map_eq_some_iff.mp hconvert
    cases heq
  | lf =>
    obtain ⟨x, -, heq⟩ := Option.map_eq_some_iff.mp hconvert
    cases heq

theorem toLower_of_isDigit {c : Char} (hc : c.isDigit = true) : c.toLower = c := by
  have hnine : c.val ≤ '9'.val := by
    simp only [Char.isDigit, Bool.and_eq_true, decide_eq_true_eq] at hc
    exact hc.2
  have hlow : ¬ (c.val ≥ 'A'.val ∧ c.val ≤ 'Z'.val) := by
    intro hupper
    exact absurd (UInt32.le_trans hupper.1 hnine) (by decide)
  exact dif_neg hlow

theorem takeDigits_digits {gotDot gotE : Bool} {digits : List Char}
    (hall : ∀ c ∈ digits, c.isDigit = true) :
    takeDigits false true gotDot gotE false (digits ++ rest) =
      (digits ++ (takeDigits false true gotDot gotE false rest).1,
        (takeDigits false true gotDot gotE false rest).2) := by
  induction digits with
  | nil => rfl
  | cons c digits ih =>
    have hc : c.isDigit = true := hall c List.mem_cons_self
    rw [List.cons_append, takeDigits]
    simp [hc, ih fun x hx => hall x (List.mem_cons_of_mem c hx)]

theorem read_lf {whole fraction : List Char} (hne : whole ≠ [])
    (hwhole : ∀ c ∈ whole, c.isDigit = true) (hfraction : ∀ c ∈ fraction, c.isDigit = true) :
    Spec.lf.read (whole ++ '.' :: (fraction ++ ':' :: rest)) =
      .matched (.float (whole ++ '.' :: fraction)) (':' :: rest) := by
  obtain ⟨c, tail, rfl⟩ := List.exists_cons_of_ne_nil hne
  have hc : c.isDigit = true := hwhole c List.mem_cons_self
  have htail : ∀ x ∈ tail, x.isDigit = true := fun x hx => hwhole x (List.mem_cons_of_mem c hx)
  have hend : takeDigits false true true false false (':' :: rest) = ([], ':' :: rest) := by
    simp [takeDigits]
  have hpoint : takeDigits false true false false false ('.' :: (fraction ++ ':' :: rest)) =
      ('.' :: fraction, ':' :: rest) := by
    rw [takeDigits]
    simp [takeDigits_digits hfraction, hend]
  have htaken : takeDigits false false false false false
      (c :: (tail ++ '.' :: (fraction ++ ':' :: rest))) =
      (c :: tail ++ '.' :: fraction, ':' :: rest) := by
    rw [takeDigits]
    simp [hc, takeDigits_digits htail, hpoint]
  have hlower := toLower_of_isDigit hc
  have hletter : ∀ x : Char, x.isDigit = false → c ≠ x := fun x hx heq => by
    rw [heq, hx] at hc
    cases hc
  -- after a leading zero comes a digit or the point
  have hnothex : ¬ (tail.head?.getD '.').toLower = 'x' := by
    cases tail with
    | nil => decide
    | cons y tail =>
      have hy : y.isDigit = true := htail y List.mem_cons_self
      rw [List.head?_cons, Option.getD_some, toLower_of_isDigit hy]
      intro heq
      rw [heq] at hy
      cases hy
  have hfloat : takeFloat (c :: (tail ++ '.' :: (fraction ++ ':' :: rest))) =
      some (c :: tail ++ '.' :: fraction, ':' :: rest) := by
    simp [takeFloat, hletter '-' rfl, hletter '+' rfl, hletter 'n' rfl, hletter 'i' rfl, hlower,
      hnothex, htaken, hc]
  simp only [List.cons_append] at hfloat ⊢
  simp [Spec.read, Spec.skipsSpace, Spec.convert, isSpace_of_isDigit hc, hfloat]

end Numbers

section Stop

variable {stop : Char} {p : Char → Bool}

theorem takeWhile_stop (hstop : p stop = false) (text rest : List Char) :
    (text ++ stop :: rest).takeWhile p = text.takeWhile p := by
  induction text with
  | nil => simp [hstop]
  | cons c text ih => simp [List.takeWhile_cons, ih]

theorem dropWhile_stop (hstop : p stop = false) (text rest : List Char) :
    (text ++ stop :: rest).dropWhile p = text.dropWhile p ++ stop :: rest := by
  induction text with
  | nil => simp [hstop]
  | cons c text ih =>
    rw [List.cons_append, List.dropWhile_cons, List.dropWhile_cons, ih]
    split <;> rfl

theorem takeNumber_unsigned {c : Char} (hminus : c ≠ '-') (hplus : c ≠ '+') (input : List Char) :
    takeNumber (c :: input) =
      if (c :: input).takeWhile Char.isDigit = [] then none
      else some (false, Nat.ofDigitChars 10 ((c :: input).takeWhile Char.isDigit) 0,
        (c :: input).dropWhile Char.isDigit) := by
  unfold takeNumber
  split
  · next heq => exact absurd (List.cons.inj heq).1 hminus
  · next heq => exact absurd (List.cons.inj heq).1 hplus
  · simp only [List.head?_cons, Option.some.injEq, hminus, decide_false]

theorem takeNumber_stop (hdigit : stop.isDigit = false) (hminus : stop ≠ '-')
    (hplus : stop ≠ '+') (text rest : List Char) :
    takeNumber (text ++ stop :: rest) =
      (takeNumber text).map fun (negative, n, tail) => (negative, n, tail ++ stop :: rest) := by
  have htake := fun text => takeWhile_stop hdigit text rest
  have hdrop := fun text => dropWhile_stop hdigit text rest
  cases text with
  | nil => simp [takeNumber, hminus, hplus, hdigit]
  | cons c text =>
    by_cases hneg : c = '-'
    · subst hneg
      simp only [takeNumber, List.cons_append, htake, hdrop]
      split <;> simp
    · by_cases hpos : c = '+'
      · subst hpos
        simp only [takeNumber, List.cons_append, htake, hdrop]
        split <;> simp
      · have htake' := htake (c :: text)
        have hdrop' := hdrop (c :: text)
        rw [List.cons_append] at htake' hdrop'
        rw [List.cons_append, takeNumber_unsigned hneg hpos, takeNumber_unsigned hneg hpos, htake',
          hdrop']
        split <;> rfl

theorem read_d_stop (hspace : isSpace stop = false) (hdigit : stop.isDigit = false)
    (hminus : stop ≠ '-') (hplus : stop ≠ '+') (text : List Char) :
    (∀ rest, Spec.d.read (text ++ stop :: rest) = .matchingFailure) ∨
      ∃ value tail, ∀ rest,
        Spec.d.read (text ++ stop :: rest) = .matched (.int value) (tail ++ stop :: rest) := by
  have hread : ∀ rest, Spec.d.read (text ++ stop :: rest) =
      match (takeNumber (text.dropWhile isSpace)) with
      | none => .matchingFailure
      | some (negative, n, tail) =>
        .matched (.int (toInt (strtol negative n))) (tail ++ stop :: rest) := by
    intro rest
    have hne : text.dropWhile isSpace ++ stop :: rest ≠ [] := by simp
    simp only [Spec.read, Spec.skipsSpace, if_true, dropWhile_stop hspace, hne, if_false,
      Spec.convert, takeNumber_stop hdigit hminus hplus]
    cases takeNumber (text.dropWhile isSpace) <;> rfl
  cases hnumber : takeNumber (text.dropWhile isSpace) with
  | none => exact .inl fun rest => by rw [hread, hnumber]
  | some found => exact .inr ⟨_, _, fun rest => by rw [hread, hnumber]⟩

theorem takeDigits_stop {hex gotDigit gotDot gotE afterE : Bool} (text rest : List Char) :
    takeDigits hex gotDigit gotDot gotE afterE (text ++ ' ' :: rest) =
      ((takeDigits hex gotDigit gotDot gotE afterE text).1,
        (takeDigits hex gotDigit gotDot gotE afterE text).2 ++ ' ' :: rest) := by
  induction text generalizing gotDigit gotDot gotE afterE with
  | nil => cases hex <;> simp [takeDigits, isHexDigit]
  | cons c text ih =>
    rw [List.cons_append, takeDigits, takeDigits]
    simp only [ih]
    generalize (if hex = true then 'p' else 'e') = letter
    split
    · rfl
    · split
      · rfl
      · split
        · rfl
        · split <;> rfl

theorem takeWord_stop {word : List Char} (hword : ' ' ∉ word) (text rest : List Char) :
    takeWord word (text ++ ' ' :: rest) =
      (takeWord word text).map fun taken => (taken.1, taken.2 ++ ' ' :: rest) := by
  unfold takeWord
  by_cases hlength : word.length ≤ text.length
  · rw [List.take_append_of_le_length hlength, List.drop_append_of_le_length hlength]
    split <;> rfl
  · have hlong : ((text ++ ' ' :: rest).take word.length).map Char.toLower ≠ word := by
      intro heq
      apply hword
      rw [← heq]
      apply List.mem_map.mpr
      refine ⟨' ', ?_, rfl⟩
      obtain ⟨k, hk⟩ : ∃ k, word.length = text.length + (k + 1) :=
        ⟨word.length - text.length - 1, by omega⟩
      rw [hk, List.take_length_add_append]
      simp
    have hshort : (text.take word.length).map Char.toLower ≠ word := by
      intro heq
      have hsame := congrArg List.length heq
      rw [List.length_map, List.length_take] at hsame
      omega
    rw [if_neg hlong, if_neg hshort]
    rfl

def takeUnsigned : List Char → Option (List Char × List Char)
  | [] => none
  | c :: rest =>
    if c.toLower = 'n' then takeWord ['n', 'a', 'n'] (c :: rest)
    else if c.toLower = 'i' then do
      let (text, rest) ← takeWord ['i', 'n', 'f'] (c :: rest)
      if (rest.head?.map Char.toLower) = some 'i' then
        let (more, rest) ← takeWord ['i', 'n', 'i', 't', 'y'] rest
        some (text ++ more, rest)
      else some (text, rest)
    else if c = '0' && (rest.head?.map Char.toLower) = some 'x' then
      let taken := takeDigits true false false false false (rest.drop 1)
      if taken.1 = [] then none else some (c :: rest.take 1 ++ taken.1, taken.2)
    else
      let taken := takeDigits false false false false false (c :: rest)
      if taken.1.any Char.isDigit then some taken else none

def signLength (input : List Char) : Nat :=
  if input.head? = some '-' || input.head? = some '+' then 1 else 0

theorem takeFloat_eq (input : List Char) :
    takeFloat input = (takeUnsigned (input.drop (signLength input))).map fun taken =>
      (input.take (signLength input) ++ taken.1, taken.2) := by
  unfold takeFloat signLength
  generalize (if (decide (input.head? = some '-') || decide (input.head? = some '+')) = true
    then 1 else 0) = sign
  cases hdrop : input.drop sign with
  | nil => simp [hdrop, takeUnsigned]
  | cons c rest =>
    simp only [hdrop, takeUnsigned]
    by_cases hnan : c.toLower = 'n'
    · simp only [if_pos hnan]
    · by_cases hinf : c.toLower = 'i'
      · simp only [if_neg hnan, if_pos hinf]
        cases takeWord ['i', 'n', 'f'] (c :: rest) with
        | none => rfl
        | some taken =>
          by_cases hmore : taken.2.head?.map Char.toLower = some 'i'
          · simp only [if_pos hmore, bind, Option.bind]
            cases takeWord ['i', 'n', 'i', 't', 'y'] taken.2 <;> simp
          · simp only [if_neg hmore, bind, Option.bind, Option.map_some]
      · simp only [if_neg hnan, if_neg hinf]
        split
        · split <;> simp
        · split <;> simp

theorem takeUnsigned_stop (text rest : List Char) :
    takeUnsigned (text ++ ' ' :: rest) =
      (takeUnsigned text).map fun taken => (taken.1, taken.2 ++ ' ' :: rest) := by
  cases text with
  | nil => simp [takeUnsigned, takeDigits]
  | cons c text =>
    have hword : ∀ word : List Char, ' ' ∉ word → takeWord word (c :: (text ++ ' ' :: rest)) =
        (takeWord word (c :: text)).map fun taken => (taken.1, taken.2 ++ ' ' :: rest) :=
      fun word hword => takeWord_stop hword (c :: text) rest
    have hhead : ∀ tail : List Char, ∀ x : Char, x ≠ ' ' →
        ((tail ++ ' ' :: rest).head?.map Char.toLower = some x ↔
          tail.head?.map Char.toLower = some x) := by
      intro tail x hx
      cases tail with
      | nil => simpa using fun heq : ' '.toLower = x => hx heq.symm
      | cons y tail => simp
    rw [List.cons_append, takeUnsigned, takeUnsigned]
    by_cases hnan : c.toLower = 'n'
    · simp only [if_pos hnan]
      exact hword _ (by decide)
    · by_cases hinf : c.toLower = 'i'
      · simp only [if_neg hnan, if_pos hinf, hword ['i', 'n', 'f'] (by decide)]
        cases takeWord ['i', 'n', 'f'] (c :: text) with
        | none => rfl
        | some taken =>
          have hrest : takeWord ['i', 'n', 'i', 't', 'y'] (taken.2 ++ ' ' :: rest) =
              (takeWord ['i', 'n', 'i', 't', 'y'] taken.2).map fun taken =>
                (taken.1, taken.2 ++ ' ' :: rest) := takeWord_stop (by decide) taken.2 rest
          by_cases hmore : taken.2.head?.map Char.toLower = some 'i'
          · simp only [Option.map_some, bind, Option.bind, hhead taken.2 'i' (by decide),
              if_pos hmore, hrest]
            cases takeWord ['i', 'n', 'i', 't', 'y'] taken.2 <;> rfl
          · simp only [Option.map_some, bind, Option.bind, hhead taken.2 'i' (by decide),
              if_neg hmore]
      · simp only [if_neg hnan, if_neg hinf, hhead text 'x' (by decide)]
        split
        · next hhex =>
          -- the letter is in the text
          cases text with
          | nil => simp at hhex
          | cons x tail =>
            simp only [List.cons_append, List.drop_succ_cons, List.drop_zero, takeDigits_stop,
              List.take_succ_cons, List.take_zero]
            split <;> rfl
        · have hdigits : takeDigits false false false false false (c :: (text ++ ' ' :: rest)) =
              ((takeDigits false false false false false (c :: text)).1,
                (takeDigits false false false false false (c :: text)).2 ++ ' ' :: rest) :=
            takeDigits_stop (c :: text) rest
          rw [hdigits]
          split <;> rfl

theorem takeFloat_stop (text rest : List Char) :
    takeFloat (text ++ ' ' :: rest) =
      (takeFloat text).map fun taken => (taken.1, taken.2 ++ ' ' :: rest) := by
  rw [takeFloat_eq, takeFloat_eq]
  cases text with
  | nil => simp [signLength, takeUnsigned, takeDigits]
  | cons c text =>
    have hsign : signLength (c :: text ++ ' ' :: rest) = signLength (c :: text) := rfl
    have hcases : signLength (c :: text) = 0 ∨ signLength (c :: text) = 1 := by
      unfold signLength
      split
      · exact .inr rfl
      · exact .inl rfl
    rw [hsign]
    cases hcases with
    | inl hzero =>
      simp only [hzero, List.drop_zero, takeUnsigned_stop, Option.map_map]
      rfl
    | inr hone =>
      simp only [hone, List.cons_append, List.drop_succ_cons, List.drop_zero, takeUnsigned_stop,
        Option.map_map]
      rfl

theorem read_lf_stop {text : List Char} (hne : text ≠ [])
    (hhead : ∀ c ∈ text.head?, isSpace c = false) :
    (∀ rest, Spec.lf.read (text ++ ' ' :: rest) = .matchingFailure) ∨
      ∃ float tail, ∀ rest,
        Spec.lf.read (text ++ ' ' :: rest) = .matched (.float float) (tail ++ ' ' :: rest) := by
  have hdrop : ∀ rest, (text ++ ' ' :: rest).dropWhile isSpace = text ++ ' ' :: rest := by
    intro rest
    obtain ⟨c, tail, rfl⟩ := List.exists_cons_of_ne_nil hne
    simp [hhead c rfl]
  have hread : ∀ rest, Spec.lf.read (text ++ ' ' :: rest) =
      match takeFloat text with
      | none => .matchingFailure
      | some taken => .matched (.float taken.1) (taken.2 ++ ' ' :: rest) := by
    intro rest
    have hsome : text ++ ' ' :: rest ≠ [] := by simp
    simp only [Spec.read, Spec.skipsSpace, if_true, hdrop, hsome, if_false, Spec.convert,
      takeFloat_stop]
    cases takeFloat text <;> rfl
  cases hfloat : takeFloat text with
  | none => exact .inl fun rest => by rw [hread, hfloat]
  | some taken => exact .inr ⟨taken.1, taken.2, fun rest => by rw [hread, hfloat]⟩

/-- Where the text before a stop is empty or has the stop itself, a number that
is read behind the first stop does not depend on what follows the last. -/
theorem scan_early_stop {format : List Directive} (hspace : isSpace stop = false)
    (hdigit : stop.isDigit = false) (hminus : stop ≠ '-') (hplus : stop ≠ '+')
    {before : List Char} (hearly : ¬ (before ≠ [] ∧ stop ∉ before)) :
    (∀ rest, (sscanf (.skip (.noneOf [stop]) :: .lit stop :: .conv .d :: format)
        (before ++ stop :: rest)).assigned = []) ∨
      ∃ value, ∀ rest, ∃ values,
        (sscanf (.skip (.noneOf [stop]) :: .lit stop :: .conv .d :: format)
          (before ++ stop :: rest)).assigned = .int value :: values := by
  by_cases hmem : stop ∈ before
  · obtain ⟨first, second, rfl, hfirst⟩ := exists_first hmem
    by_cases hnil : first = []
    · subst hnil
      exact .inl fun rest => by rw [List.append_assoc]; exact congrArg _ (sscanf_skipTo_nil stop)
    · have hskip : ∀ rest, sscanf (.skip (.noneOf [stop]) :: .lit stop :: .conv .d :: format)
          (first ++ stop :: second ++ stop :: rest) =
          sscanf (.conv .d :: format) (second ++ stop :: rest) := by
        intro rest
        rw [List.append_assoc]
        exact sscanf_skipTo hnil hfirst
      rcases read_d_stop hspace hdigit hminus hplus second with hfail | ⟨value, tail, hread⟩
      · exact .inl fun rest => by rw [hskip]; simp only [sscanf, hfail]
      · exact .inr ⟨value, fun rest => by rw [hskip]; simp only [sscanf, hread]; exact ⟨_, rfl⟩⟩
  · obtain rfl : before = [] := by
      by_contra hne
      exact hearly ⟨hne, hmem⟩
    exact .inl fun rest => congrArg _ (sscanf_skipTo_nil stop)

/-- The same where white space is skipped first. -/
theorem scan_space_early_stop {format : List Directive} (hspace : isSpace stop = false)
    (hdigit : stop.isDigit = false) (hminus : stop ≠ '-') (hplus : stop ≠ '+')
    {before : List Char} (hearly : stop ∈ before) :
    (∀ rest, (sscanf (.space :: .skip (.noneOf [stop]) :: .lit stop :: .conv .d :: format)
        (before ++ stop :: rest)).assigned = []) ∨
      ∃ value, ∀ rest, ∃ values,
        (sscanf (.space :: .skip (.noneOf [stop]) :: .lit stop :: .conv .d :: format)
          (before ++ stop :: rest)).assigned = .int value :: values := by
  obtain ⟨word, -, -, hsame, hdrop⟩ := exists_word ⟨stop, hearly, hspace⟩
  have hword : ¬ (word ≠ [] ∧ stop ∉ word) := fun h => h.2 ((hsame stop hspace).mpr hearly)
  have hscan : ∀ rest, sscanf (.space :: .skip (.noneOf [stop]) :: .lit stop :: .conv .d :: format)
      (before ++ stop :: rest) =
      sscanf (.skip (.noneOf [stop]) :: .lit stop :: .conv .d :: format) (word ++ stop :: rest) :=
    fun rest => by rw [sscanf, hdrop]
  simp only [hscan]
  exact scan_early_stop hspace hdigit hminus hplus hword

/-- Scans that all read nothing, or all read the same first, do not read two
different values first. -/
theorem first_eq_of_alike {ι β : Type} {f : β → Scanned} {scan : ι → List Scanned}
    (halike : (∀ i, scan i = []) ∨ ∃ value, ∀ i, ∃ values, scan i = f value :: values)
    {i j : ι} {first second : Scanned} {rest rest' : List Scanned}
    (hi : scan i = first :: rest) (hj : scan j = second :: rest') : first = second := by
  cases halike with
  | inl hnone =>
    rw [hnone i] at hi
    cases hi
  | inr hread =>
    obtain ⟨value, hread⟩ := hread
    obtain ⟨values, hvalues⟩ := hread i
    obtain ⟨values', hvalues'⟩ := hread j
    have hfirst : f value = first := (List.cons.inj (hvalues.symm.trans hi)).1
    have hsecond : f value = second := (List.cons.inj (hvalues'.symm.trans hj)).1
    exact hfirst.symm.trans hsecond

theorem scan_lf_stop {format : List Directive} {text : List Char}
    (htext : ∃ c ∈ text, isSpace c = false) :
    (∀ rest, (sscanf (.space :: .conv .lf :: format) (text ++ ' ' :: rest)).assigned = []) ∨
      ∃ float, ∀ rest, ∃ values,
        (sscanf (.space :: .conv .lf :: format) (text ++ ' ' :: rest)).assigned =
          .float float :: values := by
  obtain ⟨word, hne, hhead, -, hdrop⟩ := exists_word htext
  rcases read_lf_stop hne hhead with hfail | ⟨float, tail, hread⟩
  · exact .inl fun rest => by simp only [sscanf, hdrop, hfail]
  · exact .inr ⟨float, fun rest => by simp only [sscanf, hdrop, hread]; exact ⟨_, rfl⟩⟩

theorem sscanf_skip_word {format : List Directive} {input : List Char} (hne : input ≠ [])
    (hhead : ∀ c ∈ input.head?, isSpace c = false) :
    sscanf (.skip (.s none) :: format) input =
      sscanf format (input.dropWhile fun c => !isSpace c) := by
  generalize hp : (fun c => !isSpace c) = p
  have hdrop : input.drop (input.takeWhile p).length = input.dropWhile p := by
    calc
      input.drop (input.takeWhile p).length =
          (input.takeWhile p ++ input.dropWhile p).drop (input.takeWhile p).length := by
        rw [List.takeWhile_append_dropWhile]
      _ = input.dropWhile p := List.drop_left
  have hinput : input.dropWhile isSpace = input := by
    obtain ⟨c, tail, rfl⟩ := List.exists_cons_of_ne_nil hne
    simp [hhead c rfl]
  simp only [sscanf, Spec.read, Spec.skipsSpace, if_true, hinput, hne, if_false, Spec.convert,
    Option.getD_none, List.take_length, hp, hdrop]

/-- The same behind a word that is skipped. If that is the last word of the text,
the number would have to start with the bracket. -/
theorem scan_word_lf_stop {format : List Directive} {text : List Char}
    (htext : ∃ c ∈ text, isSpace c = false) :
    (∀ rest, (sscanf (.space :: .skip (.s none) :: .space :: .conv .lf :: format)
        (text ++ ' ' :: '[' :: rest)).assigned = []) ∨
      ∃ float, ∀ rest, ∃ values,
        (sscanf (.space :: .skip (.s none) :: .space :: .conv .lf :: format)
          (text ++ ' ' :: '[' :: rest)).assigned = .float float :: values := by
  obtain ⟨word, hne, hhead, -, hdrop⟩ := exists_word htext
  generalize hbehind : word.dropWhile (fun c => !isSpace c) = behind
  have hskip : ∀ rest, sscanf (.space :: .skip (.s none) :: .space :: .conv .lf :: format)
      (text ++ ' ' :: '[' :: rest) =
      sscanf (.space :: .conv .lf :: format) (behind ++ ' ' :: '[' :: rest) := by
    intro rest
    have hstart : ∀ c ∈ (word ++ ' ' :: '[' :: rest).head?, isSpace c = false := by
      obtain ⟨x, tail, rfl⟩ := List.exists_cons_of_ne_nil hne
      exact hhead
    have hblank : (!isSpace ' ') = false := by decide
    have hword : (word ++ ' ' :: '[' :: rest).dropWhile (fun c => !isSpace c) =
        behind ++ ' ' :: '[' :: rest := by
      rw [← hbehind]
      exact dropWhile_stop hblank word _
    rw [sscanf, hdrop, sscanf_skip_word (by simp) hstart, hword]
  by_cases hmore : ∃ c ∈ behind, isSpace c = false
  · have hscan : (∀ rest,
        (sscanf (.space :: .conv .lf :: format) (behind ++ ' ' :: rest)).assigned = []) ∨
        ∃ float, ∀ rest, ∃ values,
          (sscanf (.space :: .conv .lf :: format) (behind ++ ' ' :: rest)).assigned =
            .float float :: values := scan_lf_stop hmore
    cases hscan with
    | inl hfail => exact .inl fun rest => by rw [hskip]; exact hfail _
    | inr hread =>
      obtain ⟨float, hread⟩ := hread
      exact .inr ⟨float, fun rest => by rw [hskip]; exact hread _⟩
  · refine .inl fun rest => ?_
    have hall : ∀ c ∈ behind ++ [' '], isSpace c = true := by
      intro c hc
      by_contra hspace
      cases List.mem_append.mp hc with
      | inl h => exact hmore ⟨c, h, by simpa using hspace⟩
      | inr h =>
        rw [List.mem_singleton.mp h] at hspace
        exact hspace (by decide)
    have hbracket : (behind ++ ' ' :: '[' :: rest).dropWhile isSpace = '[' :: rest := by
      have hsplit : behind ++ ' ' :: '[' :: rest = (behind ++ [' ']) ++ '[' :: rest := by simp
      have hopen : isSpace '[' = false := by decide
      rw [hsplit, List.dropWhile_append_of_pos hall]
      simp [hopen]
    have hfail : Spec.lf.read ('[' :: rest) = .matchingFailure := by
      simp [Spec.read, Spec.skipsSpace, Spec.convert, isSpace, takeFloat, takeDigits]
    rw [hskip]
    simp only [sscanf, hbracket, hfail]

end Stop

section Infix

variable {α : Type*} {needle before after text rest : List α} {c : α}

theorem infix_skip (hne : needle ≠ []) (htext : ∀ x ∈ text, x ∉ needle) :
    needle <:+: text ++ rest ↔ needle <:+: rest := by
  induction text with
  | nil => rfl
  | cons x text ih =>
    have hx : ¬ needle <+: x :: (text ++ rest) := by
      intro hbegins
      obtain ⟨y, tail, rfl⟩ := List.exists_cons_of_ne_nil hne
      obtain ⟨rfl, -⟩ := List.cons_prefix_cons.mp hbegins
      exact htext y List.mem_cons_self List.mem_cons_self
    rw [List.cons_append, List.infix_cons_iff, or_iff_right hx]
    exact ih fun y hy => htext y (List.mem_cons_of_mem x hy)

theorem infix_separated (hc : c ∉ needle) :
    needle <:+: before ++ c :: after ↔ needle <:+: before ∨ needle <:+: after := by
  constructor
  · intro h
    rw [List.infix_append_iff_ne_nil] at h
    rcases h with hbefore | hafter | ⟨left, right, -, hright, rfl, -, hbegins⟩
    · exact .inl hbefore
    · rcases List.infix_cons_iff.mp hafter with hbegins | hinside
      · cases needle with
        | nil => exact .inr (List.nil_infix)
        | cons x needle =>
          obtain ⟨rfl, -⟩ := List.cons_prefix_cons.mp hbegins
          exact absurd List.mem_cons_self hc
      · exact .inr hinside
    · obtain ⟨x, right, rfl⟩ := List.exists_cons_of_ne_nil hright
      obtain ⟨rfl, -⟩ := List.cons_prefix_cons.mp hbegins
      exact absurd (by simp) hc
  · intro h
    cases h with
    | inl h => exact h.trans (List.prefix_append _ _).isInfix
    | inr h => exact h.trans ((List.suffix_cons _ _).trans (List.suffix_append _ _)).isInfix

/-- Text with none of a word's letters separates, too. -/
theorem infix_between (hne : needle ≠ []) (hnil : text ≠ []) (htext : ∀ x ∈ text, x ∉ needle) :
    needle <:+: before ++ (text ++ rest) ↔ needle <:+: before ∨ needle <:+: rest := by
  obtain ⟨x, tail, rfl⟩ := List.exists_cons_of_ne_nil hnil
  have htail : ∀ y ∈ tail, y ∉ needle := fun y hy => htext y (List.mem_cons_of_mem x hy)
  rw [List.cons_append, infix_separated (htext x List.mem_cons_self), infix_skip hne htail]

def wordChar (x : Char) : Bool :=
  x.isAlpha || x = '_'

theorem wordChar_of_isDigit {x : Char} (hx : x.isDigit = true) : wordChar x = false := by
  have hnine : x.val ≤ '9'.val := by
    simp only [Char.isDigit, Bool.and_eq_true, decide_eq_true_eq] at hx
    exact hx.2
  have hbelow : ∀ y : Char, ¬ y.val ≤ '9'.val → ¬ y.val ≤ x.val :=
    fun y hy hle => hy (UInt32.le_trans hle hnine)
  have hletter : x ≠ '_' := fun heq => hbelow '_' (by decide) (heq ▸ UInt32.le_refl _)
  have hupper : x.isUpper = false := by
    have hbounds : x.isUpper = decide ('A'.val ≤ x.val ∧ x.val ≤ 'Z'.val) := rfl
    rw [hbounds]
    exact decide_eq_false fun hboth => hbelow 'A' (by decide) hboth.1
  have hlower : x.isLower = false := by
    have hbounds : x.isLower = (decide ('a'.val ≤ x.val) && decide (x.val ≤ 'z'.val)) := rfl
    rw [hbounds, decide_eq_false (hbelow 'a' (by decide)), Bool.false_and]
  have halpha : x.isAlpha = (x.isUpper || x.isLower) := rfl
  simp [wordChar, halpha, hupper, hlower, hletter]

theorem not_infix_of_all {text : List α} {p : α → Bool} (hall : ∀ x ∈ text, p x = true)
    (hc : c ∈ needle) (hp : p c = false) : ¬ needle <:+: text := by
  intro h
  have htrue := hall c (h.subset hc)
  rw [hp] at htrue
  cases htrue

theorem word_between {word before text rest : List Char} (hne : word ≠ [])
    (hword : ∀ x ∈ word, wordChar x = true) (hnil : text ≠ [])
    (htext : ∀ x ∈ text, wordChar x = false) :
    word <:+: before ++ (text ++ rest) ↔ word <:+: before ∨ word <:+: rest := by
  apply infix_between hne hnil
  intro x hx hmem
  have hfalse := htext x hx
  rw [hword x hmem] at hfalse
  cases hfalse

end Infix

end Idlestat.Library.Scan
