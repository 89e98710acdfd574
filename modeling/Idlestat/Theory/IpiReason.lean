import Idlestat.Library.ScanFields
import Idlestat.Theory.Wakeups

/-! The reason of an `ipi_entry` line. `get_wakeup_irq` takes it as a word of at
most 16 characters and cuts the last one, which is meant to be the parenthesis. -/
namespace Idlestat.Theory.IpiReason

open Idlestat.Library Idlestat.Library.Scan Idlestat.Model.Topology Idlestat.Model.Cstates
  Idlestat.Model.Pstates Idlestat.Model.Recorder Idlestat.Model.TraceLine
  Idlestat.Model.Loaders Idlestat.Theory.Wakeups

/-- An `ipi_entry` line but for its CPU: the task before it, flags and time
behind it, the reason, and the end of the line. -/
structure IpiLine where
  before : List Char
  middle : List Char
  reason : List Char
  eol : List Char
  middle_plain : '(' ∉ middle
  reason_ne : reason ≠ []
  reason_plain : '(' ∉ reason ∧ ')' ∉ reason
  eol_end : eol = [] ∨ eol = ['\n']

def IpiLine.text (line : IpiLine) (cpu : Nat) : List Char :=
  line.before ++ '[' :: (zeroPad 3 cpu ++ ']' :: (line.middle ++ ' ' ::
    ("ipi_entry:".toList ++ ' ' :: '(' :: (line.reason ++ ')' :: line.eol))))

/-- The id and name of the entry that has the credit for the last wakeup. -/
def creditedSource (r : CpuidleCstates) : Option (Int × List Char) :=
  (r.wakeirq.bind fun i => r.wakeinfo[i]?).map source

/-- On every CPU the line is read as an `ipi_entry` record, and a wakeup that is
not attributed yet is credited to the start of the reason. -/
def Credits (line : IpiLine) : Prop :=
  ∀ cpu : Nat, cpu ≤ intMax →
    strstr (line.text cpu) "irq_handler_entry" = false ∧
    ∀ datas : CpuidleDatas, (cpu : Int) < datas.nrcpus →
      (datas.cstates (.percpu cpu)).wakeirq = none →
      ∃ datas', getWakeupIrq datas (line.text cpu) = .ok (0, datas') ∧
        creditedSource (datas'.cstates (.percpu cpu)) = some (-1, line.reason.take namelen) ∧
        totalCount (datas'.cstates (.percpu cpu)) =
          totalCount (datas.cstates (.percpu cpu)) + 1

/-- Both lines are credited, and reasons that differ at the start to different
entries. -/
structure CreditedApart (line line' : IpiLine) : Prop where
  first : Credits line
  second : Credits line'
  apart : line.reason.take namelen ≠ line'.reason.take namelen →
    ∀ (cpu : Nat) (datas next datas' next' : CpuidleDatas),
      cpu ≤ intMax → (cpu : Int) < datas.nrcpus → (cpu : Int) < datas'.nrcpus →
      (datas.cstates (.percpu cpu)).wakeirq = none →
      (datas'.cstates (.percpu cpu)).wakeirq = none →
      getWakeupIrq datas (line.text cpu) = .ok (0, next) →
      getWakeupIrq datas' (line'.text cpu) = .ok (0, next') →
      creditedSource (next.cstates (.percpu cpu)) ≠ creditedSource (next'.cstates (.percpu cpu))

/-- The number in the first bracket is the CPU's, the line mentions no other
event, and the reason and its parenthesis are one word of at most 16 characters. -/
structure OneWord (line : IpiLine) : Prop where
  task : line.before ≠ [] ∧ '[' ∉ line.before
  noIrq : ¬ "irq_handler_entry".toList <:+: line.before ∧
    ¬ "irq_handler_entry".toList <:+: line.middle
  short : line.reason.length < namelen
  noSpace : ∀ c ∈ line.reason, isSpace c = false

instance (line : IpiLine) : Decidable (OneWord line) :=
  decidable_of_iff ((line.before ≠ [] ∧ '[' ∉ line.before) ∧
      (¬ "irq_handler_entry".toList <:+: line.before ∧
        ¬ "irq_handler_entry".toList <:+: line.middle) ∧
      line.reason.length < namelen ∧ line.reason.all (fun c => !isSpace c)) <| by
    constructor
    · intro h
      exact ⟨h.1, h.2.1, h.2.2.1, by simpa using h.2.2.2⟩
    · intro h
      exact ⟨h.task, h.noIrq, h.short, by simpa using h.noSpace⟩

section Words

variable {line : IpiLine} {cpu : Nat} {needle : String}

theorem strstr_text
    (hseparators : ∀ c ∈ needle.toList, c ≠ '[' ∧ c ≠ ']' ∧ c ≠ ' ' ∧ c ≠ '(' ∧ c ≠ ')')
    (hletter : ∃ c ∈ needle.toList, c.isDigit = false) :
    strstr (line.text cpu) needle = true ↔
      needle.toList <:+: line.before ∨ needle.toList <:+: line.middle ∨
        needle.toList <:+: "ipi_entry:".toList ∨ needle.toList <:+: line.reason ∨
        needle.toList <:+: line.eol := by
  have hnot : ∀ stop : Char, (∀ c ∈ needle.toList, c ≠ stop) → stop ∉ needle.toList :=
    fun stop hother hmem => hother stop hmem rfl
  have hopen := hnot '[' fun c hc => (hseparators c hc).1
  have hclose := hnot ']' fun c hc => (hseparators c hc).2.1
  have hblank := hnot ' ' fun c hc => (hseparators c hc).2.2.1
  have hleft := hnot '(' fun c hc => (hseparators c hc).2.2.2.1
  have hright := hnot ')' fun c hc => (hseparators c hc).2.2.2.2
  obtain ⟨letter, hletter, hdigit⟩ := hletter
  have hcpu : ¬ needle.toList <:+: zeroPad 3 cpu :=
    not_infix_of_all (fun c hc => isDigit_of_mem_zeroPad hc) hletter hdigit
  have hnil : ¬ needle.toList <:+: [] := by
    intro h
    rw [List.infix_nil.mp h] at hletter
    cases hletter
  have hparen : needle.toList <:+: '(' :: (line.reason ++ ')' :: line.eol) ↔
      needle.toList <:+: line.reason ∨ needle.toList <:+: line.eol := by
    have hsplit : needle.toList <:+: [] ++ '(' :: (line.reason ++ ')' :: line.eol) ↔ _ :=
      infix_separated hleft
    rw [List.nil_append] at hsplit
    rw [hsplit, infix_separated hright, or_iff_right hnil]
  rw [strstr_iff, IpiLine.text, infix_separated hopen, infix_separated hclose,
    infix_separated hblank, infix_separated hblank, hparen, or_iff_right hcpu]

theorem strstr_ipi : strstr (line.text cpu) "ipi_entry" = true := by
  rw [strstr_text (by decide) ⟨'i', by decide, by decide⟩]
  exact .inr (.inr (.inl (by decide)))

theorem strstr_irq : strstr (line.text cpu) "irq_handler_entry" = true ↔
    "irq_handler_entry".toList <:+: line.before ∨ "irq_handler_entry".toList <:+: line.middle ∨
      "irq_handler_entry".toList <:+: line.reason := by
  have hname : ¬ "irq_handler_entry".toList <:+: "ipi_entry:".toList := by decide
  have heol : ¬ "irq_handler_entry".toList <:+: line.eol := by
    intro h
    have hlength := h.length_le
    cases line.eol_end with
    | inl heq =>
      rw [heq] at hlength
      exact absurd hlength (by decide)
    | inr heq =>
      rw [heq] at hlength
      exact absurd hlength (by decide)
  rw [strstr_text (by decide) ⟨'i', by decide, by decide⟩]
  simp only [hname, heol, false_or, or_false]

end Words

section Scan

variable {line : IpiLine} {cpu : Nat}

theorem cpu_noDigit (rest : List Char) : NoDigit (']' :: rest) := by
  intro c hc
  obtain rfl := Option.some.inj hc
  decide

theorem scan_reason (htask : line.before ≠ [] ∧ '[' ∉ line.before) (hcpu : cpu ≤ intMax) :
    (sscanf traceIpiirqFormat (line.text cpu)).assigned =
      .int cpu ::
        (sscanf [.conv (.s (some 16))] (line.reason ++ ')' :: line.eol)).assigned := by
  have hbetween : line.middle ++ ' ' ::
      ("ipi_entry:".toList ++ ' ' :: '(' :: (line.reason ++ ')' :: line.eol)) =
      (line.middle ++ " ipi_entry: ".toList) ++ '(' :: (line.reason ++ ')' :: line.eol) := by
    simp
  have hword : ∃ c ∈ line.middle ++ " ipi_entry: ".toList, isSpace c = false :=
    ⟨':', by simp, by decide⟩
  have hplain : '(' ∉ line.middle ++ " ipi_entry: ".toList := by simp [line.middle_plain]
  rw [traceIpiirqFormat, IpiLine.text, sscanf_skipTo htask.1 htask.2,
    sscanf_conv (read_d_zeroPad hcpu (cpu_noDigit _)), sscanf_lit, hbetween,
    sscanf_space_skipTo (by decide) hword hplain]

theorem scan_oneWord (hshort : line.reason.length < namelen)
    (hspace : ∀ c ∈ line.reason, isSpace c = false) :
    (sscanf [.conv (.s (some 16))] (line.reason ++ ')' :: line.eol)).assigned =
      [.str (line.reason ++ [')'])] := by
  have hlength : (line.reason ++ [')']).length ≤ 16 := by
    unfold namelen at hshort
    simp only [List.length_append, List.length_singleton]
    omega
  have hword : ∀ c ∈ (line.reason ++ [')']).take 16, isSpace c = false := by
    intro c hc
    cases List.mem_append.mp (List.mem_of_mem_take hc) with
    | inl h => exact hspace c h
    | inr h =>
      rw [List.mem_singleton.mp h]
      decide
  have hend : ∀ c ∈ line.eol.head?, isSpace c = true := by
    intro c hc
    cases line.eol_end with
    | inl heq =>
      rw [heq] at hc
      cases hc
    | inr heq =>
      rw [heq] at hc
      obtain rfl := Option.some.inj hc
      decide
  obtain ⟨rest, hread⟩ := read_word (by simp) (by decide) hword (.inr hend)
  rw [List.take_of_length_le hlength, List.append_assoc, List.singleton_append] at hread
  simp only [sscanf, hread]

end Scan

section Credit

variable {line line' : IpiLine} {r : CpuidleCstates} {irqid : Int} {irqname : List Char}

theorem attributeIrq_source (hnull : r.wakeirq = none) (hname : irqname.length ≤ namelen) :
    creditedSource (attributeIrq r irqid irqname) = some (irqid, irqname) := by
  cases hfind : findIrqinfo r.wakeinfo irqid irqname with
  | some i =>
    obtain ⟨hi, hfound, -⟩ := List.findIdx?_eq_some_iff_getElem.mp hfind
    have hsource : r.wakeinfo[i].id = irqid ∧ r.wakeinfo[i].name = irqname := by
      simpa using hfound
    simp [attributeIrq, hnull, hfind, creditedSource, List.getElem?_modify, hi, source,
      WakeupIrq.trigger, hsource]
  | none =>
    simp [attributeIrq, hnull, hfind, creditedSource, List.getElem?_modify, source,
      WakeupIrq.trigger, newIrqinfo, List.take_of_length_le hname]

def blankDatas (nrcpus : Int) : CpuidleDatas :=
  { nrcpus := nrcpus
    cstates := fun _ => emptyCstates
    pstates := fun _ => buildPstateInfo
    topo := allocCpuTopoInfo }

theorem credits_of_oneWord (h : OneWord line) : Credits line := by
  intro cpu hcpu
  have hirq : strstr (line.text cpu) "irq_handler_entry" = false := by
    rw [← Bool.not_eq_true, strstr_irq]
    intro hmention
    rcases hmention with hbefore | hmiddle | hreason
    · exact h.noIrq.1 hbefore
    · exact h.noIrq.2 hmiddle
    · have hlength := hreason.length_le
      have hshort := h.short
      have hseventeen : "irq_handler_entry".toList.length = 17 := by decide
      unfold namelen at hshort
      omega
  refine ⟨hirq, ?_⟩
  intro datas hrange hnull
  have hscan : (sscanf traceIpiirqFormat (line.text cpu)).assigned =
      [.int cpu, .str (line.reason ++ [')'])] := by
    rw [scan_reason h.task hcpu, scan_oneWord h.short h.noSpace]
  have hpercpu : datas.percpu cpu = .ok (.percpu cpu) := if_pos ⟨by omega, hrange⟩
  have hname : line.reason.length ≤ namelen := h.short.le
  refine ⟨datas.setCstates (.percpu cpu)
    (attributeIrq (datas.cstates (.percpu cpu)) (-1) line.reason), ?_, ?_, ?_⟩
  · simp only [getWakeupIrq, hirq, Bool.false_eq_true, if_false, strstr_ipi, if_true, hscan,
      List.dropLast_concat, storeIrq, hpercpu, bind, Except.bind]
  · rw [List.take_of_length_le hname]
    simpa [CpuidleDatas.setCstates] using attributeIrq_source hnull hname
  · obtain ⟨entries, i, hcredited⟩ := attributeIrq_credited hnull (-1) line.reason
    simpa [CpuidleDatas.setCstates] using hcredited.totalCount

/-- What a credit on a blank machine says about the scan. -/
theorem scan_of_credits {cpu : Nat} (h : Credits line) (hcpu : cpu ≤ intMax) :
    ∃ word, (sscanf traceIpiirqFormat (line.text cpu)).assigned = [.int cpu, .str word] ∧
      (word.length ≤ 16 → line.reason.take namelen = word.dropLast) := by
  obtain ⟨hirq, hcredit⟩ := h cpu hcpu
  obtain ⟨datas', hget, hsource, -⟩ := hcredit (blankDatas (cpu + 1)) (by simp [blankDatas]) rfl
  simp only [getWakeupIrq, hirq, Bool.false_eq_true, if_false, strstr_ipi, if_true] at hget
  split at hget
  · next c word hscan =>
    obtain ⟨next, hstore, hret⟩ := Runs.bind_eq_ok hget
    obtain ⟨-, rfl⟩ := Prod.mk.inj (Except.ok.inj hret)
    obtain ⟨ref, hpercpu, hnext⟩ := Runs.bind_eq_ok hstore
    have href : ref = .percpu c := by
      unfold CpuidleDatas.percpu at hpercpu
      split at hpercpu
      · exact (Except.ok.inj hpercpu).symm
      · cases hpercpu
    subst href
    obtain rfl := Except.ok.inj hnext
    have hsame : c = cpu := by
      by_contra hne
      have hother : RecordRef.percpu (cpu : Int) ≠ .percpu c := fun heq =>
        hne (RecordRef.percpu.inj heq).symm
      simp [CpuidleDatas.setCstates, hother, blankDatas, creditedSource, emptyCstates] at hsource
    subst hsame
    refine ⟨word, hscan, ?_⟩
    intro hlength
    have hshort : word.dropLast.length ≤ namelen := by
      unfold namelen
      simp only [List.length_dropLast]
      omega
    have hown : creditedSource (attributeIrq emptyCstates (-1) word.dropLast) =
        some (-1, word.dropLast) := attributeIrq_source rfl hshort
    simp only [CpuidleDatas.setCstates, Function.update_self, blankDatas, hown, Option.some.injEq,
      Prod.mk.injEq] at hsource
    exact hsource.2.symm
  · exact absurd (Prod.mk.inj (Except.ok.inj hget)).1 (by decide)

theorem oneWord_of_credits (h : Credits line) : OneWord line := by
  have htask : line.before ≠ [] ∧ '[' ∉ line.before := by
    by_contra hearly
    have hscan : ∀ cpu : Nat, cpu ≤ intMax → ∃ word,
        (sscanf traceIpiirqFormat (line.text cpu)).assigned = [.int cpu, .str word] :=
      fun cpu hcpu => (scan_of_credits h hcpu).imp fun _ hword => hword.1
    obtain ⟨word, hzero⟩ := hscan 0 (by decide)
    obtain ⟨word', hone⟩ := hscan 1 (by decide)
    -- the CPU that is read does not depend on the one in the line
    have hearly : (∀ cpu, (sscanf traceIpiirqFormat (line.text cpu)).assigned = []) ∨
        ∃ value, ∀ cpu, ∃ values,
          (sscanf traceIpiirqFormat (line.text cpu)).assigned = .int value :: values :=
      (scan_early_stop (by decide) (by decide) (by decide) (by decide) hearly).imp
        (fun hnone _ => hnone _) fun hsome => hsome.imp fun _ hvalue _ => hvalue _
    have hsame := first_eq_of_alike hearly hzero hone
    exact absurd (Scanned.int.inj hsame) (by decide)
  obtain ⟨word, hscan, htaken⟩ := scan_of_credits h (Nat.zero_le intMax)
  rw [scan_reason htask (Nat.zero_le intMax)] at hscan
  obtain ⟨hlength, hspace⟩ := scan_word_bounds (List.cons.inj hscan).2
  have htaken := htaken hlength
  have hshort : line.reason.length < namelen := by
    have hcut := congrArg List.length htaken
    simp only [List.length_take, List.length_dropLast] at hcut
    unfold namelen at hcut ⊢
    omega
  rw [List.take_of_length_le hshort.le] at htaken
  have hirq := (h 0 (Nat.zero_le intMax)).1
  rw [← Bool.not_eq_true, strstr_irq] at hirq
  exact
    { task := htask
      noIrq := ⟨fun hbefore => hirq (.inl hbefore), fun hmiddle => hirq (.inr (.inl hmiddle))⟩
      short := hshort
      noSpace := fun c hc => hspace c (List.mem_of_mem_dropLast (htaken ▸ hc)) }

theorem credits_iff : Credits line ↔ OneWord line :=
  ⟨oneWord_of_credits, credits_of_oneWord⟩

end Credit

/-- The lines of one CPU are credited to their reasons, and kept apart, exactly
when each reason is one word that fits with its parenthesis. -/
theorem ipi_reason (line line' : IpiLine) :
    CreditedApart line line' ↔ OneWord line ∧ OneWord line' := by
  constructor
  · intro h
    exact ⟨credits_iff.mp h.first, credits_iff.mp h.second⟩
  · intro h
    have hfirst := credits_iff.mpr h.1
    have hsecond := credits_iff.mpr h.2
    refine ⟨hfirst, hsecond, ?_⟩
    intro hdiffer cpu datas next datas' next' hcpu hrange hrange' hnull hnull' hget hget'
    obtain ⟨own, hown, hsource, -⟩ := (hfirst cpu hcpu).2 datas hrange hnull
    obtain ⟨own', hown', hsource', -⟩ := (hsecond cpu hcpu).2 datas' hrange' hnull'
    obtain rfl := (Prod.mk.inj (Except.ok.inj (hget.symm.trans hown))).2
    obtain rfl := (Prod.mk.inj (Except.ok.inj (hget'.symm.trans hown'))).2
    rw [hsource, hsource']
    intro heq
    exact hdiffer (Prod.mk.inj (Option.some.inj heq)).2

def idleTaskLine (reason : String) (hne : reason.toList ≠ [])
    (hplain : '(' ∉ reason.toList ∧ ')' ∉ reason.toList) : IpiLine :=
  { before := "          <idle>-0     ".toList
    middle := " d.h.  1000.000001:".toList
    reason := reason.toList
    eol := ['\n']
    middle_plain := by decide
    reason_ne := hne
    reason_plain := hplain
    eol_end := .inr rfl }

def functionCall : IpiLine :=
  idleTaskLine "Function call interrupts" (by decide) (by decide)

def functionTest : IpiLine :=
  idleTaskLine "Function test" (by decide) (by decide)

/-- Two reasons with one first word are credited to one entry, under a name that
is neither. -/
theorem ipi_reason_function :
    (∀ line ∈ [functionCall, functionTest],
      (getWakeupIrq (blankDatas 1) (line.text 0)).toOption.bind
          (fun out => creditedSource (out.2.cstates (.percpu 0))) =
        some (-1, "Functio".toList)) ∧
      functionCall.reason.take namelen ≠ functionTest.reason.take namelen ∧
      ¬ CreditedApart functionCall functionTest := by
  refine ⟨by decide +kernel, by decide, ?_⟩
  intro h
  exact absurd (oneWord_of_credits h.first).noSpace (by decide)

end Idlestat.Theory.IpiReason
