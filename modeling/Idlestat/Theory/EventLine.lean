import Idlestat.Library.ScanFields
import Idlestat.Model.TraceFiles
import Idlestat.Theory.TraceLineSafety

/-! Event lines and the task that is named in them. The formats find a field
behind the first `]`, `[` or `=` of the line, and the event by its name anywhere
in it, so that both can come from the task. -/
namespace Idlestat.Theory.EventLine

open Idlestat.Library.Scan Idlestat.Model.TopologyFile Idlestat.Model.Cstates
  Idlestat.Model.Recorder Idlestat.Model.TraceLine Idlestat.Theory.TraceLineSafety

/-! ## Lines -/

/-- The task of a line; `trace-cmd report` prints no flags. -/
structure Task where
  comm : List Char
  pid : Nat
  flags : Option (List Char)
  flags_token : ∀ token ∈ flags, token ≠ [] ∧ ∀ c ∈ token, isSpace c = false

/-- The CPU that a line is about, its time, and the interrupt, if it is one. -/
structure Numbers where
  cpu : Nat
  sec : Nat
  usec : Nat
  irqid : Int
  cpu_int : cpu ≤ intMax
  usec_digits : usec < 10 ^ 6
  irqid_int : IsInt irqid

inductive Record
  | cpuIdle (state : UInt32) (cpuId : Nat)
  | cpuFrequency (state : UInt32) (cpuId : Nat)
  | irqHandlerEntry (name : List Char)

def Task.format (task : Task) : List Directive :=
  match task.flags with
  | none => traceCmdReportFormat
  | some _ => traceFormat

def Task.flagsText (task : Task) : List Char :=
  match task.flags with
  | none => []
  | some token => token ++ [' ']

def Numbers.time (numbers : Numbers) : List Char :=
  Nat.toDigits 10 numbers.sec ++ '.' :: zeroPad 6 numbers.usec

def powerFields (state : UInt32) (cpuId : Nat) : List Char :=
  "state=".toList ++ (Nat.toDigits 10 state.toNat ++
    (" cpu_id=".toList ++ Nat.toDigits 10 cpuId))

def irqFields (irqid : Int) (name : List Char) : List Char :=
  "irq=".toList ++ (printInt irqid ++ (" name=".toList ++ name))

def Record.event : Record → String
  | .cpuIdle _ _ => "cpu_idle"
  | .cpuFrequency _ _ => "cpu_frequency"
  | .irqHandlerEntry _ => "irq_handler_entry"

def Record.fields (numbers : Numbers) : Record → List Char
  | .cpuIdle state cpuId => powerFields state cpuId
  | .cpuFrequency state cpuId => powerFields state cpuId
  | .irqHandlerEntry name => irqFields numbers.irqid name

/-- `comm-pid [cpu] flags sec.usec: event: fields` -/
def lineText (task : Task) (record : Record) (numbers : Numbers) (eol : List Char) : List Char :=
  task.comm ++ '-' :: (Nat.toDigits 10 task.pid ++ ' ' :: '[' :: (zeroPad 3 numbers.cpu ++
    ']' :: ' ' :: (task.flagsText ++ (numbers.time ++ ':' :: ' ' :: (record.event.toList ++
      ':' :: ' ' :: (record.fields numbers ++ eol))))))

def Record.call (strtod : List Char → ℚ) (numbers : Numbers) : Record → LineEvent
  | .cpuIdle state cpuId => .idle (strtod numbers.time) state.toNat cpuId
  | .cpuFrequency state cpuId => .frequency (strtod numbers.time) state.toNat cpuId
  | .irqHandlerEntry name => .wakeup numbers.cpu numbers.irqid (name.take namelen)

/-- Whatever numbers are in it, a line that fits the buffer makes its call. -/
def Dispatched (task : Task) (record : Record) : Prop :=
  ∀ (numbers : Numbers) (eol : List Char), eol = [] ∨ eol = ['\n'] →
    (lineText task record numbers eol).length < bufsize →
    ∀ strtod : List Char → ℚ,
      lineEvent strtod task.format (lineText task record numbers eol) =
        some (record.call strtod numbers) ∧
      ∀ (datas : CpuidleDatas) (span : LogSpan),
        loadTextDataLine strtod (lineText task record numbers eol) datas task.format span =
          (TraceLineSafety.record datas (record.call strtod numbers)).map fun datas' =>
            ⟨0, datas', (record.call strtod numbers).extend span⟩

def Task.Mentions (task : Task) (word : String) : Prop :=
  word.toList <:+: task.comm ∨ word.toList <:+: task.flagsText

/-- The task and the flags are no obstacle to the record. -/
def Readable (task : Task) : Record → Prop
  | .cpuIdle _ cpuId => ']' ∉ task.comm ∧ cpuId ≤ intMax
  | .cpuFrequency _ cpuId => ']' ∉ task.comm ∧ cpuId ≤ intMax ∧ ¬ task.Mentions "cpu_idle"
  | .irqHandlerEntry name =>
    '[' ∉ task.comm ∧ '=' ∉ task.flagsText ∧
      (∀ word ∈ ["cpu_idle", "cpu_frequency"],
        ¬ task.Mentions word ∧ ¬ word.toList <:+: name) ∧
      name ≠ [] ∧ ∀ c ∈ name.take namelen, isSpace c = false

section Words

variable {task : Task} {record : Record} {numbers : Numbers} {eol : List Char} {word : String}

theorem wordChar_digits {n : Nat} : ∀ c ∈ Nat.toDigits 10 n, wordChar c = false :=
  fun _ hc => wordChar_of_isDigit (isDigit_of_mem_toDigits hc)

theorem wordChar_zeroPad {width n : Nat} : ∀ c ∈ zeroPad width n, wordChar c = false :=
  fun _ hc => wordChar_of_isDigit (isDigit_of_mem_zeroPad hc)

theorem wordChar_printInt {i : Int} : ∀ c ∈ printInt i, wordChar c = false := by
  unfold printInt
  split
  · simp only [List.forall_mem_cons]
    exact ⟨by decide, wordChar_digits⟩
  · exact wordChar_digits

theorem wordChar_time : ∀ c ∈ numbers.time, wordChar c = false := by
  simp only [Numbers.time, List.forall_mem_append, List.forall_mem_cons]
  exact ⟨wordChar_digits, by decide, wordChar_zeroPad⟩

theorem strstr_line (hne : word.toList ≠ []) (hword : ∀ c ∈ word.toList, wordChar c = true) :
    strstr (lineText task record numbers eol) word = true ↔
      task.Mentions word ∨ word.toList <:+: record.event.toList ∨
        word.toList <:+: record.fields numbers ++ eol := by
  let head := '-' :: (Nat.toDigits 10 task.pid ++ ' ' :: '[' :: (zeroPad 3 numbers.cpu ++
    [']', ' ']))
  have hhead : ∀ c ∈ head, wordChar c = false := by
    simp only [head, List.forall_mem_append, List.forall_mem_cons]
    exact ⟨by decide, wordChar_digits, by decide, by decide, wordChar_zeroPad, by decide⟩
  have htime : ∀ c ∈ numbers.time ++ [':', ' '], wordChar c = false := by
    simp only [List.forall_mem_append]
    exact ⟨wordChar_time, by decide⟩
  have hcolon : ∀ c ∈ [':', ' '], wordChar c = false := by decide
  have hsplit : lineText task record numbers eol =
      task.comm ++ (head ++ (task.flagsText ++ ((numbers.time ++ [':', ' ']) ++
        (record.event.toList ++ ([':', ' '] ++ (record.fields numbers ++ eol)))))) := by
    simp [lineText, head]
  rw [strstr_iff, hsplit, word_between hne hword (by simp [head]) hhead,
    word_between hne hword (by simp) htime, word_between hne hword (by simp) hcolon,
    Task.Mentions, or_assoc]

theorem infix_eol (heol : eol = [] ∨ eol = ['\n']) (hne : word.toList ≠ [])
    (hword : ∀ c ∈ word.toList, wordChar c = true) {text : List Char} :
    word.toList <:+: text ++ eol ↔ word.toList <:+: text := by
  have hnil : ¬ word.toList <:+: [] := fun h => hne (List.infix_nil.mp h)
  cases heol with
  | inl heq => rw [heq, List.append_nil]
  | inr heq =>
    have hend : word.toList <:+: text ++ (['\n'] ++ []) ↔ _ :=
      word_between hne hword (by simp) (by decide)
    rw [heq, ← List.append_nil ['\n'], hend, or_iff_left hnil]

theorem powerFields_plain (heol : eol = [] ∨ eol = ['\n']) {state : UInt32} {cpuId : Nat}
    (hne : word.toList ≠ []) (hword : ∀ c ∈ word.toList, wordChar c = true) :
    word.toList <:+: powerFields state cpuId ++ eol ↔
      word.toList <:+: "state".toList ∨ word.toList <:+: "cpu_id".toList := by
  have hnil : ¬ word.toList <:+: [] := fun h => hne (List.infix_nil.mp h)
  have hstate : ∀ c ∈ '=' :: (Nat.toDigits 10 state.toNat ++ [' ']), wordChar c = false := by
    simp only [List.forall_mem_append, List.forall_mem_cons]
    exact ⟨by decide, wordChar_digits, by decide⟩
  have hcpu : ∀ c ∈ '=' :: Nat.toDigits 10 cpuId, wordChar c = false := by
    simp only [List.forall_mem_cons]
    exact ⟨by decide, wordChar_digits⟩
  have hsplit : powerFields state cpuId = "state".toList ++
      ('=' :: (Nat.toDigits 10 state.toNat ++ [' ']) ++ ("cpu_id".toList ++
        ('=' :: Nat.toDigits 10 cpuId ++ []))) := by
    unfold powerFields
    simp
  rw [infix_eol heol hne hword, hsplit, word_between hne hword (by simp) hstate,
    word_between hne hword (by simp) hcpu, or_iff_left hnil]

theorem irqFields_plain (heol : eol = [] ∨ eol = ['\n']) {irqid : Int} {name : List Char}
    (hne : word.toList ≠ []) (hword : ∀ c ∈ word.toList, wordChar c = true) :
    word.toList <:+: irqFields irqid name ++ eol ↔
      word.toList <:+: "irq".toList ∨ word.toList <:+: "name".toList ∨ word.toList <:+: name := by
  have hirqid : ∀ c ∈ '=' :: (printInt irqid ++ [' ']), wordChar c = false := by
    simp only [List.forall_mem_append, List.forall_mem_cons]
    exact ⟨by decide, wordChar_printInt, by decide⟩
  have hequals : ∀ c ∈ ['='], wordChar c = false := by decide
  have hsplit : irqFields irqid name ++ eol = "irq".toList ++
      ('=' :: (printInt irqid ++ [' ']) ++ ("name".toList ++ (['='] ++ (name ++ eol)))) := by
    unfold irqFields
    simp
  rw [hsplit, word_between hne hword (by simp) hirqid, word_between hne hword (by simp) hequals,
    infix_eol heol hne hword]

end Words

section Scan

variable {task : Task} {record : Record} {numbers : Numbers} {eol rest : List Char}
  {format : List Directive}

def fieldsFormat : List Directive :=
  [.skip (.noneOf ['=']), .lit '=', .conv .u, .skip (.noneOf ['=']), .lit '=', .conv .d]

theorem scan_fields {text : List Char} (htext : '=' ∉ text) {state : UInt32} {cpuId : Nat}
    (hcpu : cpuId ≤ intMax) (heol : eol = [] ∨ eol = ['\n']) :
    sscanf fieldsFormat (text ++ (powerFields state cpuId ++ eol)) =
      ⟨[.uint state.toNat, .int cpuId], false⟩ := by
  have hsplit : text ++ (powerFields state cpuId ++ eol) = (text ++ "state".toList) ++ '=' ::
      (Nat.toDigits 10 state.toNat ++ (" cpu_id".toList ++ '=' :: (Nat.toDigits 10 cpuId ++
        eol))) := by
    unfold powerFields
    simp
  have hstate : '=' ∉ text ++ "state".toList := by simp [htext]
  have hlt : state.toNat < 2 ^ 32 := state.toNat_lt
  have hblank : NoDigit (" cpu_id".toList ++ '=' :: (Nat.toDigits 10 cpuId ++ eol)) := by
    intro c hc
    obtain rfl := Option.some.inj hc
    decide
  have hend : NoDigit eol := by
    cases heol with
    | inl heq =>
      rw [heq]
      decide
    | inr heq =>
      rw [heq]
      decide
  rw [hsplit, fieldsFormat, sscanf_skipTo (by simp) hstate]
  rw [sscanf_conv (read_u hlt hblank), sscanf_skipTo (by simp) (by simp), sscanf_d hcpu hend]
  rfl

theorem not_mem_digits {stop : Char} (hstop : stop.isDigit = false) {n : Nat} :
    stop ∉ Nat.toDigits 10 n := by
  intro hmem
  rw [isDigit_of_mem_toDigits hmem] at hstop
  cases hstop

theorem not_mem_zeroPad {stop : Char} (hstop : stop.isDigit = false) {width n : Nat} :
    stop ∉ zeroPad width n := by
  intro hmem
  rw [isDigit_of_mem_zeroPad hmem] at hstop
  cases hstop

theorem time_ne_nil : numbers.time ≠ [] := by
  simp [Numbers.time, Nat.toDigits_ne_nil]

theorem isSpace_time : ∀ c ∈ numbers.time.head?, isSpace c = false := by
  intro c hc
  obtain ⟨x, digits, heq, hx⟩ := toDigits_cons numbers.sec
  rw [Numbers.time, heq] at hc
  obtain rfl := Option.some.inj hc
  exact isSpace_of_isDigit hx

theorem scan_time : sscanf (.space :: .conv .lf :: .lit ':' :: format)
    (' ' :: (numbers.time ++ ':' :: rest)) =
      ⟨.float numbers.time :: (sscanf format rest).assigned, (sscanf format rest).eof⟩ := by
  have hread : Spec.lf.read (numbers.time ++ ':' :: rest) =
      .matched (.float numbers.time) (':' :: rest) := by
    rw [Numbers.time, List.append_assoc, List.cons_append]
    exact read_lf Nat.toDigits_ne_nil (fun _ hc => isDigit_of_mem_toDigits hc)
      (fun _ hc => isDigit_of_mem_zeroPad hc)
  rw [sscanf_space_cons (by decide), sscanf_space time_ne_nil isSpace_time, sscanf_conv hread,
    sscanf_lit]

theorem scan_task (hcomm : ']' ∉ task.comm) :
    sscanf task.format (task.comm ++ '-' :: (Nat.toDigits 10 task.pid ++ ' ' :: '[' ::
      (zeroPad 3 numbers.cpu ++ ']' :: ' ' :: (task.flagsText ++ rest)))) =
      sscanf (.space :: .conv .lf :: .lit ':' :: fieldsFormat)
        (' ' :: rest) := by
  have hsplit : task.comm ++ '-' :: (Nat.toDigits 10 task.pid ++ ' ' :: '[' ::
      (zeroPad 3 numbers.cpu ++ ']' :: ' ' :: (task.flagsText ++ rest))) =
      (task.comm ++ '-' :: (Nat.toDigits 10 task.pid ++ ' ' :: '[' :: zeroPad 3 numbers.cpu)) ++
        ']' :: ' ' :: (task.flagsText ++ rest) := by
    simp
  have hhead : ']' ∉ task.comm ++ '-' :: (Nat.toDigits 10 task.pid ++ ' ' :: '[' ::
      zeroPad 3 numbers.cpu) := by
    simp [hcomm, not_mem_digits, not_mem_zeroPad]
  have hsome : task.comm ++ '-' :: (Nat.toDigits 10 task.pid ++ ' ' :: '[' ::
      zeroPad 3 numbers.cpu) ≠ [] := by simp
  rw [hsplit]
  generalize task.comm ++ '-' :: (Nat.toDigits 10 task.pid ++ ' ' :: '[' ::
    zeroPad 3 numbers.cpu) = head at hhead hsome
  cases hflags : task.flags with
  | none =>
    simp only [Task.format, Task.flagsText, hflags, List.nil_append]
    exact sscanf_skipTo hsome hhead
  | some token =>
    obtain ⟨hne, htoken⟩ := task.flags_token token hflags
    have hstart : ∀ c ∈ token.head?, isSpace c = false := fun c hc =>
      htoken c (List.mem_of_mem_head? hc)
    have hword : ∀ c ∈ (token ++ ' ' :: rest).head?, isSpace c = false := by
      obtain ⟨x, tail, rfl⟩ := List.exists_cons_of_ne_nil hne
      exact hstart
    have hdrop : (token ++ ' ' :: rest).dropWhile (fun c => !isSpace c) = ' ' :: rest := by
      have hblank : isSpace ' ' = true := by decide
      rw [List.dropWhile_append_of_pos fun c hc => by simp [htoken c hc]]
      simp [hblank]
    simp only [Task.format, Task.flagsText, hflags, List.append_assoc, List.singleton_append]
    rw [traceFormat, sscanf_skipTo hsome hhead, sscanf_space_cons (by decide),
      sscanf_space hne hstart, sscanf_skip_word (by simp) hword, hdrop]
    rfl

def Record.Power (state : UInt32) (cpuId : Nat) (record : Record) : Prop :=
  record = .cpuIdle state cpuId ∨ record = .cpuFrequency state cpuId

theorem scan_power {state : UInt32} {cpuId : Nat} (hpower : record.Power state cpuId)
    (hcomm : ']' ∉ task.comm) (hcpu : cpuId ≤ intMax) (heol : eol = [] ∨ eol = ['\n']) :
    (sscanf task.format (lineText task record numbers eol)).assigned =
      [.float numbers.time, .uint state.toNat, .int cpuId] := by
  have hevent : '=' ∉ ' ' :: (record.event.toList ++ [':', ' ']) := by
    cases hpower with
    | inl heq => simp [heq, Record.event]
    | inr heq => simp [heq, Record.event]
  have hfields : record.fields numbers = powerFields state cpuId := by
    cases hpower with
    | inl heq => rw [heq, Record.fields]
    | inr heq => rw [heq, Record.fields]
  have hsplit : ' ' :: (record.event.toList ++ ':' :: ' ' :: (record.fields numbers ++ eol)) =
      ' ' :: (record.event.toList ++ [':', ' ']) ++ (powerFields state cpuId ++ eol) := by
    simp [hfields]
  rw [lineText, scan_task hcomm, scan_time, hsplit, scan_fields hevent hcpu heol]

def beforeIrqid (task : Task) (numbers : Numbers) : List Char :=
  ' ' :: (task.flagsText ++ (numbers.time ++ ':' :: ' ' ::
    ("irq_handler_entry".toList ++ ':' :: ' ' :: "irq".toList)))

def afterIrqid (name eol : List Char) : List Char :=
  " name".toList ++ '=' :: (name ++ eol)

theorem lineText_irq {name : List Char} : lineText task (.irqHandlerEntry name) numbers eol =
    (task.comm ++ '-' :: (Nat.toDigits 10 task.pid ++ [' '])) ++ '[' ::
      (zeroPad 3 numbers.cpu ++ ']' :: (beforeIrqid task numbers ++ '=' ::
        (printInt numbers.irqid ++ afterIrqid name eol))) := by
  simp only [lineText, Record.event, Record.fields]
  unfold beforeIrqid afterIrqid irqFields
  simp

theorem scan_irq_cpu {name : List Char} (hcomm : '[' ∉ task.comm) :
    (sscanf traceIrqFormat (lineText task (.irqHandlerEntry name) numbers eol)).assigned =
      .int numbers.cpu :: (sscanf [.space, .skip (.noneOf ['=']), .lit '=', .conv .d,
        .skip (.noneOf ['=']), .lit '=', .conv (.s (some 16))]
        (beforeIrqid task numbers ++ '=' ::
          (printInt numbers.irqid ++ afterIrqid name eol))).assigned := by
  have hopen : '[' ∉ task.comm ++ '-' :: (Nat.toDigits 10 task.pid ++ [' ']) := by
    simp [hcomm, not_mem_digits]
  have hclose : NoDigit (']' :: (beforeIrqid task numbers ++ '=' ::
      (printInt numbers.irqid ++ afterIrqid name eol))) := by
    intro c hc
    obtain rfl := Option.some.inj hc
    decide
  rw [lineText_irq, traceIrqFormat, sscanf_skipTo (by simp) hopen,
    sscanf_conv (read_d_zeroPad numbers.cpu_int hclose), sscanf_lit]

theorem scan_irq {name : List Char} (hcomm : '[' ∉ task.comm) (hflags : '=' ∉ task.flagsText) :
    (sscanf traceIrqFormat (lineText task (.irqHandlerEntry name) numbers eol)).assigned =
      .int numbers.cpu :: .int numbers.irqid ::
        (sscanf [.conv (.s (some 16))] (name ++ eol)).assigned := by
  have hbefore : '=' ∉ beforeIrqid task numbers := by
    simp [beforeIrqid, hflags, Numbers.time, not_mem_digits, not_mem_zeroPad]
  have hword : ∃ c ∈ beforeIrqid task numbers, isSpace c = false :=
    ⟨':', by simp [beforeIrqid], by decide⟩
  have hblank : NoDigit (afterIrqid name eol) := by
    intro c hc
    obtain rfl := Option.some.inj hc
    decide
  rw [scan_irq_cpu hcomm, sscanf_space_skipTo (by decide) hword hbefore,
    sscanf_conv (read_d_int numbers.irqid_int hblank)]
  unfold afterIrqid
  rw [sscanf_skipTo (by simp) (by simp)]

end Scan

section Read

variable {task : Task} {record : Record} {numbers : Numbers} {eol : List Char}
  {strtod : List Char → ℚ} {format : List Directive} {buffer : List Char}

theorem lineEvent_idle {time : List Char} {state : Nat} {cpu : Int}
    (hidle : strstr buffer "cpu_idle" = true)
    (hscan : (sscanf format buffer).assigned = [.float time, .uint state, .int cpu]) :
    lineEvent strtod format buffer = some (.idle (strtod time) state cpu) := by
  simp only [lineEvent, hidle, if_true, hscan]

theorem lineEvent_frequency {time : List Char} {freq : Nat} {cpu : Int}
    (hidle : strstr buffer "cpu_idle" = false) (hfrequency : strstr buffer "cpu_frequency" = true)
    (hscan : (sscanf format buffer).assigned = [.float time, .uint freq, .int cpu]) :
    lineEvent strtod format buffer = some (.frequency (strtod time) freq cpu) := by
  simp only [lineEvent, hidle, Bool.false_eq_true, if_false, hfrequency, if_true, hscan]

theorem lineEvent_irq {cpu irqid : Int} {irqname : List Char}
    (hidle : strstr buffer "cpu_idle" = false)
    (hfrequency : strstr buffer "cpu_frequency" = false)
    (hirq : strstr buffer "irq_handler_entry" = true)
    (hscan : (sscanf traceIrqFormat buffer).assigned = [.int cpu, .int irqid, .str irqname]) :
    lineEvent strtod format buffer = some (.wakeup cpu irqid irqname) := by
  simp only [lineEvent, hidle, hfrequency, Bool.false_eq_true, if_false, hirq, if_true, hscan]

theorem strstr_event : strstr (lineText task record numbers eol) record.event = true := by
  have hname : record.event.toList ≠ [] ∧ ∀ c ∈ record.event.toList, wordChar c = true := by
    cases record with
    | cpuIdle =>
      rw [Record.event]
      decide
    | cpuFrequency =>
      rw [Record.event]
      decide
    | irqHandlerEntry =>
      rw [Record.event]
      decide
  exact (strstr_line hname.1 hname.2).mpr (.inr (.inl List.infix_rfl))

theorem scan_name {name : List Char} (heol : eol = [] ∨ eol = ['\n']) (hne : name ≠ [])
    (hspace : ∀ c ∈ name.take namelen, isSpace c = false) :
    (sscanf [.conv (.s (some 16))] (name ++ eol)).assigned = [.str (name.take namelen)] := by
  have hend : ∀ c ∈ eol.head?, isSpace c = true := by
    intro c hc
    cases heol with
    | inl heq =>
      rw [heq] at hc
      cases hc
    | inr heq =>
      rw [heq] at hc
      obtain rfl := Option.some.inj hc
      decide
  obtain ⟨rest, hread⟩ := read_word hne (by decide) hspace (.inr hend)
  exact congrArg Result.assigned (sscanf_conv hread)

/-- In a frequency event, only the task can name the other power event. -/
theorem frequency_idle (heol : eol = [] ∨ eol = ['\n']) {state : UInt32} {cpuId : Nat} :
    strstr (lineText task (.cpuFrequency state cpuId) numbers eol) "cpu_idle" = true ↔
      task.Mentions "cpu_idle" := by
  have hevent : ¬ "cpu_idle".toList <:+: "cpu_frequency".toList := by decide
  have hstate : ¬ "cpu_idle".toList <:+: "state".toList := by decide
  have hcpu : ¬ "cpu_idle".toList <:+: "cpu_id".toList := by decide
  rw [strstr_line (by decide) (by decide), Record.event, Record.fields,
    powerFields_plain heol (by decide) (by decide)]
  simp only [hevent, hstate, hcpu, or_false]

theorem irq_power (heol : eol = [] ∨ eol = ['\n']) {name : List Char} {word : String}
    (hword : word ∈ ["cpu_idle", "cpu_frequency"]) :
    strstr (lineText task (.irqHandlerEntry name) numbers eol) word = true ↔
      task.Mentions word ∨ word.toList <:+: name := by
  have hplain : ∀ word ∈ ["cpu_idle", "cpu_frequency"], word.toList ≠ [] ∧
      (∀ c ∈ word.toList, wordChar c = true) ∧
      ¬ word.toList <:+: "irq_handler_entry".toList ∧ ¬ word.toList <:+: "irq".toList ∧
      ¬ word.toList <:+: "name".toList := by decide
  obtain ⟨hne, hchars, hevent, hirq, hname⟩ := hplain word hword
  rw [strstr_line hne hchars, Record.event, Record.fields, irqFields_plain heol hne hchars]
  simp only [hevent, hirq, hname, false_or]

theorem lineEvent_of_readable (h : Readable task record) (heol : eol = [] ∨ eol = ['\n']) :
    lineEvent strtod task.format (lineText task record numbers eol) =
      some (record.call strtod numbers) := by
  cases record with
  | cpuIdle state cpuId =>
    obtain ⟨hcomm, hcpu⟩ := h
    exact lineEvent_idle strstr_event (scan_power (.inl rfl) hcomm hcpu heol)
  | cpuFrequency state cpuId =>
    obtain ⟨hcomm, hcpu, hmention⟩ := h
    have hidle : strstr (lineText task (.cpuFrequency state cpuId) numbers eol) "cpu_idle" =
        false :=
      Bool.eq_false_iff.mpr (mt (frequency_idle heol).mp hmention)
    exact lineEvent_frequency hidle strstr_event (scan_power (.inr rfl) hcomm hcpu heol)
  | irqHandlerEntry name =>
    obtain ⟨hcomm, hflags, hmention, hne, hspace⟩ := h
    have habsent : ∀ word ∈ ["cpu_idle", "cpu_frequency"],
        strstr (lineText task (.irqHandlerEntry name) numbers eol) word = false := by
      intro word hword
      apply Bool.eq_false_iff.mpr
      rw [ne_eq, irq_power heol hword]
      exact not_or.mpr (hmention word hword)
    apply lineEvent_irq (habsent _ (by simp)) (habsent _ (by simp)) strstr_event
    rw [scan_irq hcomm hflags, scan_name heol hne hspace]

theorem scan_of_idle {time : ℚ} {state : Nat} {cpu : Int}
    (h : lineEvent strtod format buffer = some (.idle time state cpu)) :
    ∃ text, (sscanf format buffer).assigned = [.float text, .uint state, .int cpu] ∧
      strtod text = time := by
  unfold lineEvent at h
  split at h
  · split at h
    · next text state' cpu' hscan =>
      obtain ⟨htime, rfl, rfl⟩ := LineEvent.idle.inj (Option.some.inj h)
      exact ⟨text, hscan, htime⟩
    · cases h
  · split at h
    · split at h <;> cases h
    · split at h
      · split at h <;> cases h
      · split at h
        · split at h <;> cases h
        · cases h

theorem scan_of_frequency {time : ℚ} {freq : Nat} {cpu : Int}
    (h : lineEvent strtod format buffer = some (.frequency time freq cpu)) :
    strstr buffer "cpu_idle" ≠ true ∧
    ∃ text, (sscanf format buffer).assigned = [.float text, .uint freq, .int cpu] ∧
      strtod text = time := by
  unfold lineEvent at h
  split at h
  · split at h <;> cases h
  · next hidle =>
    refine ⟨hidle, ?_⟩
    split at h
    · split at h
      · next text freq' cpu' hscan =>
        obtain ⟨htime, rfl, rfl⟩ := LineEvent.frequency.inj (Option.some.inj h)
        exact ⟨text, hscan, htime⟩
      · cases h
    · split at h
      · split at h <;> cases h
      · split at h
        · split at h <;> cases h
        · cases h

theorem scan_of_irq {cpu irqid : Int} {irqname : List Char}
    (hirq : strstr buffer "irq_handler_entry" = true)
    (h : lineEvent strtod format buffer = some (.wakeup cpu irqid irqname)) :
    strstr buffer "cpu_idle" ≠ true ∧ strstr buffer "cpu_frequency" ≠ true ∧
    (sscanf traceIrqFormat buffer).assigned = [.int cpu, .int irqid, .str irqname] := by
  unfold lineEvent at h
  split at h
  · split at h <;> cases h
  · next hidle =>
    split at h
    · split at h <;> cases h
    · next hfrequency =>
      refine ⟨hidle, hfrequency, ?_⟩
      split at h
      · next cpu' irqid' irqname' hscan =>
        obtain ⟨rfl, rfl, rfl⟩ := LineEvent.wakeup.inj (Option.some.inj h)
        exact hscan
      · cases h

end Read

section Early

variable {task : Task} {record : Record}

/-- Numbers that no other numbers are shorter than. -/
def small (cpu sec irqid : Fin 2) : Numbers where
  cpu := cpu
  sec := sec
  usec := 0
  irqid := irqid
  cpu_int := by
    have hlt := cpu.isLt
    unfold intMax
    omega
  usec_digits := by decide
  irqid_int := by
    have hlt := irqid.isLt
    unfold IsInt intMax
    omega

theorem length_fields (cpu sec irqid : Fin 2) (numbers : Numbers) :
    (record.fields (small cpu sec irqid)).length ≤ (record.fields numbers).length := by
  cases record with
  | cpuIdle => exact le_refl _
  | cpuFrequency => exact le_refl _
  | irqHandlerEntry name =>
    have hone : ∀ irqid : Fin 2, (printInt irqid).length = 1 := by decide
    have hpos : 0 < (printInt numbers.irqid).length :=
      List.length_pos_of_ne_nil (printInt_ne_nil _)
    simp only [Record.fields, small]
    unfold irqFields
    simp only [List.length_append, hone]
    omega

theorem length_small (cpu sec irqid : Fin 2) (numbers : Numbers) :
    (lineText task record (small cpu sec irqid) []).length ≤
      (lineText task record numbers []).length := by
  have hcpu : ∀ cpu : Fin 2, (zeroPad 3 cpu).length = 3 := by decide
  have hsec : ∀ sec : Fin 2, (Nat.toDigits 10 sec).length = 1 := by decide
  have husec : (zeroPad 6 0).length = 6 := by decide
  have hwide : 3 ≤ (zeroPad 3 numbers.cpu).length := width_le_zeroPad
  have hpos : 0 < (Nat.toDigits 10 numbers.sec).length :=
    List.length_pos_of_ne_nil Nat.toDigits_ne_nil
  have hdigits : 6 ≤ (zeroPad 6 numbers.usec).length := width_le_zeroPad
  have hfields : (record.fields (small cpu sec irqid)).length ≤ (record.fields numbers).length :=
    length_fields cpu sec irqid numbers
  have hcpu := hcpu cpu
  have hsec := hsec sec
  simp only [lineText, Numbers.time, small, List.length_append, List.length_cons,
    List.length_nil] at hfields hcpu hsec ⊢
  omega

/-- Where the task has the bracket, the time is read from the task. -/
theorem scan_early_task (record : Record) (hcomm : ']' ∈ task.comm) :
    (∀ numbers eol, (sscanf task.format (lineText task record numbers eol)).assigned = []) ∨
      ∃ text, ∀ numbers eol, ∃ values,
        (sscanf task.format (lineText task record numbers eol)).assigned =
          .float text :: values := by
  obtain ⟨first, second, heq, hfirst⟩ := exists_first hcomm
  have hsplit : ∀ numbers eol, ∃ rest, lineText task record numbers eol =
      first ++ ']' :: ((second ++ '-' :: Nat.toDigits 10 task.pid) ++ ' ' :: '[' :: rest) := by
    intro numbers eol
    refine ⟨zeroPad 3 numbers.cpu ++ ']' :: ' ' :: (task.flagsText ++ (numbers.time ++ ':' ::
      ' ' :: (record.event.toList ++ ':' :: ' ' :: (record.fields numbers ++ eol)))), ?_⟩
    simp [lineText, heq]
  have hdash : ∃ c ∈ second ++ '-' :: Nat.toDigits 10 task.pid, isSpace c = false :=
    ⟨'-', by simp, by decide⟩
  generalize second ++ '-' :: Nat.toDigits 10 task.pid = text at hsplit hdash
  have hscan : ∀ format : List Directive,
      ((∀ rest, (sscanf format (text ++ ' ' :: '[' :: rest)).assigned = []) ∨
        ∃ float, ∀ rest, ∃ values,
          (sscanf format (text ++ ' ' :: '[' :: rest)).assigned = .float float :: values) →
      (∀ numbers eol, (sscanf (.skip (.noneOf [']']) :: .lit ']' :: format)
          (lineText task record numbers eol)).assigned = []) ∨
        ∃ float, ∀ numbers eol, ∃ values, (sscanf (.skip (.noneOf [']']) :: .lit ']' :: format)
          (lineText task record numbers eol)).assigned = .float float :: values := by
    intro format h
    by_cases hnil : first = []
    · refine .inl fun numbers eol => ?_
      obtain ⟨rest, hline⟩ := hsplit numbers eol
      rw [hline, hnil, List.nil_append, sscanf_skipTo_nil]
    · have hskip : ∀ numbers eol, ∃ rest,
          sscanf (.skip (.noneOf [']']) :: .lit ']' :: format) (lineText task record numbers eol) =
            sscanf format (text ++ ' ' :: '[' :: rest) := by
        intro numbers eol
        obtain ⟨rest, hline⟩ := hsplit numbers eol
        exact ⟨rest, by rw [hline, sscanf_skipTo hnil hfirst]⟩
      cases h with
      | inl hfail =>
        refine .inl fun numbers eol => ?_
        obtain ⟨rest, hrest⟩ := hskip numbers eol
        rw [hrest, hfail]
      | inr hread =>
        obtain ⟨float, hread⟩ := hread
        refine .inr ⟨float, fun numbers eol => ?_⟩
        obtain ⟨rest, hrest⟩ := hskip numbers eol
        rw [hrest]
        exact hread rest
  unfold Task.format
  cases task.flags with
  | none =>
    apply hscan
    exact (scan_lf_stop hdash).imp (fun h _ => h _) fun h => h.imp fun _ hread _ => hread _
  | some token => exact hscan _ (scan_word_lf_stop hdash)

end Early

section Dispatch

variable {task : Task} {record : Record}

theorem lineEvent_small (h : Dispatched task record)
    (hfits : ∃ numbers, (lineText task record numbers []).length < bufsize)
    (cpu sec irqid : Fin 2) (strtod : List Char → ℚ) :
    lineEvent strtod task.format (lineText task record (small cpu sec irqid) []) =
      some (record.call strtod (small cpu sec irqid)) := by
  obtain ⟨numbers, hlength⟩ := hfits
  exact (h _ [] (.inl rfl) ((length_small cpu sec irqid numbers).trans_lt hlength) strtod).1

/-- The text of the time is the line's, not just its value. -/
theorem time_of_strtod {buffer : List Char} {format : List Directive} {time : List Char}
    {state : Nat} {cpu : Int}
    (h : ∀ strtod : List Char → ℚ, ∃ text,
      (sscanf format buffer).assigned = [.float text, .uint state, .int cpu] ∧
        strtod text = strtod time) :
    (sscanf format buffer).assigned = [.float time, .uint state, .int cpu] := by
  obtain ⟨text, hscan, hvalue⟩ := h fun text => if text = time then 1 else 0
  have htext : text = time := by
    by_contra hne
    simp [hne] at hvalue
  rw [hscan, htext]

theorem power_plain {state : UInt32} {cpuId : Nat}
    (hscan : ∀ sec : Fin 2,
      (sscanf task.format (lineText task record (small 0 sec 0) [])).assigned =
        [.float (small 0 sec 0).time, .uint state.toNat, .int cpuId]) :
    ']' ∉ task.comm ∧ cpuId ≤ intMax := by
  have hcpu : (cpuId : Int) ≤ intMax := int_le (by rw [hscan 0]; simp)
  refine ⟨fun hcomm => ?_, Int.ofNat_le.mp hcpu⟩
  have halike : (∀ sec : Fin 2,
      (sscanf task.format (lineText task record (small 0 sec 0) [])).assigned = []) ∨
      ∃ float, ∀ sec : Fin 2, ∃ values,
        (sscanf task.format (lineText task record (small 0 sec 0) [])).assigned =
          .float float :: values :=
    (scan_early_task record hcomm).imp (fun hnone _ => hnone _ _) fun hread =>
      hread.imp fun _ hfloat _ => hfloat _ _
  have hsame := first_eq_of_alike halike (hscan 0) (hscan 1)
  have hdiffer : (small 0 0 0).time ≠ (small 0 1 0).time := by decide
  exact hdiffer (Scanned.float.inj hsame)

/-- Where every interrupt is scanned right, neither its CPU nor its number is the
task's, and its name is one word. -/
theorem irq_plain {name : List Char}
    (hscan : ∀ cpu irqid : Fin 2,
      (sscanf traceIrqFormat
        (lineText task (.irqHandlerEntry name) (small cpu 0 irqid) [])).assigned =
        [.int (small cpu 0 irqid).cpu, .int (small cpu 0 irqid).irqid,
          .str (name.take namelen)]) :
    '[' ∉ task.comm ∧ '=' ∉ task.flagsText ∧ name ≠ [] ∧
      ∀ c ∈ name.take namelen, isSpace c = false := by
  have hcomm : '[' ∉ task.comm := by
    intro hcomm
    have hearly : ¬ (task.comm ++ '-' :: (Nat.toDigits 10 task.pid ++ [' ']) ≠ [] ∧
        '[' ∉ task.comm ++ '-' :: (Nat.toDigits 10 task.pid ++ [' '])) := by
      intro h
      exact h.2 (List.mem_append_left _ hcomm)
    have hzero := hscan 0 0
    have hone := hscan 1 0
    rw [lineText_irq] at hzero hone
    have hsame := first_eq_of_alike
      (scan_early_stop (by decide) (by decide) (by decide) (by decide) hearly) hzero hone
    exact absurd (Scanned.int.inj hsame) (by decide)
  have hflags : '=' ∉ task.flagsText := by
    intro hflags
    have hearly : '=' ∈ beforeIrqid task (small 0 0 0) := by simp [beforeIrqid, hflags]
    have hzero := hscan 0 0
    have hone := hscan 0 1
    rw [scan_irq_cpu hcomm] at hzero hone
    have hzero := (List.cons.inj hzero).2
    have hone := (List.cons.inj hone).2
    have hsame := first_eq_of_alike
      (scan_space_early_stop (by decide) (by decide) (by decide) (by decide) hearly) hzero hone
    exact absurd (Scanned.int.inj hsame) (by decide)
  have hname := hscan 0 0
  rw [scan_irq hcomm hflags, List.append_nil] at hname
  have hname := (List.cons.inj (List.cons.inj hname).2).2
  refine ⟨hcomm, hflags, ?_, ?_⟩
  · intro hnil
    rw [hnil] at hname
    exact absurd hname (by simp [sscanf, Spec.read])
  · exact (scan_word_bounds hname).2

theorem readable_of_dispatched (h : Dispatched task record)
    (hfits : ∃ numbers, (lineText task record numbers []).length < bufsize) :
    Readable task record := by
  have hcall := lineEvent_small h hfits
  cases record with
  | cpuIdle state cpuId =>
    apply power_plain
    intro sec
    exact time_of_strtod fun strtod => scan_of_idle (hcall 0 sec 0 strtod)
  | cpuFrequency state cpuId =>
    have hplain : ']' ∉ task.comm ∧ cpuId ≤ intMax := by
      apply power_plain
      intro sec
      exact time_of_strtod fun strtod => (scan_of_frequency (hcall 0 sec 0 strtod)).2
    have hidle := (scan_of_frequency (hcall 0 0 0 fun _ => 0)).1
    rw [ne_eq, frequency_idle (.inl rfl)] at hidle
    exact ⟨hplain.1, hplain.2, hidle⟩
  | irqHandlerEntry name =>
    have hirq : ∀ cpu irqid : Fin 2, strstr (lineText task (.irqHandlerEntry name)
        (small cpu 0 irqid) []) "irq_handler_entry" = true := fun _ _ => strstr_event
    have hscan := fun cpu irqid => scan_of_irq (hirq cpu irqid) (hcall cpu 0 irqid fun _ => 0)
    obtain ⟨hcomm, hflags, hne, hspace⟩ := irq_plain fun cpu irqid => (hscan cpu irqid).2.2
    obtain ⟨hidle, hfrequency, -⟩ := hscan 0 0
    refine ⟨hcomm, hflags, ?_, hne, hspace⟩
    simp only [List.forall_mem_cons, ← not_or]
    rw [ne_eq, irq_power (.inl rfl) (by simp)] at hidle hfrequency
    exact ⟨hidle, hfrequency, by simp⟩

end Dispatch

/-- A line makes its call, whatever numbers are in it, exactly when its task, its
flags and its name are no obstacle. -/
theorem event_line (task : Task) (record : Record)
    (hfits : ∃ numbers, (lineText task record numbers []).length < bufsize) :
    Dispatched task record ↔ Readable task record := by
  constructor
  · intro h
    exact readable_of_dispatched h hfits
  · intro h numbers eol heol hlength strtod
    have hcall : lineEvent strtod task.format (lineText task record numbers eol) =
        some (record.call strtod numbers) := lineEvent_of_readable h heol
    refine ⟨hcall, ?_⟩
    intro datas span
    rw [loadTextDataLine_eq, hcall]

def taskOf (comm : String) (flags : Option String)
    (h : ∀ token ∈ flags, token.toList ≠ [] ∧ ∀ c ∈ token.toList, isSpace c = false) : Task where
  comm := comm.toList
  pid := 42
  flags := flags.map String.toList
  flags_token := by
    intro token htoken
    obtain ⟨text, htext, rfl⟩ := Option.map_eq_some_iff.mp htoken
    exact h text htext

theorem event_line_idle :
    Dispatched (taskOf "<idle>" (some "d...") (by decide)) (.cpuIdle 1 0) ↔
      Readable (taskOf "<idle>" (some "d...") (by decide)) (.cpuIdle 1 0) :=
  event_line _ _ ⟨small 0 0 0, by decide +kernel⟩

def namedTask : Task :=
  taskOf "cpu_idle_test" (some "d...") (by decide)

/-- The frequency of a task named after the other event is recorded as a state. -/
theorem event_line_named :
    (∀ strtod : List Char → ℚ, lineEvent strtod namedTask.format
        (lineText namedTask (.cpuFrequency 1200000 0) (small 0 1 0) []) =
      some (.idle (strtod "1.000000".toList) 1200000 0)) ∧
    ¬ Dispatched namedTask (.cpuFrequency 1200000 0) := by
  have hline : ∀ strtod : List Char → ℚ, lineEvent strtod namedTask.format
      (lineText namedTask (.cpuFrequency 1200000 0) (small 0 1 0) []) =
      some (.idle (strtod "1.000000".toList) 1200000 0) :=
    fun strtod => lineEvent_idle (by decide +kernel) (by decide +kernel)
  refine ⟨hline, ?_⟩
  intro h
  have hcall := lineEvent_small h ⟨small 0 0 0, by decide +kernel⟩ 0 1 0 fun _ => 0
  rw [hline] at hcall
  cases hcall

end Idlestat.Theory.EventLine
