import Idlestat.Library.ScanFields
import Idlestat.Model.TraceFiles

/-! The number of CPUs in the header of an ftrace file. Each comment line but one
that starts with `#P:` sets it anew, so that only the last such line counts. -/
namespace Idlestat.Theory.FtraceHeader

open Idlestat.Library.Scan Idlestat.Library.TextFile Idlestat.Model.TopologyFile
  Idlestat.Model.CstateFile Idlestat.Model.TraceFiles

/-- `# <text without #>#P:n` -/
def CountLine (n : Nat) (line : List Char) : Prop :=
  ∃ text, '#' ∉ text ∧ line = '#' :: ' ' :: (text ++ "#P:".toList ++ Nat.toDigits 10 n)

/-- A file that starts with a `# tracer` line, and has one line with the number
among its comments, and data behind them. Lines are without their newlines. -/
structure FtraceFile where
  tracer : List Char
  comments : List (List Char)
  n : Nat
  data : List Char
  n_pos : 0 < n
  tracer_line : "# tracer".toList <+: tracer ∧ '\n' ∉ tracer
  comment_lines : ∀ line ∈ comments, line.head? = some '#' ∧ '\n' ∉ line
  count_line : ∃ before line after, comments = before ++ line :: after ∧ CountLine n line ∧
    ∀ other ∈ before ++ after, ∀ m > 0, ¬ CountLine m other
  data_line : data ≠ [] ∧ data.head? ≠ some '#'

def FtraceFile.header (file : FtraceFile) : List Char :=
  (file.tracer :: file.comments).flatMap (· ++ ['\n'])

def FtraceFile.text (file : FtraceFile) : List Char :=
  file.header ++ file.data

/-- The header loop ends with the number, at the first data line. -/
def Found (file : FtraceFile) : Prop :=
  ftraceComments 0 (reads bufsize file.text) =
    (Input.start file.data).map fun input => (file.n, input)

/-- A number behind `#P:`, as `%u` reads it. -/
def Gives (n : Nat) (buf : List Char) : Prop :=
  ∃ text number rest, buf = '#' :: (text ++ "#P:".toList ++ number) ∧ text ≠ [] ∧ '#' ∉ text ∧
    Spec.u.read number = .matched (.uint n) rest

/-- The last of the lines that `#P:` does not start gives the number. -/
def LastGives (n : Nat) (bufs : List (List Char)) : Prop :=
  ∃ earlier buf later, bufs = earlier ++ buf :: later ∧ ¬ "#P:".toList <+: buf ∧
    (∀ other ∈ later, "#P:".toList <+: other) ∧ Gives n buf

/-- Wherever the buffer's size cuts the header a comment starts, and the last one
that counts gives the number. -/
structure Kept (file : FtraceFile) : Prop where
  comment : ∀ buf ∈ buffers bufsize file.header, buf.head? = some '#'
  last : LastGives file.n (buffers bufsize file.header)

section Comment

variable {buf : List Char} {n nrcpus : Nat}

def afterComment (nrcpus : Nat) (buf : List Char) : Nat :=
  if buf.take 3 = "#P:".toList then nrcpus else scanNrcpus ftraceCpusFormat buf

theorem assigned_of_scanNrcpus (hn : 0 < n) (h : scanNrcpus ftraceCpusFormat buf = n) :
    (sscanf ftraceCpusFormat buf).assigned = [.uint n] := by
  unfold scanNrcpus at h
  split at h
  · next hscan => rw [hscan, h]
  · omega

theorem read_of_assigned {number : List Char}
    (h : (sscanf [.conv .u] number).assigned = [.uint n]) :
    ∃ rest, Spec.u.read number = .matched (.uint n) rest := by
  simp only [sscanf] at h
  cases hread : Spec.u.read number with
  | inputFailure => simp [hread] at h
  | matchingFailure => simp [hread] at h
  | matched value rest =>
    simp only [hread, List.cons.injEq, and_true] at h
    exact ⟨rest, by rw [h]⟩

theorem gives_of_scanNrcpus (hn : 0 < n) (h : scanNrcpus ftraceCpusFormat buf = n) :
    Gives n buf := by
  have hscan := assigned_of_scanNrcpus hn h
  cases buf with
  | nil => cases hscan
  | cons c line =>
    by_cases hc : c = '#'
    · subst hc
      have hskip : (sscanf (.skip (.noneOf ['#']) :: (lits "#P:".toList ++ [.conv .u]))
          line).assigned = [.uint n] := by
        rw [← hscan]
        exact congrArg Result.assigned (sscanf_lit '#').symm
      obtain ⟨text, after, rfl, htext, hplain, hafter⟩ := exists_of_skipTo hskip
      rw [assigned_lits] at hafter
      split at hafter
      · next hbegins =>
        obtain ⟨number, rfl⟩ := hbegins
        rw [List.drop_left] at hafter
        obtain ⟨rest, hread⟩ := read_of_assigned hafter
        exact ⟨text, number, rest, by rw [List.append_assoc], htext, hplain, hread⟩
      · cases hafter
    · have hfail : (sscanf ftraceCpusFormat (c :: line)).assigned = [] :=
        congrArg Result.assigned (if_neg hc)
      rw [hfail] at hscan
      cases hscan

theorem scanNrcpus_of_gives (h : Gives n buf) : scanNrcpus ftraceCpusFormat buf = n := by
  obtain ⟨text, number, rest, rfl, htext, hplain, hread⟩ := h
  have hscan : sscanf ftraceCpusFormat ('#' :: (text ++ "#P:".toList ++ number)) =
      sscanf [.conv .u] number := by
    calc
      sscanf ftraceCpusFormat ('#' :: (text ++ "#P:".toList ++ number)) =
          sscanf (.skip (.noneOf ['#']) :: .lit '#' :: (lits "P:".toList ++ [.conv .u]))
            (text ++ '#' :: ("P:".toList ++ number)) := by
        rw [List.append_assoc]
        exact sscanf_lit '#'
      _ = sscanf (lits "P:".toList ++ [.conv .u]) ("P:".toList ++ number) :=
        sscanf_skipTo htext hplain
      _ = sscanf [.conv .u] number := sscanf_lits _
  rw [scanNrcpus, hscan, sscanf_conv hread]
  rfl

theorem afterComment_eq_iff (hn : 0 < n) : afterComment nrcpus buf = n ↔
    if "#P:".toList <+: buf then nrcpus = n else Gives n buf := by
  have hbegins : buf.take 3 = "#P:".toList ↔ "#P:".toList <+: buf := by
    rw [List.prefix_iff_eq_take]
    exact eq_comm
  unfold afterComment
  by_cases h : "#P:".toList <+: buf
  · rw [if_pos (hbegins.mpr h), if_pos h]
  · rw [if_neg (mt hbegins.mp h), if_neg h]
    exact ⟨gives_of_scanNrcpus hn, scanNrcpus_of_gives⟩

theorem lastGives_concat {bufs : List (List Char)} {last : List Char} :
    LastGives n (bufs ++ [last]) ↔
      if "#P:".toList <+: last then LastGives n bufs else Gives n last := by
  constructor
  · rintro ⟨earlier, buf, later, heq, hbuf, hlater, hgives⟩
    rcases List.eq_nil_or_concat later with rfl | ⟨more, other, rfl⟩
    · obtain ⟨rfl, hlast⟩ := List.append_inj' heq rfl
      obtain rfl := List.singleton_inj.mp hlast
      rwa [if_neg hbuf]
    · have hsplit : bufs ++ [last] = (earlier ++ buf :: more) ++ [other] := by
        rw [heq]
        simp
      obtain ⟨rfl, hlast⟩ := List.append_inj' hsplit rfl
      obtain rfl := List.singleton_inj.mp hlast
      rw [if_pos (hlater last (by simp))]
      exact ⟨earlier, buf, more, rfl, hbuf, fun other hmem => hlater other (by simp [hmem]), hgives⟩
  · intro h
    split at h
    · next hlast =>
      obtain ⟨earlier, buf, later, rfl, hbuf, hlater, hgives⟩ := h
      refine ⟨earlier, buf, later ++ [last], by simp, hbuf, ?_, hgives⟩
      simp only [List.forall_mem_append, List.forall_mem_singleton]
      exact ⟨hlater, hlast⟩
    · next hlast => exact ⟨bufs, last, [], rfl, hlast, by simp, h⟩

theorem foldl_afterComment (hn : 0 < n) (bufs : List (List Char)) :
    bufs.foldl afterComment 0 = n ↔ LastGives n bufs := by
  induction bufs using List.reverseRecOn with
  | nil => simp [LastGives, hn.ne]
  | append_singleton bufs last ih =>
    rw [List.foldl_concat, afterComment_eq_iff hn, lastGives_concat, ih]

end Comment

section Loop

variable {pieces rest : List (List Char)} {nrcpus : Nat}

theorem feof_of_full {line : List Char}
    (h : line.getLast? = some '\n' ∨ line.length + 1 = bufsize) : feof line = false := by
  cases h with
  | inl hlast => simp [feof, hlast]
  | inr hlength => simp [feof, hlength]

theorem ftraceComments_comment {line : List Char} (hfeof : feof line = false)
    (hhead : (cString line).head? = some '#') :
    ftraceComments nrcpus (line :: rest) =
      ftraceComments (afterComment nrcpus (cString line)) rest := by
  have hstay : ¬ (feof line || decide ((cString line).head? ≠ some '#')) = true := by
    simp [hfeof, hhead]
  simp only [ftraceComments, if_neg hstay, afterComment]
  split <;> rfl

theorem ftraceComments_comments
    (hcomment : ∀ line ∈ pieces, feof line = false ∧ (cString line).head? = some '#') :
    ftraceComments nrcpus (pieces ++ rest) =
      ftraceComments ((pieces.map cString).foldl afterComment nrcpus) rest := by
  induction pieces generalizing nrcpus with
  | nil => rfl
  | cons line pieces ih =>
    obtain ⟨hfeof, hhead⟩ := hcomment line List.mem_cons_self
    rw [List.cons_append, ftraceComments_comment hfeof hhead,
      ih fun line hline => hcomment line (List.mem_cons_of_mem _ hline)]
    rfl

theorem ftraceComments_stop (h : ∃ line ∈ pieces, (cString line).head? ≠ some '#') :
    ∃ n input, ftraceComments nrcpus (pieces ++ rest) = some (n, input) ∧
      rest.length ≤ input.file.length := by
  induction pieces generalizing nrcpus with
  | nil => simp at h
  | cons line pieces ih =>
    simp only [List.cons_append, ftraceComments]
    split
    · refine ⟨nrcpus, _, rfl, ?_⟩
      simp only [List.length_map, List.length_append]
      omega
    · next hstay =>
      have hothers : ∃ line ∈ pieces, (cString line).head? ≠ some '#' := by
        obtain ⟨other, hmem, hother⟩ := h
        cases List.mem_cons.mp hmem with
        | inl heq =>
          rw [heq] at hother
          simp [hother] at hstay
        | inr hmem => exact ⟨other, hmem, hother⟩
      split
      · exact ih hothers
      · exact ih hothers

theorem ftraceComments_data {first : List Char} (h : (cString first).head? ≠ some '#') :
    ftraceComments nrcpus (first :: rest) = some (nrcpus, ⟨cString first, rest.map cString⟩) := by
  simp [ftraceComments, h]

end Loop

section File

variable {file : FtraceFile}

theorem header_concat (file : FtraceFile) : ∃ body, file.header = body ++ ['\n'] := by
  rcases List.eq_nil_or_concat (file.tracer :: file.comments) with hnil | ⟨lines, last, heq⟩
  · cases hnil
  · refine ⟨lines.flatMap (· ++ ['\n']) ++ last, ?_⟩
    rw [FtraceFile.header, heq]
    simp

theorem reads_text (file : FtraceFile) :
    reads bufsize file.text = reads bufsize file.header ++ reads bufsize file.data := by
  obtain ⟨body, hbody⟩ := header_concat file
  rw [FtraceFile.text, hbody, List.append_assoc]
  exact reads_append body file.data

theorem feof_header : ∀ line ∈ reads bufsize file.header, feof line = false := by
  obtain ⟨body, hbody⟩ := header_concat file
  intro line hline
  rw [hbody] at hline
  exact feof_of_full (reads_full (by decide) body line hline)

theorem start_data (file : FtraceFile) : ∃ first rest, reads bufsize file.data = first :: rest ∧
    (cString first).head? ≠ some '#' ∧
    Input.start file.data = some ⟨cString first, rest.map cString⟩ := by
  obtain ⟨hne, hhead⟩ := file.data_line
  obtain ⟨c, tail, hdata⟩ := List.exists_cons_of_ne_nil hne
  obtain ⟨line, rest, hreads⟩ := readsFrom_cons bufsize (bufsize - 1) c tail
  have hreads : reads bufsize file.data = (c :: line) :: rest := by rw [hdata]; exact hreads
  refine ⟨c :: line, rest, hreads, ?_, ?_⟩
  · rw [hdata] at hhead
    by_cases hc : c = '\x00'
    · simp [cString, hc]
    · simpa [cString, hc] using hhead
  · simp only [Input.start, buffers, hreads, List.map_cons]

end File

/-- The header loop ends with the number at the first data line exactly when no
comment behind the number sets it again. -/
theorem cpu_count (file : FtraceFile) : Found file ↔ Kept file := by
  obtain ⟨first, rest, hdata, hhead, hstart⟩ := start_data file
  unfold Found
  rw [reads_text, hdata, hstart]
  by_cases hcomment : ∀ buf ∈ buffers bufsize file.header, buf.head? = some '#'
  · have hpieces : ∀ line ∈ reads bufsize file.header,
        feof line = false ∧ (cString line).head? = some '#' :=
      fun line hline => ⟨feof_header line hline, hcomment _ (List.mem_map_of_mem hline)⟩
    rw [ftraceComments_comments hpieces, ftraceComments_data hhead]
    simp only [Option.map_some, Option.some.injEq, Prod.mk.injEq, and_true]
    rw [← buffers, foldl_afterComment file.n_pos]
    exact ⟨fun h => ⟨hcomment, h⟩, Kept.last⟩
  · have hearly : ∃ line ∈ reads bufsize file.header, (cString line).head? ≠ some '#' := by
      simpa [buffers] using hcomment
    have hstop : ∃ n input, ftraceComments 0 (reads bufsize file.header ++ first :: rest) =
        some (n, input) ∧ (first :: rest).length ≤ input.file.length := ftraceComments_stop hearly
    obtain ⟨n, input, hstop, hlength⟩ := hstop
    constructor
    · intro h
      -- a loop that stops early leaves more lines in the file
      rw [hstop] at h
      obtain ⟨-, rfl⟩ := Prod.mk.inj (Option.some.inj h)
      simp only [List.length_cons, List.length_map] at hlength
      omega
    · intro h
      exact absurd h.comment hcomment

/-- The header that the kernel prints has comments behind the number. -/
def kernelFile : FtraceFile where
  tracer := "# tracer: nop".toList
  comments := ["#".toList, "# entries-in-buffer/entries-written: 8/8   #P:4".toList, "#".toList]
  n := 4
  data := "          <idle>-0     [000] d...  1.000000: cpu_idle: state=1 cpu_id=0\n".toList
  n_pos := by decide
  tracer_line := by decide
  comment_lines := by decide
  count_line := by
    refine ⟨["#".toList], _, ["#".toList], rfl,
      ⟨"entries-in-buffer/entries-written: 8/8   ".toList, by decide, by decide +kernel⟩, ?_⟩
    intro other hother m _
    have hshort : other = ['#'] := by simpa using hother
    rintro ⟨text, -, heq⟩
    rw [hshort] at heq
    cases heq
  data_line := by decide

theorem cpu_count_kernel :
    (ftraceComments 0 (reads bufsize kernelFile.text)).map Prod.fst = some 0 ∧
      ¬ Found kernelFile := by
  have hzero : (ftraceComments 0 (reads bufsize kernelFile.text)).map Prod.fst = some 0 := by
    decide +kernel
  refine ⟨hzero, ?_⟩
  intro h
  rw [h] at hzero
  exact absurd hzero (by decide +kernel)

end Idlestat.Theory.FtraceHeader
