import Idlestat.Theory.EventLine
import Idlestat.Theory.FtraceHeader
import Idlestat.Theory.StoredTrace

/-! One trace in three formats. The kernel's text, what `trace-cmd report` prints
of it and the lines that idlestat stores of it make the same calls, so that each
loader is one function of the events. -/
namespace Idlestat.Theory.ImportFormats

open Idlestat.Library Idlestat.Library.Scan Idlestat.Library.TextFile Idlestat.Model.Topology
  Idlestat.Model.Recorder Idlestat.Model.TopologyFile Idlestat.Model.CstateFile
  Idlestat.Model.TraceLine Idlestat.Model.TraceFiles Idlestat.Theory.TopologyRoundTrip
  Idlestat.Theory.EventLine Idlestat.Theory.FtraceHeader Idlestat.Theory.StoredTrace
open Idlestat.Model.Loaders hiding loadAndBuildCstateInfo
open Idlestat.Theory.TraceLineSafety hiding lineStep

/-! ## Events -/

/-- An event that the kernel can print in one line, and that can be read. -/
structure Event where
  task : Task
  record : Record
  numbers : Numbers
  token : List Char
  flags : task.flags = some token
  readable : Readable task record
  plain : Plain (lineText task record numbers [])
  fits : (lineText task record numbers ['\n']).length < bufsize
  noComment : (lineText task record numbers []).head? ≠ some '#'

/-- `trace-cmd report` leaves the flags out. -/
def Event.report (event : Event) : Task where
  comm := event.task.comm
  pid := event.task.pid
  flags := none
  flags_token := by simp

def ftraceLine (event : Event) : List Char :=
  lineText event.task event.record event.numbers ['\n']

def reportLine (event : Event) : List Char :=
  lineText event.report event.record event.numbers ['\n']

def applyEvent (env : Env) (datas : CpuidleDatas) (event : Event) : Except Fault CpuidleDatas :=
  TraceLineSafety.record datas (event.record.call env.strtod event.numbers)

/-- A trace of `nrcpus` CPUs on the host. -/
def hostRun (env : Env) (nrcpus : Int) (topo : CpuTopology) (events : List Event) :
    Except Fault (Option CpuidleDatas) := do
  let datas ← setupTopoStates (loadedDatas .sysfs nrcpus topo env.info)
  let datas ← events.foldlM (applyEvent env) datas
  .ok (some datas)

def hostLoad (env : Env) (cpus : Nat) (events : List Event) :
    Except Fault (Option CpuidleDatas) :=
  match checkNrcpus cpus with
  | none => .ok none
  | some nrcpus => do
    let topo ← readSysfsCpuTopo env.host
    topo.elim (.ok none) fun topo => hostRun env nrcpus topo events

section Events

variable {event : Event}

theorem readable_report (event : Event) : Readable event.report event.record := by
  have h := event.readable
  have hcomm : event.report.comm = event.task.comm := rfl
  have hflags : event.report.flagsText = [] := rfl
  have hmentions : ∀ word, word.toList ≠ [] → event.report.Mentions word →
      event.task.Mentions word := by
    intro word hne hmention
    cases hmention with
    | inl hcomm' => exact .inl hcomm'
    | inr hnil =>
      rw [hflags] at hnil
      exact absurd (List.infix_nil.mp hnil) hne
  cases hrecord : event.record with
  | cpuIdle state cpuId =>
    rw [hrecord] at h
    exact h
  | cpuFrequency state cpuId =>
    rw [hrecord] at h
    obtain ⟨hopen, hcpu, hmention⟩ := h
    exact ⟨hopen, hcpu, mt (hmentions _ (by decide)) hmention⟩
  | irqHandlerEntry name =>
    rw [hrecord] at h
    obtain ⟨hopen, -, hmention, hname⟩ := h
    refine ⟨hopen, by rw [hflags]; exact List.not_mem_nil, ?_, hname⟩
    intro word hword
    have hne : ∀ word ∈ ["cpu_idle", "cpu_frequency"], word.toList ≠ [] := by decide
    exact ⟨mt (hmentions word (hne word hword)) (hmention word hword).1, (hmention word hword).2⟩

theorem lineText_concat {task : Task} {record : Record} {numbers : Numbers} :
    lineText task record numbers ['\n'] = lineText task record numbers [] ++ ['\n'] := by
  simp [lineText]

theorem report_sublist (event : Event) :
    (lineText event.report event.record event.numbers []).Sublist
      (lineText event.task event.record event.numbers []) := by
  let first := event.task.comm ++ '-' :: (Nat.toDigits 10 event.task.pid ++ ' ' :: '[' ::
    (zeroPad 3 event.numbers.cpu ++ [']', ' ']))
  let last := event.numbers.time ++ ':' :: ' ' :: (event.record.event.toList ++
    ':' :: ' ' :: event.record.fields event.numbers)
  have htask : lineText event.task event.record event.numbers [] =
      first ++ (event.task.flagsText ++ last) := by
    simp [lineText, first, last]
  have hreport : lineText event.report event.record event.numbers [] = first ++ ([] ++ last) := by
    simp [lineText, first, last, Event.report, Task.flagsText]
  rw [htask, hreport]
  exact (List.Sublist.refl first).append ((List.nil_sublist _).append (List.Sublist.refl last))

theorem wholeLine_ftraceLine (event : Event) : WholeLine bufsize (ftraceLine event) := by
  have hfits := event.fits
  rw [lineText_concat, List.length_append, List.length_singleton] at hfits
  exact ⟨_, lineText_concat, fun hmem => (event.plain _ hmem).1 rfl,
    fun hmem => (event.plain _ hmem).2 rfl, hfits⟩

theorem wholeLine_reportLine (event : Event) : WholeLine bufsize (reportLine event) := by
  have hsub := report_sublist event
  have hlen := hsub.length_le
  have hfits := event.fits
  rw [lineText_concat, List.length_append, List.length_singleton] at hfits
  exact ⟨_, lineText_concat, fun hmem => (event.plain _ (hsub.subset hmem)).1 rfl,
    fun hmem => (event.plain _ (hsub.subset hmem)).2 rfl, by omega⟩

theorem lineEvent_ftraceLine (strtod : List Char → ℚ) (event : Event) :
    lineEvent strtod traceFormat (ftraceLine event) =
      some (event.record.call strtod event.numbers) := by
  have hformat : event.task.format = traceFormat := by rw [Task.format, event.flags]
  rw [← hformat]
  exact lineEvent_of_readable event.readable (.inr rfl)

theorem lineEvent_reportLine (strtod : List Char → ℚ) (event : Event) :
    lineEvent strtod traceCmdReportFormat (reportLine event) =
      some (event.record.call strtod event.numbers) :=
  lineEvent_of_readable (readable_report event) (.inr rfl)

theorem head_ftraceLine (event : Event) : (ftraceLine event).head? ≠ some '#' := by
  intro hhead
  have hne : lineText event.task event.record event.numbers [] ≠ [] := by simp [lineText]
  rw [ftraceLine, lineText_concat, List.head?_append_of_ne_nil _ hne] at hhead
  exact event.noComment hhead

end Events

section Runs

variable {env : Env} {ops : TraceOps} {events : List Event}

theorem foldlM_lines {line : Event → List Char}
    (hline : ∀ event, lineEvent env.strtod ops.format (line event) =
      some (event.record.call env.strtod event.numbers)) (datas : CpuidleDatas) (span : LogSpan) :
    ((events.map line).foldlM (lineStep env ops) (datas, span)).map Prod.fst =
      events.foldlM (applyEvent env) datas := by
  induction events generalizing datas span with
  | nil => rfl
  | cons event events ih =>
    have hstep : lineStep env ops (datas, span) (line event) =
        (applyEvent env datas event).map fun datas' =>
          (datas', (event.record.call env.strtod event.numbers).extend span) := by
      rw [lineStep, loadTextDataLine_eq, hline, applyEvent]
      dsimp only
      cases TraceLineSafety.record datas (event.record.call env.strtod event.numbers) with
      | error fault => rfl
      | ok datas' => rfl
    rw [List.map_cons, List.foldlM_cons, List.foldlM_cons, hstep]
    cases applyEvent env datas event with
    | error fault => rfl
    | ok datas' => exact ih datas' _

theorem traceLoad_of_start {text : List Char} {cpus : Nat} {next : List Char}
    {file : List (List Char)} {line : Event → List Char}
    (hdatas : loadDatas env text ops = sysfsDatas env (some (cpus, ⟨next, file⟩)))
    (hline : ∀ event, lineEvent env.strtod ops.format (line event) =
      some (event.record.call env.strtod event.numbers))
    (hfile : next :: file = events.map line) :
    traceLoad env ops text = hostLoad env cpus events := by
  rw [traceLoad, hdatas, sysfsDatas, hostLoad]
  cases checkNrcpus cpus with
  | none => rfl
  | some nrcpus =>
    cases htopo : readSysfsCpuTopo env.host with
    | error fault => rfl
    | ok topo =>
      cases topo with
      | none => rfl
      | some topo =>
        simp only [bind, Except.bind, Option.elim_some, loadTextDataLines, hfile, hostRun]
        cases setupTopoStates (loadedDatas .sysfs nrcpus topo env.info) with
        | error fault => rfl
        | ok datas =>
          dsimp only
          rw [← foldlM_lines hline datas { beginTime := 0, endTime := 0, start := 1 }]
          cases (events.map line).foldlM (lineStep env ops)
              (datas, { beginTime := 0, endTime := 0, start := 1 }) with
          | error fault => rfl
          | ok final => rfl

end Runs

/-! ## Files -/

/-- What `trace-cmd report` prints: its version, the number of CPUs, the events. -/
def reportText (version : List Char) (cpus : Nat) (events : List Event) : List Char :=
  version ++ ('\n' :: ("cpus=".toList ++ (Nat.toDigits 10 cpus ++ ('\n' ::
    (events.map reportLine).flatten))))

section Files

variable {env : Env} {file : FtraceFile} {events : List Event}

theorem events_ne_nil (hdata : file.data = (events.map ftraceLine).flatten) : events ≠ [] := by
  rintro rfl
  exact file.data_line.1 hdata

theorem buffers_lines {line : Event → List Char} (h : ∀ event, WholeLine bufsize (line event)) :
    buffers bufsize (events.map line).flatten = events.map line := by
  have hread : buffers bufsize ((events.map line).flatten ++ []) = events.map line ++ [] :=
    buffers_flatten fun text htext => by
      obtain ⟨event, -, rfl⟩ := List.mem_map.mp htext
      exact h event
  simpa using hread

theorem ftraceComments_events (hkept : Kept file)
    (hdata : file.data = (events.map ftraceLine).flatten) :
    ∃ next lines, next :: lines = events.map ftraceLine ∧
      ftraceComments 0 (reads bufsize file.text) = some (file.n, ⟨next, lines⟩) := by
  obtain ⟨first, rest, hreads, hhead, -⟩ := start_data file
  have hpieces : ∀ line ∈ reads bufsize file.header,
      feof line = false ∧ (cString line).head? = some '#' := fun line hline =>
    ⟨feof_header line hline, hkept.comment _ (List.mem_map_of_mem hline)⟩
  refine ⟨cString first, rest.map cString, ?_, ?_⟩
  · rw [← buffers_lines wholeLine_ftraceLine, ← hdata, buffers, hreads, List.map_cons]
  · rw [reads_text, hreads, ftraceComments_comments hpieces, ftraceComments_data hhead,
      ← buffers, (foldl_afterComment file.n_pos _).mpr hkept.last]

theorem secondLine_report {version : List Char} (hversion : WholeLine bufsize (version ++ ['\n']))
    {cpus : Nat} (hcpus : cpus < 2 ^ 32) {next : List Char} {lines : List (List Char)}
    (hlines : next :: lines = events.map reportLine) :
    secondLine (reportText version cpus events) = some (cpus, ⟨next, lines⟩) := by
  let cpusText := "cpus=".toList ++ Nat.toDigits 10 cpus
  have hword : Plain "cpus=".toList := by decide
  have hfive : "cpus=".toList.length = 5 := rfl
  have hlen : (Nat.toDigits 10 cpus).length ≤ 10 := length_toDigits hcpus
  have hwhole : WholeLine bufsize (cpusText ++ ['\n']) := by
    apply wholeLine_of_plain (hword.append (plain_toDigits cpus))
    rw [List.length_append, hfive]
    omega
  have hboth : ∀ line ∈ [version ++ ['\n'], cpusText ++ ['\n']], WholeLine bufsize line := by
    rw [List.forall_mem_cons, List.forall_mem_singleton]
    exact ⟨hversion, hwhole⟩
  have htext : reportText version cpus events =
      [version ++ ['\n'], cpusText ++ ['\n']].flatten ++ (events.map reportLine).flatten := by
    simp [reportText, cpusText]
  have hread : Spec.u.read (Nat.toDigits 10 cpus ++ ['\n']) = .matched (.uint cpus) ['\n'] :=
    read_u hcpus (by decide)
  have hscan : scanNrcpus cpusFormat (cpusText ++ ['\n']) = cpus := by
    have hlits : sscanf cpusFormat (cpusText ++ ['\n']) =
        sscanf [.conv .u] (Nat.toDigits 10 cpus ++ ['\n']) := sscanf_lits "cpus=".toList
    rw [scanNrcpus, hlits, sscanf_conv hread]
    rfl
  rw [secondLine, htext, buffers_flatten hboth, buffers_lines wholeLine_reportLine, ← hlines]
  simp only [List.cons_append, List.nil_append, hscan]

theorem keptLines_events (hkept : Kept file)
    (hdata : file.data = (events.map ftraceLine).flatten) :
    keptLines file.text = events.map ftraceLine := by
  have hcomments :
      (buffers bufsize file.header).filter (fun line => line.head? ≠ some '#') = [] := by
    rw [List.filter_eq_nil_iff]
    intro line hline
    simp [hkept.comment line hline]
  have hevents : (events.map ftraceLine).filter (fun line => line.head? ≠ some '#') =
      events.map ftraceLine := by
    rw [List.filter_eq_self]
    intro line hline
    obtain ⟨event, -, rfl⟩ := List.mem_map.mp hline
    simpa using head_ftraceLine event
  have hbuffers : buffers bufsize file.text =
      buffers bufsize file.header ++ events.map ftraceLine := by
    rw [buffers, reads_text, List.map_append, ← buffers, ← buffers, hdata,
      buffers_lines wholeLine_ftraceLine]
  rw [keptLines, hbuffers, List.filter_append, hcomments, hevents, List.nil_append]

/-- The kernel's file and the report of the same events give the same datas, and
those of the events; the lines that are stored make the same calls again. -/
theorem import_formats_agree (env : Env) (file : FtraceFile) (hkept : Kept file)
    (events : List Event) (hdata : file.data = (events.map ftraceLine).flatten)
    (version : List Char) (hversion : WholeLine bufsize (version ++ ['\n'])) :
    traceLoad env .ftrace file.text = hostLoad env file.n events ∧
    traceLoad env .tracecmd (reportText version file.n events) = hostLoad env file.n events ∧
    ∀ datas span, ((keptLines file.text).foldlM (lineStep env .idlestat) (datas, span)).map
      Prod.fst = events.foldlM (applyEvent env) datas := by
  have hn : file.n < 2 ^ 32 := by
    obtain ⟨-, buf, -, -, -, -, -, number, rest, -, -, -, hread⟩ := hkept.last
    exact read_uint_lt hread
  refine ⟨?_, ?_, ?_⟩
  · obtain ⟨next, lines, hlines, hcomments⟩ := ftraceComments_events hkept hdata
    refine traceLoad_of_start ?_ (lineEvent_ftraceLine env.strtod) hlines
    rw [loadDatas, ftraceDatas, hcomments]
  · obtain ⟨next, lines, hlines⟩ : ∃ next lines, events.map reportLine = next :: lines :=
      List.exists_cons_of_ne_nil (by simpa using events_ne_nil hdata)
    refine traceLoad_of_start ?_ (lineEvent_reportLine env.strtod) hlines.symm
    rw [loadDatas, tracecmdDatas, secondLine_report hversion hn hlines.symm]
  · intro datas span
    rw [keptLines_events hkept hdata]
    exact foldlM_lines (lineEvent_ftraceLine env.strtod) datas span

end Files

theorem idle_flags_token :
    ∀ token ∈ some "d...", token.toList ≠ [] ∧ ∀ c ∈ token.toList, isSpace c = false := by
  rintro token ⟨⟩
  exact ⟨by decide, by decide⟩

def idleTask : Task :=
  taskOf "<idle>" (some "d...") idle_flags_token

theorem plain_idle : Plain (lineText idleTask (.cpuIdle 1 0) (small 0 1 0) []) := by
  decide +kernel

theorem noComment_idle :
    (lineText idleTask (.cpuIdle 1 0) (small 0 1 0) []).head? ≠ some '#' := by
  decide +kernel

def idleEvent : Event where
  task := idleTask
  record := .cpuIdle 1 0
  numbers := small 0 1 0
  token := "d...".toList
  flags := rfl
  readable := ⟨by decide, by decide⟩
  plain := plain_idle
  fits := by decide +kernel
  noComment := noComment_idle

/-- The kernel's comments up to the number of CPUs, without the picture of the
flags that follows. -/
def idleComments : List (List Char) :=
  ["#", "# entries-in-buffer/entries-written: 1/1   #P:2"].map String.toList

theorem count_idle : ∃ before line after, idleComments = before ++ line :: after ∧
    CountLine 2 line ∧ ∀ other ∈ before ++ after, ∀ m > 0, ¬ CountLine m other := by
  refine ⟨["#".toList], _, [], rfl,
    ⟨"entries-in-buffer/entries-written: 1/1   ".toList, by decide, by decide +kernel⟩, ?_⟩
  rintro other hother m - ⟨writing, -, htext⟩
  obtain rfl := List.mem_singleton.mp hother
  have hlen := congrArg List.length htext
  simp at hlen

theorem tracer_line_idle : "# tracer".toList <+: "# tracer: nop".toList ∧
    '\n' ∉ "# tracer: nop".toList := by
  decide

theorem comment_lines_idle :
    ∀ line ∈ idleComments, line.head? = some '#' ∧ '\n' ∉ line := by
  decide

theorem data_idle : ([idleEvent].map ftraceLine).flatten ≠ [] ∧
    ([idleEvent].map ftraceLine).flatten.head? ≠ some '#' := by
  decide +kernel

def idleFile : FtraceFile where
  tracer := "# tracer: nop".toList
  comments := idleComments
  n := 2
  data := ([idleEvent].map ftraceLine).flatten
  n_pos := by decide
  tracer_line := tracer_line_idle
  comment_lines := comment_lines_idle
  count_line := count_idle
  data_line := data_idle

theorem kept_idleFile : Kept idleFile where
  comment := by decide +kernel
  last := by
    have hbuffers : buffers bufsize idleFile.header = ["# tracer: nop\n".toList, "#\n".toList,
        "# entries-in-buffer/entries-written: 1/1   #P:2\n".toList] := by decide +kernel
    rw [hbuffers]
    refine ⟨["# tracer: nop\n".toList, "#\n".toList], _, [], rfl, by decide +kernel, by simp, ?_⟩
    exact ⟨" entries-in-buffer/entries-written: 1/1   ".toList, "2\n".toList, ['\n'],
      by decide +kernel, by decide, by decide, by decide +kernel⟩

def hostEnv : Env :=
  { pairEnv with host := some pairInfos }

theorem import_formats_agree_idle :
    traceLoad hostEnv .ftrace idleFile.text = hostLoad hostEnv 2 [idleEvent] ∧
    traceLoad hostEnv .tracecmd (reportText "version = 6".toList 2 [idleEvent]) =
      hostLoad hostEnv 2 [idleEvent] ∧
    ∀ datas span, ((keptLines idleFile.text).foldlM (lineStep hostEnv .idlestat)
      (datas, span)).map Prod.fst = [idleEvent].foldlM (applyEvent hostEnv) datas :=
  import_formats_agree hostEnv idleFile kept_idleFile [idleEvent] rfl "version = 6".toList
    (wholeLine_of_plain (by decide) (by decide))

end Idlestat.Theory.ImportFormats
