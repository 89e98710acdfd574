import Idlestat.Model.TracingRun
import Idlestat.Theory.CstateSection
import Idlestat.Theory.StoredTrace
import Idlestat.Theory.TraceSettings

/-! Tracing runs, whichever of their calls fails first. The settings come back on
every path; tracing itself is switched off on some of them only. -/
namespace Idlestat.Theory.TracingRuns

open Idlestat.Library Idlestat.Library.Scan Idlestat.Library.TextFile Idlestat.Model.Topology
  Idlestat.Model.Cstates Idlestat.Model.TopologyFile Idlestat.Model.CstateFile
  Idlestat.Model.Trace Idlestat.Model.StoreFile Idlestat.Model.TracingRun
  Idlestat.Theory.CstateRoundTrip Idlestat.Theory.CstateSection
  Idlestat.Theory.StoredTrace Idlestat.Theory.TraceSettings
open Idlestat.Model.SysfsScan hiding isOnline

section Store

variable {host : Host} {topo : CpuTopology} {initp : Option InitPstates} {nrcpus : Int}
  {startTs endTs : ℚ}

theorem buildInitPstates_ok (topo : CpuTopology) (nrcpus : Int)
    (curfreq : Int → Option (List Char)) :
    ∃ initp, buildInitPstates topo nrcpus curfreq = .ok initp ∧
      ∀ known ∈ initp, known.nrcpus = nrcpus := by
  unfold buildInitPstates
  split
  · exact ⟨none, rfl, by simp⟩
  · have hfreqs : ∀ cpu ∈ cpuNumbers nrcpus, initFreq topo curfreq cpu =
        .ok (if isOnline topo cpu then UInt32.ofInt ((readInt (curfreq cpu)).getD 0) else 0) := by
      intro cpu hcpu
      rw [initFreq, cpuIsOnline_eq (mem_cpuNumbers.mp hcpu).1]
      rfl
    have hall : ∃ freqs, initFreqs topo nrcpus curfreq = .ok freqs :=
      ⟨_, Runs.mapM_eq_ok_map hfreqs⟩
    split
    · next fault hfault =>
      obtain ⟨freqs, hok⟩ := hall
      cases hfault.symm.trans hok
    · exact ⟨_, rfl, by simp⟩

theorem forEachLine_ret {trace : Option (List Char)} (text : List Char) :
    (idlestatFileForEachLine trace storeLine text).1 = 0 ↔ trace.isSome = true := by
  cases trace with
  | none => simp [idlestatFileForEachLine]
  | some trace => simp [storeLines_eq]

theorem any_nrcpus (hinitp : ∀ known ∈ initp, known.nrcpus = nrcpus) :
    initp.any (fun initp => nrcpus ≠ initp.nrcpus) = false := by
  cases hcase : initp with
  | none => rfl
  | some known => simp [hinitp known hcase]

theorem idlestatStore_open (hpos : 0 < host.nprocessors) (hopen : host.canOpen = true)
    (hinitp : ∀ known ∈ initp, known.nrcpus = host.nprocessors) :
    ∃ head last, idlestatStore host startTs endTs initp topo =
      .ok ((idlestatFileForEachLine host.trace storeLine head).1,
        some ((idlestatFileForEachLine host.trace storeLine head).2 ++ last)) := by
  have hknown := any_nrcpus hinitp
  have hnonneg : ¬ host.nprocessors < 0 := by omega
  have honline : ∀ cpu : Nat, (cpu : Int) < host.nprocessors →
      cpuIsOnline topo cpu = .ok (isOnline topo cpu) := fun cpu _ =>
    cpuIsOnline_eq (Int.natCast_nonneg cpu)
  have hcstates : outputCstateInfo topo host.nprocessors host.info =
      .ok ((cpuNumbers host.nprocessors).flatMap (cpuLines (isOnline topo) host.info)).flatten :=
    outputCstateInfo_eq hpos fun cpu hcpu => cpuIsOnline_eq (mem_cpuNumbers.mp hcpu).1
  have hfirst : outputPstatesIf host.pid initp initp topo startTs = .ok (changeLines host.pid
      initp startTs (changedCpus initp (isOnline topo) host.nprocessors)).flatten :=
    outputPstatesIf_eq honline hinitp hinitp
  have hlast : outputPstatesIf host.pid initp none topo endTs = .ok (changeLines host.pid
      none endTs (changedCpus initp (isOnline topo) host.nprocessors)).flatten :=
    outputPstatesIf_eq honline hinitp (by simp)
  simp only [idlestatStore, hnonneg, hknown, hopen, hcstates, hfirst, hlast, if_false,
    Bool.not_true, Bool.false_eq_true, bind, Except.bind]
  exact ⟨_, _, rfl⟩

theorem idlestatStore_ok (hne : host.nprocessors ≠ 0)
    (hinitp : ∀ known ∈ initp, known.nrcpus = host.nprocessors) :
    ∃ ret file, idlestatStore host startTs endTs initp topo = .ok (ret, file) ∧
      (ret = 0 ↔ 0 ≤ host.nprocessors ∧ host.canOpen = true ∧ host.trace.isSome = true) := by
  by_cases hneg : host.nprocessors < 0
  · refine ⟨-1, none, ?_, by omega⟩
    rw [idlestatStore, if_pos hneg]
  · have hpos : 0 < host.nprocessors := by omega
    cases hopen : host.canOpen with
    | false =>
      have hknown := any_nrcpus hinitp
      refine ⟨-1, none, ?_, by simp⟩
      simp only [idlestatStore, hneg, hknown, hopen, if_false, Bool.not_false, if_true,
        Bool.false_eq_true]
    | true =>
      obtain ⟨head, last, hstore⟩ : ∃ head last, idlestatStore host startTs endTs initp topo =
          .ok ((idlestatFileForEachLine host.trace storeLine head).1,
            some ((idlestatFileForEachLine host.trace storeLine head).2 ++ last)) :=
        idlestatStore_open hpos hopen hinitp
      refine ⟨_, _, hstore, ?_⟩
      rw [forEachLine_ret]
      simp [hpos.le]

end Store

section Calls

variable {kernel : Kernel} {script : Script} {cpuTopo : CpuTopology} {tbs : TraceBufferSettings}
  {start s : Session kernel}

theorem idlestatWakeAll_ret {wakeup : Wakeup} {mask : CpuSet} :
    (idlestatWakeAll wakeup mask).1 = 0 ↔ 0 ≤ wakeup.nprocessors ∧ 0 ≤ wakeup.cpu := by
  unfold idlestatWakeAll
  by_cases hnprocessors : wakeup.nprocessors < 0
  · simp [hnprocessors]
  · by_cases hcpu : wakeup.cpu < 0
    · simp [hnprocessors, hcpu]
    · simp only [hnprocessors, hcpu, if_false, true_iff]
      omega

/-- However many CPUs the process has been moved to, its mask is put back. -/
theorem idlestatWakeAll_mask {wakeup : Wakeup} {mask : CpuSet} (h : wakeup.canRestore = true) :
    (idlestatWakeAll wakeup mask).2 = mask := by
  simp only [idlestatWakeAll, h, if_true]
  split
  · rfl
  · split
    · rfl
    · rfl

def succeeds (script : Script) (tbs : TraceBufferSettings) (start : Session kernel) :
    Call → Bool
  | .initTrace =>
    (idlestatInitTrace script.initAccess tbs.percpuBufferSize.toNat start.settings).1 = 0
  | .flushTrace => script.canFlush
  | .startTs => (getTraceTs script.strtod script.startStats start.start).1 = 0
  | .initPstates => true
  | .startTracing => script.canStart
  | .wakeAll => 0 ≤ script.wakeup.nprocessors && 0 ≤ script.wakeup.cpu
  | .execute => execute script.execution = 0
  | .wakeAgain => 0 ≤ script.wakeupAgain.nprocessors && 0 ≤ script.wakeupAgain.cpu
  | .stopTracing => script.canStop
  | .endTs => (getTraceTs script.strtod script.endStats start.finish).1 = 0
  | .store => 0 ≤ script.host.nprocessors && script.host.canOpen && script.canReadTrace

/-- After these calls the kernel records. -/
def recordsAfter : Call → Bool
  | .startTracing | .wakeAll | .execute | .wakeAgain => true
  | _ => false

/-- What the file is to hold: the trace from when tracing is switched on to when
it is switched off, between the two times. -/
def storedTrace (script : Script) (cpuTopo : CpuTopology) (start : Session kernel) :
    Except Fault (Int × Option (List Char)) := do
  let initp ← buildInitPstates cpuTopo script.host.nprocessors script.curfreq
  idlestatStore
    { script.host with
      trace :=
        if script.canReadTrace then
          some (script.header ++ (acquisition.filter recordsAfter).flatMap script.emitted)
        else none }
    (getTraceTs script.strtod script.startStats start.start).2
    (getTraceTs script.strtod script.endStats start.finish).2 initp cpuTopo

/-- What the calls of a run have made of its start; only the last of them may
have failed. -/
structure After (script : Script) (cpuTopo : CpuTopology) (tbs : TraceBufferSettings)
    (start : Session kernel) (past : List Call) (s : Session kernel) : Prop where
  settings : s.settings = if .initTrace ∈ past then
      (idlestatInitTrace script.initAccess tbs.percpuBufferSize.toNat start.settings).2
    else start.settings
  tracingOn : s.tracingOn = (decide (.startTracing ∈ past) && script.canStart &&
    !(decide (.stopTracing ∈ past) && script.canStop))
  trace : .flushTrace ∈ past → (∀ earlier ∈ past, succeeds script tbs start earlier = true) →
    s.trace = (past.filter recordsAfter).flatMap script.emitted
  affinity : script.wakeup.canRestore = true → script.wakeupAgain.canRestore = true →
    s.affinity = start.affinity
  startTs : s.start = if .startTs ∈ past then
    (getTraceTs script.strtod script.startStats start.start).2 else start.start
  finish : s.finish = if .endTs ∈ past then
    (getTraceTs script.strtod script.endStats start.finish).2 else start.finish
  initp : .initPstates ∈ past →
    buildInitPstates cpuTopo script.host.nprocessors script.curfreq = .ok s.initp
  file : if .store ∈ past then
      ∃ ret, storedTrace script cpuTopo start = .ok (ret, s.file) ∧
        (ret = 0 ↔ succeeds script tbs start .store = true)
    else s.file = start.file

theorem not_mem_past {past rest : List Call} {call : Call}
    (h : acquisition = past ++ call :: rest) : call ∉ past := by
  have hnodup : acquisition.Nodup := by decide
  rw [h, List.nodup_append] at hnodup
  intro hmem
  exact hnodup.2.2 call hmem call List.mem_cons_self rfl

theorem past_eq {past rest : List Call} {call : Call}
    (h : acquisition = past ++ call :: rest) : past = acquisition.takeWhile (· ≠ call) := by
  have hpast : ∀ earlier ∈ past, decide (earlier ≠ call) = true := by
    intro earlier hearlier
    simp only [ne_eq, decide_not, Bool.not_eq_eq_eq_not, Bool.not_true, decide_eq_false_iff_not]
    rintro rfl
    exact not_mem_past h hearlier
  rw [h, List.takeWhile_append_of_pos hpast]
  simp

structure Performed (script : Script) (cpuTopo : CpuTopology) (tbs : TraceBufferSettings)
    (s : Session kernel) (event : Call) (ret : Int) (next : Session kernel) : Prop where
  settings : next.settings = if event = .initTrace then
    (idlestatInitTrace script.initAccess tbs.percpuBufferSize.toNat s.settings).2 else s.settings
  tracingOn : next.tracingOn = if event = .startTracing ∧ script.canStart = true then true
    else if event = .stopTracing ∧ script.canStop = true then false else s.tracingOn
  trace : next.trace = if event = .flushTrace ∧ script.canFlush = true then [] else s.trace
  affinity : script.wakeup.canRestore = true → script.wakeupAgain.canRestore = true →
    next.affinity = s.affinity
  startTs : next.start = if event = .startTs then
    (getTraceTs script.strtod script.startStats s.start).2 else s.start
  finish : next.finish = if event = .endTs then
    (getTraceTs script.strtod script.endStats s.finish).2 else s.finish
  initp : if event = .initPstates then
    buildInitPstates cpuTopo script.host.nprocessors script.curfreq = .ok next.initp
    else next.initp = s.initp
  file : if event = .store then
    idlestatStore { script.host with trace := traceText script s } s.start s.finish s.initp
      cpuTopo = .ok (ret, next.file)
    else next.file = s.file

theorem perform_initTrace : perform script cpuTopo tbs s .initTrace =
    .ok ((idlestatInitTrace script.initAccess tbs.percpuBufferSize.toNat s.settings).1,
      { s with settings :=
          (idlestatInitTrace script.initAccess tbs.percpuBufferSize.toNat s.settings).2 }) := rfl

theorem perform_startTs : perform script cpuTopo tbs s .startTs =
    .ok ((getTraceTs script.strtod script.startStats s.start).1,
      { s with start := (getTraceTs script.strtod script.startStats s.start).2 }) := rfl

theorem perform_endTs : perform script cpuTopo tbs s .endTs =
    .ok ((getTraceTs script.strtod script.endStats s.finish).1,
      { s with finish := (getTraceTs script.strtod script.endStats s.finish).2 }) := rfl

theorem perform_wakeAll : perform script cpuTopo tbs s .wakeAll =
    .ok ((idlestatWakeAll script.wakeup s.affinity).1,
      { s with affinity := (idlestatWakeAll script.wakeup s.affinity).2 }) := rfl

theorem perform_wakeAgain : perform script cpuTopo tbs s .wakeAgain =
    .ok ((idlestatWakeAll script.wakeupAgain s.affinity).1,
      { s with affinity := (idlestatWakeAll script.wakeupAgain s.affinity).2 }) := rfl

theorem flush_ret {canOpen : Bool} : (idlestatFlushTrace canOpen s).1 = 0 ↔ canOpen = true := by
  cases canOpen <;> simp [idlestatFlushTrace]

theorem enable_ret {canOpen enable : Bool} :
    (idlestatTraceEnable canOpen enable s).1 = 0 ↔ canOpen = true := by
  cases canOpen <;> simp [idlestatTraceEnable]

theorem performed {event : Call} {ret : Int} {next : Session kernel}
    (h : perform script cpuTopo tbs s event = .ok (ret, next)) :
    Performed script cpuTopo tbs s event ret next := by
  cases event with
  | initTrace =>
    obtain ⟨rfl, rfl⟩ := Prod.mk.inj (Except.ok.inj (perform_initTrace.symm.trans h))
    constructor <;> simp
  | flushTrace =>
    simp only [perform, idlestatFlushTrace] at h
    cases hopen : script.canFlush <;> simp only [hopen] at h <;> cases h <;>
      constructor <;> simp [hopen]
  | startTs =>
    obtain ⟨rfl, rfl⟩ := Prod.mk.inj (Except.ok.inj (perform_startTs.symm.trans h))
    constructor <;> simp
  | initPstates =>
    obtain ⟨initp, hinitp, heq⟩ := Runs.bind_eq_ok h
    cases heq
    constructor <;> simp [hinitp]
  | startTracing =>
    simp only [perform, idlestatTraceEnable] at h
    cases hopen : script.canStart <;> simp only [hopen] at h <;> cases h <;>
      constructor <;> simp [hopen]
  | wakeAll =>
    obtain ⟨rfl, rfl⟩ := Prod.mk.inj (Except.ok.inj (perform_wakeAll.symm.trans h))
    constructor <;> simp +contextual [idlestatWakeAll_mask]
  | execute =>
    cases h
    constructor <;> simp
  | wakeAgain =>
    obtain ⟨rfl, rfl⟩ := Prod.mk.inj (Except.ok.inj (perform_wakeAgain.symm.trans h))
    constructor <;> simp +contextual [idlestatWakeAll_mask]
  | stopTracing =>
    simp only [perform, idlestatTraceEnable] at h
    cases hopen : script.canStop <;> simp only [hopen] at h <;> cases h <;>
      constructor <;> simp [hopen]
  | endTs =>
    obtain ⟨rfl, rfl⟩ := Prod.mk.inj (Except.ok.inj (perform_endTs.symm.trans h))
    constructor <;> simp
  | store =>
    obtain ⟨stored, hstored, heq⟩ := Runs.bind_eq_ok h
    cases heq
    constructor <;> simp [hstored]

theorem record_eq {event : Call} : record script event s =
    { s with trace := if s.tracingOn then s.trace ++ script.emitted event else s.trace } := by
  unfold record
  split
  · rfl
  · rfl

section Step

variable {past rest : List Call} {event : Call} {ret : Int} {next : Session kernel}

theorem perform_ok (hne : script.host.nprocessors ≠ 0)
    (hsplit : acquisition = past ++ event :: rest) (h : After script cpuTopo tbs start past s) :
    ∃ ret next, perform script cpuTopo tbs s event = .ok (ret, next) ∧
      (ret = 0 ↔ succeeds script tbs start event = true) := by
  have hpast := past_eq hsplit
  cases event with
  | initTrace =>
    have hsettings : s.settings = start.settings := by
      rw [h.settings, if_neg (not_mem_past hsplit)]
    refine ⟨_, _, perform_initTrace, ?_⟩
    rw [hsettings]
    simp [succeeds]
  | flushTrace =>
    exact ⟨(idlestatFlushTrace script.canFlush s).1, _, rfl, flush_ret⟩
  | startTs =>
    have hstart : s.start = start.start := by
      rw [h.startTs, if_neg (not_mem_past hsplit)]
    refine ⟨_, _, perform_startTs, ?_⟩
    rw [hstart]
    simp [succeeds]
  | initPstates =>
    obtain ⟨initp, hinitp, -⟩ :=
      buildInitPstates_ok cpuTopo script.host.nprocessors script.curfreq
    refine ⟨0, { s with initp := initp }, ?_, by simp [succeeds]⟩
    rw [perform, hinitp]
    rfl
  | startTracing =>
    exact ⟨(idlestatTraceEnable script.canStart true s).1, _, rfl, enable_ret⟩
  | wakeAll =>
    refine ⟨_, _, perform_wakeAll, ?_⟩
    rw [idlestatWakeAll_ret]
    simp [succeeds]
  | execute =>
    exact ⟨_, _, rfl, by simp [succeeds]⟩
  | wakeAgain =>
    refine ⟨_, _, perform_wakeAgain, ?_⟩
    rw [idlestatWakeAll_ret]
    simp [succeeds]
  | stopTracing =>
    exact ⟨(idlestatTraceEnable script.canStop false s).1, _, rfl, enable_ret⟩
  | endTs =>
    have hfinish : s.finish = start.finish := by
      rw [h.finish, if_neg (not_mem_past hsplit)]
    refine ⟨_, _, perform_endTs, ?_⟩
    rw [hfinish]
    simp [succeeds]
  | store =>
    have hmem : .initPstates ∈ past := by
      rw [hpast]
      decide
    obtain ⟨initp, hinitp, hnrcpus⟩ :=
      buildInitPstates_ok cpuTopo script.host.nprocessors script.curfreq
    obtain rfl : s.initp = initp := Except.ok.inj ((h.initp hmem).symm.trans hinitp)
    let host : Host := { script.host with trace := traceText script s }
    obtain ⟨ret, file, hstore, hret⟩ : ∃ ret file,
        idlestatStore host s.start s.finish s.initp cpuTopo = .ok (ret, file) ∧
        (ret = 0 ↔ 0 ≤ host.nprocessors ∧ host.canOpen = true ∧ host.trace.isSome = true) :=
      idlestatStore_ok hne hnrcpus
    refine ⟨ret, { s with file := file }, ?_, ?_⟩
    · rw [perform, hstore]
      rfl
    · rw [hret]
      cases hread : script.canReadTrace <;> simp [host, succeeds, traceText, hread]

theorem recordsAfter_eq (hsplit : acquisition = past ++ event :: rest) :
    recordsAfter event = (decide (.startTracing ∈ past ++ [event]) &&
      !decide (.stopTracing ∈ past ++ [event])) := by
  rw [past_eq hsplit]
  cases event <;> decide

theorem tracingOn_performed (hsplit : acquisition = past ++ event :: rest)
    (hperformed : Performed script cpuTopo tbs s event ret next)
    (h : After script cpuTopo tbs start past s) :
    next.tracingOn = (decide (.startTracing ∈ past ++ [event]) && script.canStart &&
      !(decide (.stopTracing ∈ past ++ [event]) && script.canStop)) := by
  have hnot := not_mem_past hsplit
  rw [hperformed.tracingOn, h.tracingOn]
  by_cases hstart : event = .startTracing
  · have hstop : .stopTracing ∉ past := by
      rw [past_eq hsplit, hstart]
      decide
    subst hstart
    cases script.canStart <;> simp [hnot, hstop]
  · by_cases hstop : event = .stopTracing
    · subst hstop
      cases script.canStop <;> simp [hnot]
    · simp [hstart, hstop, Ne.symm hstart, Ne.symm hstop]

theorem recording (hsplit : acquisition = past ++ event :: rest)
    (hperformed : Performed script cpuTopo tbs s event ret next)
    (hall : ∀ earlier ∈ past ++ [event], succeeds script tbs start earlier = true)
    (h : After script cpuTopo tbs start past s) : next.tracingOn = recordsAfter event := by
  have hstart : .startTracing ∈ past ++ [event] → script.canStart = true := hall _
  have hstop : .stopTracing ∈ past ++ [event] → script.canStop = true := hall _
  rw [tracingOn_performed hsplit hperformed h, recordsAfter_eq hsplit]
  by_cases hstarted : .startTracing ∈ past ++ [event]
  · by_cases hstopped : .stopTracing ∈ past ++ [event]
    · rw [hstart hstarted, hstop hstopped, Bool.and_true, Bool.and_true]
    · rw [hstart hstarted, Bool.and_true, decide_eq_false hstopped, Bool.false_and]
  · rw [decide_eq_false hstarted, Bool.false_and, Bool.false_and, Bool.false_and]

theorem trace_performed (hsplit : acquisition = past ++ event :: rest)
    (hperformed : Performed script cpuTopo tbs s event ret next)
    (h : After script cpuTopo tbs start past s) (hmem : .flushTrace ∈ past ++ [event])
    (hall : ∀ earlier ∈ past ++ [event], succeeds script tbs start earlier = true) :
    (record script event next).trace =
      ((past ++ [event]).filter recordsAfter).flatMap script.emitted := by
  have hon := recording hsplit hperformed hall h
  rw [record_eq]
  by_cases hevent : event = .flushTrace
  · have hopen : script.canFlush = true := hall .flushTrace hmem
    have hnone : (past ++ [event]).filter recordsAfter = [] := by
      rw [past_eq hsplit, hevent]
      decide
    have hoff : recordsAfter event = false := by rw [hevent]; rfl
    have hempty : next.trace = [] := by rw [hperformed.trace, if_pos ⟨hevent, hopen⟩]
    simp [hnone, hon, hoff, hempty]
  · have hflushed : .flushTrace ∈ past := by simpa [Ne.symm hevent] using hmem
    have htrace := h.trace hflushed fun earlier hearlier =>
      hall earlier (List.mem_append_left _ hearlier)
    have hsame : next.trace = s.trace := by simp [hperformed.trace, hevent]
    rw [hon, hsame, htrace, List.filter_append, List.flatMap_append]
    cases hrecords : recordsAfter event <;> simp [hrecords]

theorem file_performed (hsplit : acquisition = past ++ .store :: rest)
    (hperformed : Performed script cpuTopo tbs s .store ret next)
    (hpast : ∀ earlier ∈ past, succeeds script tbs start earlier = true)
    (h : After script cpuTopo tbs start past s) :
    storedTrace script cpuTopo start = .ok (ret, next.file) := by
  have hpasteq := past_eq hsplit
  have hmem : ∀ earlier ∈ acquisition, earlier ≠ .store → earlier ∈ past := by
    rw [hpasteq]
    decide
  have htrace : s.trace = (acquisition.filter recordsAfter).flatMap script.emitted := by
    rw [h.trace (hmem _ (by decide) (by decide)) hpast, hpasteq]
    rfl
  have hstart := h.startTs
  have hfinish := h.finish
  rw [if_pos (hmem _ (by decide) (by decide))] at hstart hfinish
  rw [storedTrace, h.initp (hmem _ (by decide) (by decide)), ← hstart, ← hfinish, ← htrace]
  exact hperformed.file

theorem after_performed (hsplit : acquisition = past ++ event :: rest)
    (hperformed : Performed script cpuTopo tbs s event ret next)
    (hret : ret = 0 ↔ succeeds script tbs start event = true)
    (hpast : ∀ earlier ∈ past, succeeds script tbs start earlier = true)
    (h : After script cpuTopo tbs start past s) :
    After script cpuTopo tbs start (past ++ [event]) (record script event next) := by
  have hnot := not_mem_past hsplit
  have htrace := trace_performed hsplit hperformed h
  have htracingOn := tracingOn_performed hsplit hperformed h
  have hstored : event = .store →
      ∃ ret, storedTrace script cpuTopo start = .ok (ret, next.file) ∧
        (ret = 0 ↔ succeeds script tbs start .store = true) := by
    rintro rfl
    exact ⟨ret, file_performed hsplit hperformed hpast h, hret⟩
  rw [record_eq] at htrace ⊢
  exact {
    settings := by
      rw [hperformed.settings]
      by_cases hevent : event = .initTrace
      · subst hevent
        simp [h.settings, hnot]
      · simp [h.settings, hevent, Ne.symm hevent]
    tracingOn := htracingOn
    trace := htrace
    affinity := fun hfirst hagain =>
      (hperformed.affinity hfirst hagain).trans (h.affinity hfirst hagain)
    startTs := by
      rw [hperformed.startTs]
      by_cases hevent : event = .startTs
      · subst hevent
        simp [h.startTs, hnot]
      · simp [h.startTs, hevent, Ne.symm hevent]
    finish := by
      rw [hperformed.finish]
      by_cases hevent : event = .endTs
      · subst hevent
        simp [h.finish, hnot]
      · simp [h.finish, hevent, Ne.symm hevent]
    initp := by
      intro hmem
      have hinitp := hperformed.initp
      by_cases hevent : event = .initPstates
      · simpa only [hevent, if_true] using hinitp
      · rw [if_neg hevent] at hinitp
        rw [hinitp]
        exact h.initp (by simpa [Ne.symm hevent] using hmem)
    file := by
      by_cases hevent : event = .store
      · rw [if_pos (by simp [hevent])]
        exact hstored hevent
      · have hfile := hperformed.file
        rw [if_neg hevent] at hfile
        have hsame := h.file
        simp only [List.mem_append, List.mem_singleton, Ne.symm hevent, or_false, hfile]
        exact hsame }

end Step

theorem after_start (hoff : start.tracingOn = false) :
    After script cpuTopo tbs start [] start where
  settings := rfl
  tracingOn := hoff
  trace := by simp
  affinity := fun _ _ => rfl
  startTs := rfl
  finish := rfl
  initp := by simp
  file := rfl

theorem runCalls_ok (hne : script.host.nprocessors ≠ 0) (hoff : start.tracingOn = false) :
    ∃ ret final, runCalls script cpuTopo tbs acquisition start = .ok (ret, final) ∧
      (ret = 0 ↔ ∀ event ∈ acquisition, succeeds script tbs start event = true) ∧
      After script cpuTopo tbs start
        (Runs.made (succeeds script tbs start) acquisition) final := by
  apply Runs.untilFailure_invariant (succeeds script tbs start) (After script cpuTopo tbs start)
    (after_start hoff)
  intro past event rest s hsplit hpast h
  obtain ⟨ret, next, hperform, hret⟩ := perform_ok hne hsplit h
  refine ⟨ret, record script event next, ?_, hret,
    after_performed hsplit (performed hperform) hret hpast h⟩
  rw [call, hperform]
  rfl

end Calls

section Session

variable {kernel : Kernel} {script : Script} {cpuTopo : CpuTopology} {tbs : TraceBufferSettings}
  {start final : Session kernel}

theorem tracingOn_iff (h : After script cpuTopo tbs start
      (Runs.made (succeeds script tbs start) acquisition) final) :
    final.tracingOn = true ↔
      (∀ call ∈ [.initTrace, .flushTrace, .startTs, .startTracing],
        succeeds script tbs start call = true) ∧
      ∃ call ∈ [.wakeAll, .execute, .wakeAgain, .stopTracing],
        succeeds script tbs start call = false := by
  have hstarted : .startTracing ∈ Runs.made (succeeds script tbs start) acquisition ↔
      ∀ call ∈ [.initTrace, .flushTrace, .startTs, .initPstates],
        succeeds script tbs start call = true :=
    Runs.mem_made_iff (show .startTracing ∉ [Call.initTrace, .flushTrace, .startTs, .initPstates] by
      decide)
  have hstopped : .stopTracing ∈ Runs.made (succeeds script tbs start) acquisition ↔
      ∀ call ∈ [.initTrace, .flushTrace, .startTs, .initPstates, .startTracing, .wakeAll,
        .execute, .wakeAgain], succeeds script tbs start call = true :=
    Runs.mem_made_iff (show .stopTracing ∉ [Call.initTrace, .flushTrace, .startTs, .initPstates,
      .startTracing, .wakeAll, .execute, .wakeAgain] by decide)
  have hstart : succeeds script tbs start .startTracing = script.canStart := rfl
  have hstop : succeeds script tbs start .stopTracing = script.canStop := rfl
  have hinitp : succeeds script tbs start .initPstates = true := rfl
  have hfirst : (decide (.startTracing ∈ Runs.made (succeeds script tbs start) acquisition) &&
      script.canStart) = true ↔ ∀ call ∈ [.initTrace, .flushTrace, .startTs, .startTracing],
        succeeds script tbs start call = true := by
    rw [Bool.and_eq_true, decide_eq_true_eq, hstarted]
    simp [hstart, hinitp, and_assoc]
  rw [h.tracingOn, Bool.and_eq_true, hfirst, and_congr_right_iff]
  intro hall
  have hthen : (decide (.stopTracing ∈ Runs.made (succeeds script tbs start) acquisition) &&
      script.canStop) = true ↔ ∀ call ∈ [.wakeAll, .execute, .wakeAgain, .stopTracing],
        succeeds script tbs start call = true := by
    rw [Bool.and_eq_true, decide_eq_true_eq, hstopped]
    simp only [List.forall_mem_cons] at hall ⊢
    simp [hall, hstop, hinitp, and_assoc]
  have hsome : ∀ calls : List Call, (¬ ∀ call ∈ calls, succeeds script tbs start call = true) ↔
      ∃ call ∈ calls, succeeds script tbs start call = false := by
    simp
  rw [Bool.not_eq_true', ← Bool.not_eq_true, hthen, hsome]

theorem restore_succeeds {access : Access} {saved : TraceOptions} {fs : Tracefs kernel}
    (hwrite : ∀ file, access.canWrite file = true) :
    (idlestatRestoreTraceOptions access saved fs).1 = 0 := by
  have hfold : ∀ (list : List Dir) (fs : Tracefs kernel),
      (list.foldl (restoreEvent access) (0, fs)).1 = 0 := by
    intro list
    induction list with
    | nil => exact fun fs => rfl
    | cons dir rest ih =>
      intro fs
      have hstep : restoreEvent access (0, fs) dir = (0, written (.enable dir) 1 fs) := by
        simp [restoreEvent, writeInt_ok (hwrite _)]
      rw [List.foldl_cons, hstep]
      exact ih _
  simp only [idlestatRestoreTraceOptions, writeInt_ok (hwrite _), ne_eq, not_true, if_false]
  exact hfold _ _

theorem After.file_stored {last : Session kernel}
    (h : After script cpuTopo tbs start (Runs.made (succeeds script tbs start) acquisition) last)
    (hall : ∀ call ∈ acquisition, succeeds script tbs start call = true) :
    storedTrace script cpuTopo start = .ok (0, last.file) := by
  have hfile := h.file
  rw [Runs.made_of_succeeds hall, if_pos (by decide)] at hfile
  obtain ⟨stored, hfile, hzero⟩ := hfile
  rw [hfile, hzero.mpr (hall .store (by decide))]

theorem After.file_kept {last : Session kernel}
    (h : After script cpuTopo tbs start (Runs.made (succeeds script tbs start) acquisition) last)
    (hnot : ¬ ∀ call ∈ acquisition, call ≠ .store → succeeds script tbs start call = true) :
    last.file = start.file := by
  have hfile := h.file
  rw [if_neg] at hfile
  · exact hfile
  · intro hmem
    have hbefore : ∀ call ∈ acquisition.takeWhile (· ≠ .store),
        succeeds script tbs start call = true :=
      (Runs.mem_made_iff (show .store ∉ acquisition.takeWhile (· ≠ .store) by decide)).mp hmem
    have hearlier : ∀ call ∈ acquisition, call ≠ .store →
        call ∈ acquisition.takeWhile (· ≠ .store) := by
      decide
    exact hnot fun call hcall hother => hbefore call (hearlier call hcall hother)

/-- Whichever of its calls fails, a run that has saved the settings puts back the
size of the buffer and what was enabled, besides which only its own events are on;
it leaves tracing on exactly if waking the CPUs, the command or stopping the trace
is what fails. If all succeeds, the file holds what was traced. -/
theorem tracing_run (script : Script) (start : Session kernel) (cpuTopo : CpuTopology)
    (saved : TraceOptions) (entries : List FtsEnt)
    (hscan : topoFolderScan script.cpuInfo script.sysfs = .ok (some cpuTopo))
    (hstops : script.stopsFirst = true)
    (hwalk : script.fts = some entries)
    (hfts : ∀ event ∈ kernel.events, .enable (.event event) ∈ entries)
    (hsaved : idlestatStoreTraceOptions script.storeAccess start.settings (some entries) =
      some saved)
    (hne : script.host.nprocessors ≠ 0)
    (hrestore : ∀ file, script.restoreAccess.canWrite file = true) :
    let tbs := (calculateBufferParameters script.duration script.tbs).2
    ∃ ret final, session script start = .ok (ret, final) ∧
      final.settings.bufferSize = start.settings.bufferSize ∧
      (∀ event, final.settings.enabled event = (start.settings.enabled event ||
        (initEvents script.initAccess start.settings).any (event.val = ·))) ∧
      (script.wakeup.canRestore = true → script.wakeupAgain.canRestore = true →
        final.affinity = start.affinity) ∧
      (final.tracingOn = true ↔
        (∀ call ∈ [.initTrace, .flushTrace, .startTs, .startTracing],
          succeeds script tbs start call = true) ∧
        ∃ call ∈ [.wakeAll, .execute, .wakeAgain, .stopTracing],
          succeeds script tbs start call = false) ∧
      (ret = 0 ↔ ∀ call ∈ acquisition, succeeds script tbs start call = true) ∧
      (ret = 0 → storedTrace script cpuTopo start = .ok (0, final.file)) ∧
      (¬ (∀ call ∈ acquisition, call ≠ .store → succeeds script tbs start call = true) →
        final.file = start.file) := by
  intro tbs
  let quiet : Session kernel := { start with tracingOn := false }
  have hsame : succeeds script tbs quiet = succeeds script tbs start := by
    funext call
    cases call <;> rfl
  have hstored : storedTrace script cpuTopo quiet = storedTrace script cpuTopo start := rfl
  obtain ⟨ret, last, hcalls, hret, hlast⟩ : ∃ ret last,
      runCalls script cpuTopo tbs acquisition quiet = .ok (ret, last) ∧
      (ret = 0 ↔ ∀ event ∈ acquisition, succeeds script tbs quiet event = true) ∧
      After script cpuTopo tbs quiet
        (Runs.made (succeeds script tbs quiet) acquisition) last :=
    runCalls_ok hne rfl
  have hbegun : .initTrace ∈ Runs.made (succeeds script tbs quiet) acquisition :=
    (Runs.mem_made_iff List.not_mem_nil).mpr (by simp)
  have hproblem : (idlestatRestoreTraceOptions script.restoreAccess saved last.settings).1 = 0 :=
    restore_succeeds hrestore
  obtain ⟨hsize, henabled⟩ :=
    restore_ok (by rw [(store_ok hsaved).1]; exact start.settings.accepted)
    (eq_of_ret hproblem)
  let final : Session kernel :=
    { last with
      settings := (idlestatRestoreTraceOptions script.restoreAccess saved last.settings).2 }
  have hstop : idlestatTraceEnable script.stopsFirst false start = (0, quiet) := by
    simp [idlestatTraceEnable, hstops, quiet]
  have hbuffer : calculateBufferParameters script.duration script.tbs = (0, tbs) := rfl
  have hsession : session script start = .ok (if ret ≠ 0 then 1 else 0, final) := by
    simp only [session, hscan, hstop, hwalk, hbuffer, bind, Except.bind, ne_eq, not_true, if_false]
    rw [hsaved]
    simp only [hcalls, hproblem, not_true, or_false]
    rfl
  refine ⟨_, final, hsession, ?_, ?_, ?_, ?_, ?_, ?_, ?_⟩
  · exact hsize.trans (store_ok hsaved).1
  · intro event
    rw [show final.settings.enabled event = _ from henabled event,
      store_covers hfts hsaved, hlast.settings, if_pos hbegun, enabled_initTrace]
    cases hdisables : initDisables script.initAccess start.settings <;>
      simp [initEvents, hdisables, quiet]
  · exact hlast.affinity
  · rw [← hsame]
    exact (tracingOn_iff hlast :)
  · rw [← hsame, ← hret]
    simp
  · intro hzero
    have hall : ∀ event ∈ acquisition, succeeds script tbs quiet event = true := by
      rw [← hret]
      simpa using hzero
    exact hstored ▸ hlast.file_stored hall
  · rw [← hsame]
    exact hlast.file_kept

end Session

def onlyCpu : Dirent where
  name := "cpu0".toList
  online := none
  topology := some true
  reopened := true
  coreId := some "0\n".toList
  physicalPackageId := some "0\n".toList

/-- Everything can be opened; the command ends by signal 9. -/
def killed : Script where
  sysfs := some [onlyCpu]
  cpuInfo := fun _ => ⟨0, 0, 0⟩
  stopsFirst := true
  storeAccess := fullAccess
  fts := some walk
  duration := 10
  tbs := ⟨0, 0⟩
  initAccess := fullAccess
  canFlush := true
  startStats := some "entries: 0\nnow ts: 100.5\n".toList
  curfreq := fun _ => some "1000000\n".toList
  canStart := true
  wakeup := ⟨1, 0, fun _ => true, true⟩
  execution := .child (.signaled 9)
  wakeupAgain := ⟨1, 0, fun _ => true, true⟩
  canStop := true
  endStats := some "entries: 0\nnow ts: 101.5\n".toList
  host :=
    { nprocessors := 1, canOpen := true, pid := 7, info := fun _ _ => ⟨none, 0⟩, trace := none }
  canReadTrace := true
  header := "# tracer: nop\n".toList
  emitted := fun _ => []
  restoreAccess := { fullAccess with canWrite := fun _ => true }
  strtod := fun _ => 0

def untraced : Session fewEvents where
  settings := allOff
  tracingOn := true
  trace := []
  affinity := fun cpu => cpu = 0
  start := 0
  finish := 0
  initp := none
  file := none

/-- The settings are as before, but tracing goes on. -/
theorem tracing_run_killed :
    ∃ ret final, session killed untraced = .ok (ret, final) ∧ ret ≠ 0 ∧
      final.settings.bufferSize = 1408 ∧ final.affinity = untraced.affinity ∧
      final.tracingOn = true ∧ final.file = none := by
  obtain ⟨cpuTopo, hscan⟩ : ∃ cpuTopo,
      topoFolderScan killed.cpuInfo killed.sysfs = .ok (some cpuTopo) := ⟨_, rfl⟩
  have hsaved : idlestatStoreTraceOptions killed.storeAccess untraced.settings (some walk) =
      some { bufferSize := 1408, list := [] } := by
    decide +kernel
  obtain ⟨ret, final, hsession, hsize, -, haffinity, hon, hret, -, hfile⟩ :=
    tracing_run killed untraced cpuTopo _ walk hscan rfl rfl walk_complete hsaved (by decide)
      fun _ => rfl
  have hfailed : succeeds killed (calculateBufferParameters killed.duration killed.tbs).2 untraced
      .execute = false := by
    decide +kernel
  refine ⟨ret, final, hsession, ?_, hsize, haffinity rfl rfl, ?_, ?_⟩
  · intro hzero
    have hexecute := hret.mp hzero .execute (by decide)
    rw [hfailed] at hexecute
    cases hexecute
  · refine hon.mpr ⟨?_, .execute, by decide, hfailed⟩
    decide +kernel
  · apply hfile
    intro hall
    have hexecute := hall .execute (by decide) (by decide)
    rw [hfailed] at hexecute
    cases hexecute

end Idlestat.Theory.TracingRuns
