import Idlestat.Model.SysfsScan
import Idlestat.Model.Trace

/-! A tracing run: the part of `main` that sets up the kernel's tracing, records,
writes the file and puts the settings back. A run is over what each call meets:
the files it can open, what they hold, and how the command ends. -/
namespace Idlestat.Model.TracingRun

open Idlestat.Library Idlestat.Library.Scan Idlestat.Library.TextFile Idlestat.Model.Topology
  Idlestat.Model.TopologyFile Idlestat.Model.TraceLine Idlestat.Model.Trace
  Idlestat.Model.StoreFile Idlestat.Model.SysfsScan

/-- `"%*[^:]:%lf"` -/
def traceTsFormat : List Directive :=
  [.skip (.noneOf [':']), .lit ':', .conv .lf]

/-- The first line with `now ts` decides. -/
def getTraceTs (strtod : List Char → ℚ) (stats : Option (List Char)) (ts : ℚ) : Int × ℚ :=
  match stats with
  | none => (-1, ts)
  | some text =>
    match (buffers bufsize text).find? (strstr · "now ts") with
    | none => (-1, ts)
    | some buffer =>
      match (sscanf traceTsFormat buffer).assigned with
      | [.float value] => (0, strtod value)
      | _ => (-1, ts)

abbrev CpuSet := Nat → Bool

/-- What `sysconf` and `sched_getcpu` return, and which masks can be set. -/
structure Wakeup where
  nprocessors : Int
  cpu : Int
  canMove : Nat → Bool
  canRestore : Bool

def wakeCpu (wakeup : Wakeup) (original : CpuSet) (mask : CpuSet) (i : Nat) : CpuSet :=
  if (i : Int) = wakeup.cpu then mask
  else if !original i then mask
  else if wakeup.canMove i then fun j => j = i
  else mask

def idlestatWakeAll (wakeup : Wakeup) (original : CpuSet) : Int × CpuSet :=
  if wakeup.nprocessors < 0 then (-1, original)
  else if wakeup.cpu < 0 then (-1, original)
  else
    let mask := (List.range wakeup.nprocessors.toNat).foldl (wakeCpu wakeup original) original
    (0, if wakeup.canRestore then original else mask)

inductive Status
  | exited
  | signaled (sig : Nat)

def sigterm : Nat := 15

/-- What `sleep` returns, or whether there is a child and how it ended. -/
inductive Execution
  | sleep (unslept : Nat)
  | noFork
  | child (status : Status)

def execute : Execution → Int
  | .sleep unslept => unslept
  | .noFork => -1
  | .child .exited => 0
  | .child (.signaled sig) => if sig = sigterm then 0 else -1

/-- The calls after the settings have been saved, in order; a failure of one
skips the rest. -/
inductive Call
  | initTrace
  | flushTrace
  | startTs
  | initPstates
  | startTracing
  | wakeAll
  | execute
  | wakeAgain
  | stopTracing
  | endTs
  | store
  deriving DecidableEq

def acquisition : List Call :=
  [.initTrace, .flushTrace, .startTs, .initPstates, .startTracing, .wakeAll, .execute, .wakeAgain,
    .stopTracing, .endTs, .store]

/-- What the calls of a run meet. `emitted` is what the kernel has to record
between a call and the next one, and `header` the comments above it in the trace
file; `cpuInfo` is the stack under the scan of sysfs. -/
structure Script where
  sysfs : Option (List Dirent)
  cpuInfo : Nat → TopologyInfo
  stopsFirst : Bool
  storeAccess : Access
  fts : Option (List FtsEnt)
  duration : UInt32
  tbs : TraceBufferSettings
  initAccess : Access
  canFlush : Bool
  startStats : Option (List Char)
  curfreq : Int → Option (List Char)
  canStart : Bool
  wakeup : Wakeup
  execution : Execution
  wakeupAgain : Wakeup
  canStop : Bool
  endStats : Option (List Char)
  host : Host
  canReadTrace : Bool
  header : List Char
  emitted : Call → List Char
  restoreAccess : Access
  strtod : List Char → ℚ

/-- The kernel's tracing, the mask of the process, the locals of `main`, and the
file. -/
structure Session (kernel : Kernel) where
  settings : Tracefs kernel
  tracingOn : Bool
  trace : List Char
  affinity : CpuSet
  start : ℚ
  finish : ℚ
  initp : Option InitPstates
  file : Option (List Char)

section Run

variable {kernel : Kernel} (script : Script)

def idlestatTraceEnable (canOpen enable : Bool) (s : Session kernel) : Int × Session kernel :=
  if canOpen then (0, { s with tracingOn := enable }) else (-1, s)

/-- Opening the trace file for writing empties it. -/
def idlestatFlushTrace (canOpen : Bool) (s : Session kernel) : Int × Session kernel :=
  if canOpen then (0, { s with trace := [] }) else (-1, s)

def traceText (s : Session kernel) : Option (List Char) :=
  if script.canReadTrace then some (script.header ++ s.trace) else none

def perform (cpuTopo : CpuTopology) (tbs : TraceBufferSettings) (s : Session kernel) :
    Call → Except Fault (Int × Session kernel)
  | .initTrace =>
    let (ret, settings) :=
      idlestatInitTrace script.initAccess tbs.percpuBufferSize.toNat s.settings
    .ok (ret, { s with settings := settings })
  | .flushTrace => .ok (idlestatFlushTrace script.canFlush s)
  | .startTs =>
    let (ret, ts) := getTraceTs script.strtod script.startStats s.start
    .ok (ret, { s with start := ts })
  | .initPstates => do
    let initp ← buildInitPstates cpuTopo script.host.nprocessors script.curfreq
    .ok (0, { s with initp := initp })
  | .startTracing => .ok (idlestatTraceEnable script.canStart true s)
  | .wakeAll =>
    let (ret, mask) := idlestatWakeAll script.wakeup s.affinity
    .ok (ret, { s with affinity := mask })
  | .execute => .ok (execute script.execution, s)
  | .wakeAgain =>
    let (ret, mask) := idlestatWakeAll script.wakeupAgain s.affinity
    .ok (ret, { s with affinity := mask })
  | .stopTracing => .ok (idlestatTraceEnable script.canStop false s)
  | .endTs =>
    let (ret, ts) := getTraceTs script.strtod script.endStats s.finish
    .ok (ret, { s with finish := ts })
  | .store => do
    let (ret, file) ← idlestatStore { script.host with trace := traceText script s } s.start
      s.finish s.initp cpuTopo
    .ok (ret, { s with file := file })

/-- While tracing is on the kernel records. -/
def record (call : Call) (s : Session kernel) : Session kernel :=
  if s.tracingOn then { s with trace := s.trace ++ script.emitted call } else s

def call (cpuTopo : CpuTopology) (tbs : TraceBufferSettings) (s : Session kernel)
    (call : Call) : Except Fault (Int × Session kernel) := do
  let (ret, s) ← perform script cpuTopo tbs s call
  .ok (ret, record script call s)

/-- `if (call()) goto err_restore_trace_options;`, for one call after the other. -/
def runCalls (cpuTopo : CpuTopology) (tbs : TraceBufferSettings) :
    List Call → Session kernel → Except Fault (Int × Session kernel) :=
  Runs.untilFailure (call script cpuTopo tbs)

/-- The tracing part of `main`; 1 is what it returns, 0 goes on to the report. -/
def session (s : Session kernel) : Except Fault (Int × Session kernel) := do
  match ← topoFolderScan script.cpuInfo script.sysfs with
  | none => .ok (1, s)
  | some cpuTopo =>
    let (ret, s) := idlestatTraceEnable script.stopsFirst false s
    if ret ≠ 0 then .ok (1, s)
    else
      match idlestatStoreTraceOptions script.storeAccess s.settings script.fts with
      | none => .ok (1, s)
      | some saved =>
        let (ret, tbs) := calculateBufferParameters script.duration script.tbs
        if ret ≠ 0 then .ok (1, s)
        else do
          let (ret, s) ← runCalls script cpuTopo tbs acquisition s
          let (problem, settings) :=
            idlestatRestoreTraceOptions script.restoreAccess saved s.settings
          .ok (if ret ≠ 0 ∨ problem ≠ 0 then 1 else 0, { s with settings := settings })

end Run

end Idlestat.Model.TracingRun
