import Idlestat.Library.Scan

/-! Saving, changing and restoring the kernel's trace settings: `trace.c` over
the files of tracefs, and the default size of the trace buffer. Which files can
be opened is up to each call; a write that the kernel refuses goes unnoticed, as
`write_int` looks at `fopen` only. -/
namespace Idlestat.Model.Trace

open Idlestat.Library.Scan

structure Event where
  group : String
  name : String
  deriving DecidableEq

/-- The directories with an `enable` file. -/
inductive Dir
  | events
  | group (name : String)
  | event (event : Event)
  deriving DecidableEq

/-- Whether an event is below a directory. -/
def Dir.covers : Dir → Event → Bool
  | .events, _ => true
  | .group name, e => e.group = name
  | .event own, e => e = own

inductive File
  | bufferSizeKb
  | bufferTotalSizeKb
  | enable (dir : Dir)
  deriving DecidableEq

/-- The events a kernel has, and the buffer sizes in kB it can set. -/
structure Kernel where
  events : List Event
  accepts : Int → Bool
  acceptsInt : ∀ size, accepts size = true → IsInt size

@[ext] structure Tracefs (kernel : Kernel) where
  bufferSize : Int
  enabled : { event : Event // event ∈ kernel.events } → Bool
  accepted : kernel.accepts bufferSize = true

/-- The files that a call can open, and what `buffer_total_size_kb` holds. -/
structure Access where
  canRead : File → Bool
  canWrite : File → Bool
  total : List Char

section Files

variable {kernel : Kernel} (access : Access) (file : File) (val : Int) (fs : Tracefs kernel)

/-- `1` if all events below are enabled, `0` if none is. -/
def enableChar (dir : Dir) : Char :=
  let below := kernel.events.attach.filter fun event => dir.covers event.val
  if below.all fs.enabled then '1' else if below.any fs.enabled then 'X' else '0'

def content : List Char :=
  match file with
  | .bufferSizeKb => printInt fs.bufferSize ++ ['\n']
  | .bufferTotalSizeKb => access.total
  | .enable dir => [enableChar fs dir, '\n']

def written : Tracefs kernel :=
  match file with
  | .bufferSizeKb =>
    if h : kernel.accepts val = true then { fs with bufferSize := val, accepted := h } else fs
  | .bufferTotalSizeKb => fs
  | .enable dir =>
    if val = 0 ∨ val = 1 then
      { fs with
        enabled := fun event => if dir.covers event.val then val = 1 else fs.enabled event }
    else fs

def writeInt : Int × Tracefs kernel :=
  if access.canWrite file then (0, written file val fs) else (-1, fs)

def readInt : Option Int :=
  if access.canRead file then
    match (sscanf [.conv .d] (content access file fs)).assigned with
    | [.int n] => some n
    | _ => none
  else none

def readChar : Option Char :=
  if access.canRead file then (content access file fs).head? else none

end Files

/-- `list` holds the directories whose `enable` file is to be set again. -/
structure TraceOptions where
  bufferSize : Int
  list : List Dir
  deriving DecidableEq

/-- What `fts_read` returns: an error, an `enable` file, or anything else. -/
inductive FtsEnt
  | err
  | enable (dir : Dir)
  | other

section Store

variable {kernel : Kernel} (access : Access) (fs : Tracefs kernel)

def scanEntries : List FtsEnt → List Dir → Option (List Dir)
  | [], head => some head
  | .err :: _, _ => none
  | .other :: rest, head => scanEntries rest head
  | .enable dir :: rest, head =>
    match readChar access (.enable dir) fs with
    | none => none
    | some value => scanEntries rest (if value = '1' then dir :: head else head)

/-- There is no walk if `fts_open` fails. -/
def eventsScan (fts : Option (List FtsEnt)) (head : List Dir) : Option (List Dir) :=
  match fts with
  | none => none
  | some entries => scanEntries access fs entries head

def idlestatStoreTraceOptions (fts : Option (List FtsEnt)) : Option TraceOptions :=
  match readInt access .bufferSizeKb fs with
  | none => none
  | some bufferSize =>
    match eventsScan access fs fts [] with
    | none => none
    | some list => some { bufferSize := bufferSize, list := list }

end Store

structure TraceBufferSettings where
  percpuBufferSize : UInt32
  pollInterval : UInt32
  deriving DecidableEq

def traceIdleNrhitsPerSec : UInt32 := 10000
def traceIdleLength : UInt32 := 196
def traceCpufreqNrhitsPerSec : UInt32 := 100
def traceCpufreqLength : UInt32 := 196

/-- The default size in kB; the variable and all of its operands are `unsigned int`. -/
def defBufsize (pollInterval : UInt32) : UInt32 :=
  let defBufsize := 2 * traceIdleLength
  let defBufsize := defBufsize * traceIdleNrhitsPerSec
  let defBufsize := defBufsize + traceCpufreqLength * traceCpufreqNrhitsPerSec
  let defBufsize := defBufsize * pollInterval / ((1 : UInt32) <<< 10)
  defBufsize + 1

def calculateBufferParameters (duration : UInt32) (tbs : TraceBufferSettings) :
    Int × TraceBufferSettings :=
  let tbs := if tbs.pollInterval = 0 then { tbs with pollInterval := duration } else tbs
  let tbs := if tbs.percpuBufferSize = 0 then
      { tbs with percpuBufferSize := defBufsize tbs.pollInterval }
    else tbs
  (0, tbs)

def cpuIdle : Event := ⟨"power", "cpu_idle"⟩
def cpuFrequency : Event := ⟨"power", "cpu_frequency"⟩
def irqHandlerEntry : Event := ⟨"irq", "irq_handler_entry"⟩
def ipiEntry : Event := ⟨"ipi", "ipi_entry"⟩

def traceEventPath : File := .enable .events
def traceCpuidleEventPath : File := .enable (.event cpuIdle)
def traceCpufreqEventPath : File := .enable (.event cpuFrequency)
def traceIrqEventPath : File := .enable (.event irqHandlerEntry)
def traceIpiEventPath : File := .enable (.event ipiEntry)

section InitRestore

variable {kernel : Kernel} (access : Access)

def idlestatInitTrace (percpuBufsize : Nat) (fs : Tracefs kernel) : Int × Tracefs kernel :=
  let (ret, fs) := writeInt access .bufferSizeKb (toInt percpuBufsize) fs
  if ret ≠ 0 then (-1, fs)
  else if readInt access .bufferTotalSizeKb fs = none then (-1, fs)
  else
    let (ret, fs) := writeInt access traceEventPath 0 fs
    if ret ≠ 0 then (-1, fs)
    else
      let (ret, fs) := writeInt access traceCpuidleEventPath 1 fs
      if ret ≠ 0 then (-1, fs)
      else
        let (ret, fs) := writeInt access traceCpufreqEventPath 1 fs
        if ret ≠ 0 then (-1, fs)
        else
          let (ret, fs) := writeInt access traceIrqEventPath 1 fs
          if ret ≠ 0 then (-1, fs)
          else
            -- a kernel without ipi events is no error
            let (_, fs) := writeInt access traceIpiEventPath 1 fs
            (0, fs)

def restoreEvent (state : Int × Tracefs kernel) (dir : Dir) : Int × Tracefs kernel :=
  let (ret, fs) := writeInt access (.enable dir) 1 state.2
  (if ret ≠ 0 then -1 else state.1, fs)

def idlestatRestoreTraceOptions (options : TraceOptions) (fs : Tracefs kernel) :
    Int × Tracefs kernel :=
  let (ret, fs) := writeInt access .bufferSizeKb options.bufferSize fs
  options.list.foldl (restoreEvent access) (if ret ≠ 0 then -1 else 0, fs)

end InitRestore

end Idlestat.Model.Trace
