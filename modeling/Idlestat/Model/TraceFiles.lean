import Idlestat.Model.CstateFile
import Idlestat.Model.TraceLine

/-! The three trace-file loaders. Each finds the number of CPUs in the file and
takes the topology and the C-state names either from the file or from the host;
then `setup_topo_states` and one `load_text_data_line` for each line left. -/
namespace Idlestat.Model.TraceFiles

open Idlestat.Library.Scan Idlestat.Library.TextFile Idlestat.Model.Topology
  Idlestat.Model.Cstates Idlestat.Model.Pstates Idlestat.Model.Recorder
  Idlestat.Model.TopologyFile Idlestat.Model.CstateFile Idlestat.Model.TraceLine
open Idlestat.Model.Loaders hiding loadAndBuildCstateInfo

/-- What a load depends on besides the file: the platform's `char`, the locals
and the memory that are read before they are set, the CPUs that the scan of the
host's sysfs meets (nothing if it fails), the host's C-states, and the value of
a decimal text. -/
structure Env where
  signedChar : Bool
  cpuInfo : TopologyInfo
  pid : Char
  uninit : Int → Nat → Uninit
  host : Option (List TopologyInfo)
  info : Int → Fin maxcstate → CstateInfo
  strtod : List Char → ℚ

/-- What a loader has built when it calls `load_text_data_lines`, and the line
in its buffer with those still in the file. -/
structure Load where
  datas : CpuidleDatas
  input : Input

inductive TraceOps
  | idlestat
  | ftrace
  | tracecmd
  deriving DecidableEq

def TraceOps.format : TraceOps → List Directive
  | .idlestat => traceFormat
  | .ftrace => traceFormat
  | .tracecmd => traceCmdReportFormat

/-- `"cpus=%u"` -/
def cpusFormat : List Directive :=
  lits "cpus=".toList ++ [.conv .u]

/-- `"#%*[^#]#P:%u"` -/
def ftraceCpusFormat : List Directive :=
  .lit '#' :: .skip (.noneOf ['#']) :: lits "#P:".toList ++ [.conv .u]

/-- The number scanned, 0 if the scan does not return 1. -/
def scanNrcpus (format : List Directive) (buf : List Char) : Nat :=
  match (sscanf format buf).assigned with
  | [.uint n] => n
  | _ => 0

/-- The second line names the number, and there has to be a third. -/
def secondLine (text : List Char) : Option (Nat × Input) :=
  match buffers bufsize text with
  | _ :: cpus :: buf :: file => some (scanNrcpus cpusFormat cpus, ⟨buf, file⟩)
  | _ => none

/-- `feof` after a call that read `line`: it met the end before a newline and
before the buffer was full. -/
def feof (line : List Char) : Bool :=
  line.getLast? ≠ some '\n' && line.length + 1 < bufsize

/-- The loop over the comment lines: each but a `#P:` line sets the number, to 0
where it has none. -/
def ftraceComments (nrcpus : Nat) : List (List Char) → Option (Nat × Input)
  | [] => none
  | line :: rest =>
    let buf := cString line
    if feof line || buf.head? ≠ some '#' then some (nrcpus, ⟨buf, rest.map cString⟩)
    else if buf.take 3 = "#P:".toList then ftraceComments nrcpus rest
    else ftraceComments (scanNrcpus ftraceCpusFormat buf) rest

/-- `datas->nrcpus` is an `int`. An array with a negative number of elements
cannot be allocated. -/
def checkNrcpus (nrcpus : Nat) : Option Int :=
  if nrcpus = 0 ∨ toInt nrcpus < 0 then none else some (toInt nrcpus)

def nativeDatas (nrcpus : Int) (topo : CpuTopology) (cstates : List CpuidleCstates) :
    CpuidleDatas :=
  { nrcpus := nrcpus
    topo := topo
    cstates := fun
      | .percpu cpu => cstates.getD cpu.toNat emptyCstates
      | _ => emptyCstates
    pstates := fun _ => buildPstateInfo }

def idlestatDatas (env : Env) (text : List Char) : Except Fault (Option Load) :=
  match secondLine text with
  | none => .ok none
  | some (cpus, input) =>
    match checkNrcpus cpus with
    | none => .ok none
    | some nrcpus => do
      match ← readCpuTopoInfo env.signedChar env.cpuInfo env.pid input.buf input.file with
      | none => .ok none
      | some read =>
        match ← loadAndBuildCstateInfo env.uninit ⟨read.buf, read.file⟩ nrcpus read.topo with
        | none => .ok none
        | some (cstates, input) => .ok (some ⟨nativeDatas nrcpus read.topo cstates, input⟩)

def readSysfsCpuTopo (host : Option (List TopologyInfo)) : Except Fault (Option CpuTopology) :=
  match host with
  | none => .ok none
  | some infos => do
    let topo ← infos.foldlM addTopoInfo allocCpuTopoInfo
    .ok (some topo)

def sysfsDatas (env : Env) (start : Option (Nat × Input)) : Except Fault (Option Load) :=
  match start with
  | none => .ok none
  | some (cpus, input) =>
    match checkNrcpus cpus with
    | none => .ok none
    | some nrcpus => do
      match ← readSysfsCpuTopo env.host with
      | none => .ok none
      | some topo => .ok (some ⟨loadedDatas .sysfs nrcpus topo env.info, input⟩)

def ftraceDatas (env : Env) (text : List Char) : Except Fault (Option Load) :=
  sysfsDatas env (ftraceComments 0 (reads bufsize text))

def tracecmdDatas (env : Env) (text : List Char) : Except Fault (Option Load) :=
  sysfsDatas env (secondLine text)

/-- An error pointer for a file that is refused. -/
def loadDatas (env : Env) (text : List Char) : TraceOps → Except Fault (Option Load)
  | .idlestat => idlestatDatas env text
  | .ftrace => ftraceDatas env text
  | .tracecmd => tracecmdDatas env text

def lineStep (env : Env) (ops : TraceOps) (state : CpuidleDatas × LogSpan) (buffer : List Char) :
    Except Fault (CpuidleDatas × LogSpan) := do
  let line ← loadTextDataLine env.strtod buffer state.1 ops.format state.2
  .ok (line.datas, line.span)

def loadTextDataLines (env : Env) (ops : TraceOps) (load : Load) : Except Fault CpuidleDatas := do
  let datas ← setupTopoStates load.datas
  let final ← (load.input.buf :: load.input.file).foldlM (lineStep env ops)
    (datas, { beginTime := 0, endTime := 0, start := 1 })
  .ok final.1

def traceLoad (env : Env) (ops : TraceOps) (text : List Char) :
    Except Fault (Option CpuidleDatas) := do
  match ← loadDatas env text ops with
  | none => .ok none
  | some load => do
    let datas ← loadTextDataLines env ops load
    .ok (some datas)

end Idlestat.Model.TraceFiles
