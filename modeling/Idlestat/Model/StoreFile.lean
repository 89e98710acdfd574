import Idlestat.Library.Runs
import Idlestat.Library.ScanFields
import Idlestat.Model.TraceFiles
import Mathlib.Data.Rat.Floor

/-! The file a tracing run leaves behind: `idlestat_store` writes the topology,
the C-states, the first frequencies, the kernel's trace and a last frequency of 0
for each CPU; `idlestat_load` asks each loader in turn whether the file is its. -/
namespace Idlestat.Model.StoreFile

open Idlestat.Library Idlestat.Library.Scan Idlestat.Library.TextFile Idlestat.Model.Topology
  Idlestat.Model.Cstates Idlestat.Model.Recorder Idlestat.Model.TopologyFile
  Idlestat.Model.CstateFile Idlestat.Model.TraceFiles
open Idlestat.Model.Loaders hiding loadAndBuildCstateInfo

/-- `read_int` of a file with this text, or of one that cannot be opened. -/
def readInt (file : Option (List Char)) : Option Int :=
  match file with
  | none => none
  | some text =>
    match (sscanf [.conv .d] text).assigned with
    | [.int n] => some n
    | _ => none

structure InitPstates where
  nrcpus : Int
  freqs : List UInt32
  sized : freqs.length = nrcpus.toNat

/-- 0 for an offline CPU and for one whose `cpuinfo_cur_freq` cannot be read; the
`int` that is read lands in an `unsigned int`. -/
def initFreq (topo : CpuTopology) (curfreq : Int → Option (List Char)) (cpu : Int) :
    Except Fault UInt32 := do
  let online ← cpuIsOnline topo cpu
  .ok (if online then UInt32.ofInt ((readInt (curfreq cpu)).getD 0) else 0)

def initFreqs (topo : CpuTopology) (nrcpus : Int) (curfreq : Int → Option (List Char)) :
    Except Fault (List UInt32) :=
  (cpuNumbers nrcpus).mapM (initFreq topo curfreq)

theorem length_initFreqs {topo : CpuTopology} {nrcpus : Int}
    {curfreq : Int → Option (List Char)} {freqs : List UInt32}
    (h : initFreqs topo nrcpus curfreq = .ok freqs) : freqs.length = nrcpus.toNat := by
  have hlength := (Runs.mapM_eq_ok_iff.mp h).length_eq
  rw [← hlength, cpuNumbers, List.length_map, List.length_range]

/-- `nrcpus` is the number of configured processors. -/
def buildInitPstates (topo : CpuTopology) (nrcpus : Int) (curfreq : Int → Option (List Char)) :
    Except Fault (Option InitPstates) :=
  if nrcpus ≤ 0 then .ok none
  else
    match h : initFreqs topo nrcpus curfreq with
    | .error fault => .error fault
    | .ok freqs => .ok (some ⟨nrcpus, freqs, length_initFreqs h⟩)

/-- `%*s` -/
def padLeft (width : Nat) (text : List Char) : List Char :=
  List.replicate (width - text.length) ' ' ++ text

/-- `%-*s` -/
def padRight (width : Nat) (text : List Char) : List Char :=
  text ++ List.replicate (width - text.length) ' '

def tsSec (ts : ℚ) : Nat := ⌊ts⌋.toNat

def tsUsec (ts : ℚ) : Nat := ⌊(ts - tsSec ts) * 1000000⌋.toNat

/-- `"%16s-%-5d [%03d] .... %5lu.%06lu: cpu_frequency: state=%u cpu_id=%d\n"` -/
def pstateLine (pid : Int) (ts : ℚ) (freq : UInt32) (cpu : Nat) : List Char :=
  padLeft 16 "idlestat".toList ++ '-' :: (padRight 5 (printInt pid) ++ ' ' :: '[' ::
    (zeroPad 3 cpu ++ ']' :: ' ' :: ("....".toList ++ ' ' ::
      (padLeft 5 (Nat.toDigits 10 (tsSec ts)) ++ '.' :: (zeroPad 6 (tsUsec ts) ++ ':' :: ' ' ::
        ("cpu_frequency".toList ++ ':' :: ' ' :: ("state=".toList ++
          (Nat.toDigits 10 freq.toNat ++ (" cpu_id=".toList ++
            (Nat.toDigits 10 cpu ++ ['\n']))))))))))

def outputFreq (initp : Option InitPstates) (cpu : Nat) : Except Fault UInt32 :=
  match initp with
  | none => .ok 0
  | some initp =>
    match initp.freqs[cpu]? with
    | none => .error .outOfBounds
    | some freq => .ok freq

def outputPstate (pid : Int) (initp : Option InitPstates) (topo : CpuTopology) (ts : ℚ)
    (cpu : Nat) : Except Fault (List Char) := do
  let online ← cpuIsOnline topo cpu
  if online then do
    let freq ← outputFreq initp cpu
    .ok (pstateLine pid ts freq cpu)
  else .ok []

def outputPstates (pid : Int) (initp : Option InitPstates) (nrcpus : Int) (topo : CpuTopology)
    (ts : ℚ) : Except Fault (List Char) := do
  let lines ← (List.range nrcpus.toNat).mapM (outputPstate pid initp topo ts)
  .ok lines.flatten

/-- What `store_line` appends to the file, and what it returns. -/
def storeLine (line : List Char) (text : List Char) : Int × List Char :=
  if line.head? = some '#' then (0, text) else (0, text ++ line)

/-- The loop of `idlestat_file_for_each_line`: a handler that does not return 0
ends it. -/
def forEachLine {σ : Type} (handler : List Char → σ → Int × σ) :
    List (List Char) → Int → σ → Int × σ
  | [], ret, data => (ret, data)
  | buffer :: rest, _, data =>
    let (ret, data) := handler buffer data
    if ret ≠ 0 then (ret, data) else forEachLine handler rest ret data

def idlestatFileForEachLine {σ : Type} (file : Option (List Char))
    (handler : List Char → σ → Int × σ) (data : σ) : Int × σ :=
  match file with
  | none => (-1, data)
  | some text => forEachLine handler (buffers bufsize text) 0 data

/-- What storing depends on besides its arguments: the number of configured
processors, whether the file can be opened, the process, the C-states of the host
and the kernel's trace. -/
structure Host where
  nprocessors : Int
  canOpen : Bool
  pid : Int
  info : Int → Fin maxcstate → CstateInfo
  trace : Option (List Char)

def versionLine : List Char :=
  "idlestat version = 0.8\n".toList

/-- `"cpus=%d\n"` -/
def cpusLine (nrcpus : Int) : List Char :=
  "cpus=".toList ++ printInt nrcpus ++ ['\n']

/-- `output_pstates` for a run that knows the first frequencies. -/
def outputPstatesIf (pid : Int) (known freqs : Option InitPstates) (topo : CpuTopology) (ts : ℚ) :
    Except Fault (List Char) :=
  match known with
  | none => .ok []
  | some initp => outputPstates pid freqs initp.nrcpus topo ts

/-- What is returned, and what the file holds if it could be opened. -/
def idlestatStore (host : Host) (startTs endTs : ℚ) (initp : Option InitPstates)
    (cpuTopo : CpuTopology) : Except Fault (Int × Option (List Char)) :=
  if host.nprocessors < 0 then .ok (-1, none)
  else if initp.any fun initp => host.nprocessors ≠ initp.nrcpus then .error .assertion
  else if !host.canOpen then .ok (-1, none)
  else do
    let cstates ← outputCstateInfo cpuTopo host.nprocessors host.info
    let first ← outputPstatesIf host.pid initp initp cpuTopo startTs
    let text := versionLine ++ cpusLine host.nprocessors ++ outfileTopoInfo cpuTopo ++ cstates ++
      first
    let (ret, text) := idlestatFileForEachLine host.trace storeLine text
    let last ← outputPstatesIf host.pid initp none cpuTopo endTs
    .ok (ret, some (text ++ last))

def magic : TraceOps → List Char
  | .idlestat => "idlestat version".toList
  | .ftrace => "# tracer".toList
  | .tracecmd => "version = ".toList

def checkMagic (ops : TraceOps) (text : List Char) : Bool :=
  match buffers bufsize text with
  | [] => false
  | buffer :: _ => buffer.take (magic ops).length = magic ops

/-- The loop over the loaders, in the order in which the linker has placed them;
the file may not exist. -/
def idlestatLoad (env : Env) (file : Option (List Char)) :
    List TraceOps → Except Fault (Option CpuidleDatas)
  | [] => .ok none
  | ops :: rest =>
    match file with
    | none => .ok none
    | some text =>
      if checkMagic ops text then traceLoad env ops text else idlestatLoad env file rest

end Idlestat.Model.StoreFile
