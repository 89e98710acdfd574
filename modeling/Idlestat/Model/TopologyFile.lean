import Idlestat.Library.Scan
import Idlestat.Library.TextFile
import Idlestat.Model.Topology

/-! The topology section of a trace file: `outfile_topo_info` writes it and
`read_cpu_topo_info` reads it back. Whether `char` is signed is up to the
platform. -/
namespace Idlestat.Model.TopologyFile

open Idlestat.Library.Scan Idlestat.Library.TextFile Idlestat.Model.Topology

def bufsize : Nat := 256

/-- What `%c` prints: the `int` as an `unsigned char`. -/
def printChar (n : Int) : Char :=
  Char.ofNat (n % 256).toNat

def clusterText (physicalId : Int) : List Char :=
  "cluster".toList ++ [printChar (physicalId + 65), ':', '\n']

/-- `"\tcore%d\n"` -/
def coreText (coreId : Int) : List Char :=
  "\tcore".toList ++ printInt coreId ++ ['\n']

/-- `"\t\tcpu%d\n"` -/
def cpuText (cpuId : Int) : List Char :=
  "\t\tcpu".toList ++ printInt cpuId ++ ['\n']

def outfileTopoInfo (topoList : CpuTopology) : List Char :=
  topoList.physicalHead.flatMap fun phy =>
    clusterText phy.physicalId ++ phy.coreHead.flatMap fun core =>
      coreText core.coreId ++ core.cpuHead.flatMap fun cpu => cpuText cpu.cpuId

/-- The value of a byte read into a `char`. -/
def charValue (signedChar : Bool) (c : Char) : Int :=
  if signedChar && 128 ≤ c.toNat % 256 then c.toNat % 256 - 256 else c.toNat % 256

/-- `"cluster%c"` -/
def clusterFormat : List Directive :=
  lits "cluster".toList ++ [.conv .c]

/-- `"\tcore%d"` -/
def coreFormat : List Directive :=
  .space :: lits "core".toList ++ [.conv .d]

/-- `"\tcpu%d"` -/
def cpuFormat : List Directive :=
  .space :: lits "cpu".toList ++ [.conv .d]

/-- `"\t\tcpu%d"` -/
def htCpuFormat : List Directive :=
  .space :: .space :: lits "cpu".toList ++ [.conv .d]

/-- Which of the two nested loops is running. -/
inductive Loop
  | clusters
  | cores (isHt : Bool)
  deriving DecidableEq

structure TopoReader where
  loop : Loop
  info : TopologyInfo
  pid : Char
  topo : CpuTopology

/-- What the loops do with a line: go on to the next one, or leave. -/
inductive LineStep
  | fetch (reader : TopoReader)
  | leave

def isComment (buf : List Char) : Bool :=
  buf.head? = some '#' || buf = []

/-- The number a scan assigned, or what the variable held before. -/
def assignedInt (scan : Result) (before : Int) : Int :=
  match scan.assigned with
  | [.int n] => n
  | _ => before

def assignedChar (scan : Result) (before : Char) : Char :=
  match scan.assigned with
  | [.char c] => c
  | _ => before

/-- "Cluster line?" Only a scan that returns 0 ends the section. -/
def clusterLine (signedChar : Bool) (reader : TopoReader) (buf : List Char) : LineStep :=
  let scan := sscanf clusterFormat buf
  if scan.ret = 0 then .leave
  else
    let pid := assignedChar scan reader.pid
    .fetch { reader with
      loop := .cores false
      pid := pid
      info := { reader.info with physicalId := charValue signedChar pid - 65 } }

/-- The ids after a CPU line: in a cluster without core lines a CPU is its own core. -/
def cpuInfo (isHt : Bool) (scan : Result) (info : TopologyInfo) : TopologyInfo :=
  let cpuId := assignedInt scan info.cpuId
  { info with
    coreId := if isHt then info.coreId else cpuId
    cpuId := cpuId }

/-- "Core line?" and "Cpu line?", and back to the outer loop if it is neither. -/
def coreLine (signedChar isHt : Bool) (reader : TopoReader) (buf : List Char) :
    Except Fault LineStep :=
  let scan := sscanf coreFormat buf
  if scan.ret ≠ 0 then
    .ok (.fetch { reader with
      loop := .cores true
      info := { reader.info with coreId := assignedInt scan reader.info.coreId } })
  else
    let scan := sscanf (if isHt then htCpuFormat else cpuFormat) buf
    let info := cpuInfo isHt scan reader.info
    if scan.ret = 0 then .ok (clusterLine signedChar { reader with info := info } buf)
    else do
      let topo ← addTopoInfo reader.topo info
      .ok (.fetch { reader with info := info, topo := topo })

def topoLine (signedChar : Bool) (reader : TopoReader) (buf : List Char) :
    Except Fault LineStep :=
  if isComment buf then .ok (.fetch reader)
  else
    match reader.loop with
    | .clusters => .ok (clusterLine signedChar reader buf)
    | .cores isHt => coreLine signedChar isHt reader buf

/-- What `read_cpu_topo_info` leaves behind: the tree, the line in the buffer
and the lines still in the file. -/
structure TopoRead where
  topo : CpuTopology
  buf : List Char
  file : List (List Char)

/-- The loops over the buffer and the lines behind it; an error pointer if the
lines run out. -/
def readTopoLines (signedChar : Bool) (reader : TopoReader) :
    List (List Char) → Except Fault (Option TopoRead)
  | [] => .ok none
  | buf :: file => do
    match ← topoLine signedChar reader buf with
    | .leave => .ok (some { topo := reader.topo, buf := buf, file := file })
    | .fetch reader => readTopoLines signedChar reader file

/-- `info` and `pid` start with whatever the stack holds. -/
def readCpuTopoInfo (signedChar : Bool) (info : TopologyInfo) (pid : Char) (buf : List Char)
    (file : List (List Char)) : Except Fault (Option TopoRead) :=
  readTopoLines signedChar { loop := .clusters, info := info, pid := pid, topo := allocCpuTopoInfo }
    (buf :: file)

end Idlestat.Model.TopologyFile
