import Idlestat.Model.StoreFile

/-! The scan of `/sys/devices/system/cpu`: `topo_folder_scan` over what
`readdir` returns. -/
namespace Idlestat.Model.SysfsScan

open Idlestat.Library.Scan Idlestat.Model.Topology Idlestat.Model.StoreFile

/-- An entry with what is found below it: the texts of the files that can be
opened, and whether `topology`, if there, is a directory. The base directory is
opened once more for each entry. -/
structure Dirent where
  name : List Char
  online : Option (List Char)
  topology : Option Bool
  reopened : Bool
  coreId : Option (List Char)
  physicalPackageId : Option (List Char)

def cpuFilterCb (name : List Char) : Bool :=
  name = "cpuidle".toList || name = "cpufreq".toList

/-- `file_read_value` with `"%d"`, of what was there before. -/
def fileReadValue (file : Option (List Char)) (value : Int) : Int :=
  (readInt file).getD value

def readTopologyCb (direntp : Dirent) (info : TopologyInfo) : TopologyInfo :=
  { info with
    coreId := fileReadValue direntp.coreId info.coreId
    physicalId := fileReadValue direntp.physicalPackageId info.physicalId }

def ignored (direntp : Dirent) : Bool :=
  direntp.name.head? = some '.' || cpuFilterCb direntp.name ||
    direntp.name.take 3 ≠ "cpu".toList

def isOnline (direntp : Dirent) : Option Int :=
  if direntp.name = "cpu0".toList then some 1 else readInt direntp.online

inductive Turn
  | next
  | add (info : TopologyInfo)
  | out
  deriving DecidableEq

/-- `"cpu%d"` of the name of an entry with a topology. `cpu_info` holds something
before it is set. -/
def addTurn (cpuInfo : TopologyInfo) (direntp : Dirent) : Turn :=
  match (sscanf (lits "cpu".toList ++ [.conv .d]) direntp.name).assigned with
  | [.int cpuId] => .add { readTopologyCb direntp cpuInfo with cpuId := cpuId }
  | _ => .out

def scanTurn (cpuInfo : TopologyInfo) (direntp : Dirent) : Turn :=
  if ignored direntp then .next
  else
    match isOnline direntp with
    | none => .out
    | some online =>
      if online = 0 then .next
      else
        match direntp.topology with
        | none => .out
        | some false => .next
        | some true => if direntp.reopened then addTurn cpuInfo direntp else .next

/-- The loop, from this turn on; nothing if the scan fails. What is on the stack
where `cpu_info` comes to lie may be different in every turn. -/
def scanLoop (cpuInfo : Nat → TopologyInfo) : Nat → List Dirent → CpuTopology →
    Except Fault (Option CpuTopology)
  | _, [], result => .ok (some result)
  | turn, direntp :: rest, result =>
    match scanTurn (cpuInfo turn) direntp with
    | .next => scanLoop cpuInfo (turn + 1) rest result
    | .out => .ok none
    | .add info => do
      let result ← addTopoInfo result info
      scanLoop cpuInfo (turn + 1) rest result

def topoFolderScan (cpuInfo : Nat → TopologyInfo) (dir : Option (List Dirent)) :
    Except Fault (Option CpuTopology) :=
  match dir with
  | none => .ok none
  | some entries => scanLoop cpuInfo 0 entries allocCpuTopoInfo

end Idlestat.Model.SysfsScan
