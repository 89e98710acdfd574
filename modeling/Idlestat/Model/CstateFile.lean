import Idlestat.Model.Loaders
import Idlestat.Model.TopologyFile

/-! The C-state section of a trace file: `output_cstate_info` writes it and
`load_and_build_cstate_info` reads it back, one line for a CPU and two for each
of its states. -/
namespace Idlestat.Model.CstateFile

open Idlestat.Library.Scan Idlestat.Library.TextFile Idlestat.Model.Topology
  Idlestat.Model.Cstates Idlestat.Model.TopologyFile
open Idlestat.Model.Loaders hiding loadAndBuildCstateInfo

/-- What `%s` prints; a null pointer is printed as `(null)`. -/
def printString (text : Option (List Char)) : List Char :=
  text.getD "(null)".toList

/-- `"\t%s\n"` -/
def nameText (name : Option (List Char)) : List Char :=
  '\t' :: printString name ++ ['\n']

/-- `"\t%d\n"` -/
def targetText (target : Int) : List Char :=
  '\t' :: printInt target ++ ['\n']

/-- `"cpuid %d:\n"` -/
def cpuidLine (cpu : Int) : List Char :=
  "cpuid ".toList ++ printInt cpu ++ [':', '\n']

def writeCstateInfo (name : Option (List Char)) (target : Int) : List Char :=
  nameText name ++ targetText target

def writeCpuInfo (cpu : Int) (cstates : CpuidleCstates) : List Char :=
  cpuidLine cpu ++ (List.finRange maxcstate).flatMap fun j =>
    writeCstateInfo (cstates.cstate j).name (cstates.cstate j).targetResidency

def cpuNumbers (nrcpus : Int) : List Int :=
  (List.range nrcpus.toNat).map fun cpu : Nat => (cpu : Int)

/-- `info` is what sysfs says about each state of each CPU. -/
def outputCstateInfo (topo : CpuTopology) (nrcpus : Int)
    (info : Int → Fin maxcstate → CstateInfo) : Except Fault (List Char) :=
  if nrcpus ≤ 0 then .error .assertion
  else do
    let sections ← (cpuNumbers nrcpus).mapM fun i => do
      let online ← cpuIsOnline topo i
      .ok (if online then writeCpuInfo i (buildCstateInfo (info i)) else [])
    .ok sections.flatten

/-- The string in the buffer, and the lines still in the file. -/
structure Input where
  buf : List Char
  file : List (List Char)
  deriving DecidableEq

def Input.start (text : List Char) : Option Input :=
  match buffers bufsize text with
  | [] => none
  | buf :: file => some ⟨buf, file⟩

/-- At the end of the file the buffer keeps what it held. -/
def Input.fgets (input : Input) : Input :=
  match input.file with
  | [] => input
  | line :: file => ⟨line, file⟩

/-- `"cpuid %d:\n"` -/
def cpuidFormat : List Directive :=
  lits "cpuid".toList ++ [.space, .conv .d, .lit ':', .space]

/-- `"\t%s\n"` -/
def nameFormat : List Directive :=
  [.space, .conv (.s none), .space]

/-- `"\t%d\n"` -/
def targetFormat : List Directive :=
  [.space, .conv .d, .space]

def nameSize : Nat := 128

/-- What uninitialised memory holds in a round: a fresh `name` and the local
`residency`. -/
structure Uninit where
  name : List Char
  residency : Int

/-- The name a scan leaves, if it fits with its NUL. -/
def scanName (uninit : Uninit) (buf : List Char) : Except Fault (List Char) :=
  match (sscanf nameFormat buf).assigned with
  | [.str text] => if nameSize ≤ text.length then .error .outOfBounds else .ok text
  | _ => .ok uninit.name

def loadCstate (uninit : Uninit) (input : Input) : Except Fault (CstateInfo × Input) := do
  let input := input.fgets
  let name ← scanName uninit input.buf
  let input := input.fgets
  let residency := assignedInt (sscanf targetFormat input.buf) uninit.residency
  .ok ({ name := if name = "(null)".toList then none else some name
         targetResidency := residency }, input)

/-- The loop over the states: what it reads for each of them in turn. -/
def loadStates (uninit : Nat → Uninit) : Nat → Input → Except Fault (List CstateInfo × Input)
  | 0, input => .ok ([], input)
  | n + 1, input => do
    let (info, input) ← loadCstate (uninit 0) input
    let (infos, input) ← loadStates (fun i => uninit (i + 1)) n input
    .ok (info :: infos, input)

def noInfo : CstateInfo := { name := none, targetResidency := 0 }

/-- One element of the array; an error pointer if the CPU's line is not there. -/
def loadCpu (uninit : Nat → Uninit) (topo : CpuTopology) (cpu : Int) (input : Input) :
    Except Fault (Option (CpuidleCstates × Input)) := do
  let online ← cpuIsOnline topo cpu
  if ¬ online then .ok (some (emptyCstates, input))
  else if (sscanf cpuidFormat input.buf).assigned ≠ [.int cpu] then .ok none
  else do
    let (infos, input) ← loadStates uninit maxcstate input
    .ok (some (buildCstateInfo fun i => infos.getD i noInfo, input.fgets))

/-- The loop over the CPUs; every round for a state of a CPU finds memory of its own. -/
def loadCpus (uninit : Int → Nat → Uninit) (topo : CpuTopology) :
    List Int → Input → Except Fault (Option (List CpuidleCstates × Input))
  | [], input => .ok (some ([], input))
  | cpu :: rest, input => do
    match ← loadCpu (uninit cpu) topo cpu input with
    | none => .ok none
    | some (cstates, input) =>
      match ← loadCpus uninit topo rest input with
      | none => .ok none
      | some (array, input) => .ok (some (cstates :: array, input))

def loadAndBuildCstateInfo (uninit : Int → Nat → Uninit) (input : Input) (nrcpus : Int)
    (topo : CpuTopology) : Except Fault (Option (List CpuidleCstates × Input)) :=
  if nrcpus ≤ 0 then .error .assertion
  else loadCpus uninit topo (cpuNumbers nrcpus) input

end Idlestat.Model.CstateFile
