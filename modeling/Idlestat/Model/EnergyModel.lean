import Idlestat.Model.CstateFile
import Idlestat.Model.TraceLine

/-! The energy model file of `energy_model.c`: the template that is written for
a loaded trace, the parser of a filled template, and the lookups of
`calculate_energy_consumption` in the table it builds. -/
namespace Idlestat.Model.EnergyModel

open Idlestat.Library.Scan Idlestat.Library.TextFile Idlestat.Model.Topology
  Idlestat.Model.Cstates Idlestat.Model.Pstates Idlestat.Model.Recorder
  Idlestat.Model.TopologyFile Idlestat.Model.CstateFile Idlestat.Model.TraceLine

/-! ## The template -/

/-- A part of the template: fixed text, or a `?` that is to be replaced. -/
inductive Piece
  | text (text : List Char)
  | unknown

def printUint (n : Nat) : List Char :=
  Nat.toDigits 10 (n % 2 ^ 32)

def templateHeader : List Char :=
  "# This is a energy model template generated by idlestat\n".toList ++
    "# Lines starting with # or which are blank are ignored\n".toList ++
    "# Replace ? with correct values\n".toList

/-- `"clusters %u\n"` -/
def clustersText (clusterCount : Nat) : List Char :=
  "clusters ".toList ++ printUint clusterCount ++ ['\n']

/-- `"cluster%c: %u cap states %u C states\n\n"` -/
def clusterInfoText (clusterNumber numCapStates numCStates : Nat) : List Char :=
  "cluster".toList ++ [printChar (clusterNumber + 65), ':', ' '] ++ printUint numCapStates ++
    " cap states ".toList ++ printUint numCStates ++ " C states\n\n".toList

def rowPieces (first : List Char) : List Piece :=
  [.text (first ++ "\t\t".toList), .unknown, .text ['\t'], .unknown, .text ['\n']]

/-- The last CPU of the last core. With no node in a list its head is read as one. -/
def lastCpu (phy : CpuPhysical) : Except Fault CpuCpu :=
  match phy.coreHead.getLast? with
  | none => .error .outOfBounds
  | some core =>
    match core.cpuHead.getLast? with
    | none => .error .outOfBounds
    | some cpu => .ok cpu

def pstateEntries (pstates : CpufreqPstates) : Except Fault (List CpufreqPstate) :=
  (List.range pstates.max).mapM fun i =>
    match pstates.pstate[i]? with
    | some p => .ok p
    | none => .error .outOfBounds

def cstateEntries (cstates : CpuidleCstates) : Except Fault (List CpuidleCstate) :=
  (List.range (cstates.cstateMax + 1).toNat).mapM fun i => do
    let i ← cstateIndex i
    .ok (cstates.cstate i)

def clusterPieces (datas : CpuidleDatas) (clusterNumber : Nat) (phy : CpuPhysical) :
    Except Fault (List Piece) := do
  let cpu ← lastCpu phy
  let cstates ← deref cpu.cstates
  let pstates ← deref cpu.pstates
  let entries ← pstateEntries (datas.pstates pstates)
  let capStates := entries.filter fun p => p.freq ≠ 0
  let numCStates := ((datas.cstates cstates).cstateMax + 1) % 2 ^ 32
  let states ← cstateEntries (datas.cstates cstates)
  .ok ([.text "\nC-states:\n".toList,
      .text (clusterInfoText clusterNumber capStates.length numCStates.toNat),
      .text "P-states:\n# speed, cluster power, core power\n".toList] ++
    capStates.flatMap (fun p => rowPieces (printUint (p.freq / 1000))) ++
    [.text "\nC-states:\n# name, cluster power, core power\n".toList] ++
    states.flatMap (fun c => rowPieces (printString c.name)) ++ [.text ['\n']])

def clustersPieces (datas : CpuidleDatas) : Nat → List CpuPhysical → Except Fault (List Piece)
  | _, [] => .ok []
  | clusterNumber, phy :: rest => do
    let first ← clusterPieces datas clusterNumber phy
    let others ← clustersPieces datas (clusterNumber + 1) rest
    .ok (first ++ others)

def makeEnergyModelTemplate (datas : CpuidleDatas) : Except Fault (List Piece) := do
  let clusters ← clustersPieces datas 0 datas.topo.physicalHead
  .ok (.text templateHeader :: .text (clustersText datas.topo.physicalHead.length) :: clusters)

def templateText (template : List Piece) : List Char :=
  template.flatMap fun
    | .text text => text
    | .unknown => ['?']

inductive Filled : List Piece → List Char → Prop
  | nil : Filled [] []
  | text {text file : List Char} {rest : List Piece} (h : Filled rest file) :
      Filled (.text text :: rest) (text ++ file)
  | unknown {file : List Char} {rest : List Piece} (n : Nat) (hn : n < 2 ^ 32)
      (h : Filled rest file) : Filled (.unknown :: rest) (Nat.toDigits 10 n ++ file)

/-! ## The table -/

structure PstateEnergyInfo where
  speed : Nat
  clusterPower : Nat
  corePower : Nat

structure CstateEnergyInfo where
  cstateName : List Char
  clusterIdlePower : Nat
  coreIdlePower : Nat

structure WakeupEnergyInfo where
  clusterWakeupEnergy : Nat
  coreWakeupEnergy : Nat

inductive EnergyFileParseState
  | uninitialized
  | parsedClusterInfo
  | parsingCapStates
  | parsingCStates
  deriving DecidableEq

structure ClusterEnergyInfo where
  numberCapStates : Nat
  numberCStates : Nat
  pEnergy : List PstateEnergyInfo
  cEnergy : List CstateEnergyInfo
  wakeupEnergy : WakeupEnergyInfo
  state : EnergyFileParseState

/-! ## Parsing -/

/-- The platform's `char`, the memory that `realloc` returns, and the locals
that a line may leave unset. -/
structure ParseEnv where
  signedChar : Bool
  table : Nat → ClusterEnergyInfo
  tmp : Char
  numberCapStates : Nat
  numberCStates : Nat
  clustW : Nat
  coreW : Nat

/-- The statics and the locals of `parse_energy_model`. `clustp` is an index into
the table. -/
structure EnergyParse where
  clustersInEnergyFile : Nat
  clusterEnergyTable : List ClusterEnergyInfo
  currentCluster : Int
  clustp : Option Nat
  tmp : Char
  numberCapStates : Nat
  numberCStates : Nat
  currentPstate : Nat
  currentCstate : Nat

/-- `"%*s %u"` -/
def clustersFormat : List Directive :=
  [.skip (.s none), .space, .conv .u]

/-- `"cluster%c: %u cap states %u C states"` -/
def clusterInfoFormat : List Directive :=
  lits "cluster".toList ++ [.conv .c, .lit ':', .space, .conv .u, .space] ++ lits "cap".toList ++
    [.space] ++ lits "states".toList ++ [.space, .conv .u, .space, .lit 'C', .space] ++
    lits "states".toList

/-- `"%*s %u %u"` -/
def wakeupFormat : List Directive :=
  [.skip (.s none), .space, .conv .u, .space, .conv .u]

/-- `"%u %u %u"` -/
def pstateFormat : List Directive :=
  [.conv .u, .space, .conv .u, .space, .conv .u]

/-- `"%s %u %u"` -/
def cstateFormat : List Directive :=
  [.conv (.s none), .space, .conv .u, .space, .conv .u]

namespace EnergyParse

variable (env : ParseEnv) (buffer : List Char) (model : EnergyParse)

/-- `*clustp` -/
def cluster : Except Fault (Nat × ClusterEnergyInfo) :=
  match model.clustp with
  | none => .error .nullDeref
  | some i =>
    match model.clusterEnergyTable[i]? with
    | none => .error .outOfBounds
    | some info => .ok (i, info)

def setCluster (i : Nat) (info : ClusterEnergyInfo) : EnergyParse :=
  { model with clusterEnergyTable := model.clusterEnergyTable.set i info }

/-- The number of clusters, once, and a table of this length that nothing clears. -/
def parseClusters : Option EnergyParse :=
  if model.clustersInEnergyFile ≠ 0 then none
  else
    let clusters := match (sscanf clustersFormat buffer).assigned with
      | [.uint clusters] => clusters
      | _ => model.clustersInEnergyFile
    some { model with
      clustersInEnergyFile := clusters
      clusterEnergyTable := (List.range clusters).map env.table }

/-- What the scan of a cluster line leaves in `tmp` and the two numbers. -/
def scanClusterInfo : Char × Nat × Nat :=
  match (sscanf clusterInfoFormat buffer).assigned with
  | [.char tmp, .uint capStates, .uint cStates] => (tmp, capStates, cStates)
  | [.char tmp, .uint capStates] => (tmp, capStates, model.numberCStates)
  | [.char tmp] => (tmp, model.numberCapStates, model.numberCStates)
  | _ => (model.tmp, model.numberCapStates, model.numberCStates)

def parseClusterInfo : Except Fault (Option EnergyParse) :=
  let (tmp, capStates, cStates) := model.scanClusterInfo buffer
  let currentCluster := charValue env.signedChar tmp - 65
  if currentCluster ≥ toInt model.clustersInEnergyFile then .ok none
  else if currentCluster < 0 then .error .outOfBounds
  else
    match model.clusterEnergyTable[currentCluster.toNat]? with
    | none => .error .outOfBounds
    | some info =>
      if info.numberCapStates ≠ 0 then .ok none
      else
        .ok (some ({ model with
          currentCluster := currentCluster
          clustp := some currentCluster.toNat
          tmp := tmp
          numberCapStates := capStates
          numberCStates := cStates }.setCluster currentCluster.toNat { info with
            numberCapStates := capStates
            numberCStates := cStates
            pEnergy := List.replicate capStates ⟨0, 0, 0⟩
            cEnergy := List.replicate cStates ⟨[], 0, 0⟩
            state := .parsedClusterInfo }))

/-- A heading of either table. -/
def parseHeading (state : EnergyFileParseState) : Except Fault (Option EnergyParse) :=
  if model.currentCluster = -1 then .ok none
  else do
    let (i, info) ← model.cluster
    if info.state = .uninitialized then .ok none
    else .ok (some (model.setCluster i { info with state := state }))

def parsePstates : Except Fault (Option EnergyParse) := do
  match ← model.parseHeading .parsingCapStates with
  | none => .ok none
  | some model => .ok (some { model with currentPstate := 0 })

def parseCstates : Except Fault (Option EnergyParse) := do
  match ← model.parseHeading .parsingCStates with
  | none => .ok none
  | some model => .ok (some { model with currentCstate := 0 })

def parseWakeup : Except Fault (Option EnergyParse) :=
  if model.currentCluster = -1 then .ok none
  else do
    let (clustW, coreW) := match (sscanf wakeupFormat buffer).assigned with
      | [.uint clustW, .uint coreW] => (clustW, coreW)
      | [.uint clustW] => (clustW, env.coreW)
      | _ => (env.clustW, env.coreW)
    let (i, info) ← model.cluster
    .ok (some (model.setCluster i { info with wakeupEnergy := ⟨clustW, coreW⟩ }))

def parsePstate (i : Nat) (info : ClusterEnergyInfo) : Option EnergyParse :=
  match (sscanf pstateFormat buffer).assigned with
  | [.uint speed, .uint clustP, .uint coreP] =>
    if model.currentPstate ≥ info.numberCapStates then none
    else some { model.setCluster i { info with
      pEnergy := info.pEnergy.set model.currentPstate ⟨speed, clustP, coreP⟩ } with
      currentPstate := model.currentPstate + 1 }
  | _ => none

/-- A name that does not fit its array, with the NUL, is written past its end. -/
def parseCstate (i : Nat) (info : ClusterEnergyInfo) : Except Fault (Option EnergyParse) :=
  match (sscanf cstateFormat buffer).assigned with
  | .str name :: numbers =>
    if namelen ≤ name.length then .error .outOfBounds
    else
      match numbers with
      | [.uint clustP, .uint coreP] =>
        if model.currentCstate ≥ info.numberCStates then .ok none
        else .ok (some { model.setCluster i { info with
          cEnergy := info.cEnergy.set model.currentCstate ⟨name, clustP, coreP⟩ } with
          currentCstate := model.currentCstate + 1 })
      | _ => .ok none
  | _ => .ok none

def parseRow : Except Fault (Option EnergyParse) :=
  if model.clustp = none then .ok none
  else do
    let (i, info) ← model.cluster
    match info.state with
    | .parsingCapStates => .ok (model.parsePstate buffer i info)
    | .parsingCStates => model.parseCstate buffer i info
    | _ => .ok (some model)

/-- One round of the loop; nothing if the file is refused. -/
def parseLine : Except Fault (Option EnergyParse) :=
  if buffer.head? = some '#' then .ok (some model)
  else if buffer.length = 1 then .ok (some model)
  else if strstr buffer "clusters" then .ok (model.parseClusters env buffer)
  else if strstr buffer "cluster" ∧ ¬ strstr buffer "cluster-" then
    model.parseClusterInfo env buffer
  else if strstr buffer "P-states" then model.parsePstates
  else if strstr buffer "C-states" then model.parseCstates
  else if strstr buffer "wakeup" then model.parseWakeup env buffer
  else model.parseRow buffer

end EnergyParse

def parseLines (env : ParseEnv) : List (List Char) → EnergyParse →
    Except Fault (Option EnergyParse)
  | [], model => .ok (some model)
  | buffer :: rest, model => do
    match ← model.parseLine env buffer with
    | none => .ok none
    | some model => parseLines env rest model

def startModel (env : ParseEnv) : EnergyParse :=
  { clustersInEnergyFile := 0
    clusterEnergyTable := []
    currentCluster := -1
    clustp := none
    tmp := env.tmp
    numberCapStates := env.numberCapStates
    numberCStates := env.numberCStates
    currentPstate := 0
    currentCstate := 0 }

def parseEnergyModel (env : ParseEnv) (file : List Char) : Except Fault (Option EnergyParse) :=
  parseLines env (buffers bufsize file) (startModel env)

/-! ## Looking up -/

def findEntry {α : Type} (found : α → Bool) : Nat → List α → Except Fault (Option α)
  | 0, _ => .ok none
  | _ + 1, [] => .error .outOfBounds
  | n + 1, entry :: rest => if found entry then .ok (some entry) else findEntry found n rest

namespace EnergyParse

variable (model : EnergyParse)

/-- `cluster_energy_table + cluster`, where the number is an `unsigned int`. -/
def tableEntry (cluster : Int) : Except Fault ClusterEnergyInfo :=
  match model.clusterEnergyTable[(cluster % 2 ^ 32).toNat]? with
  | none => .error .outOfBounds
  | some info => .ok info

def findCstateEnergyInfo (cluster : Int) (name : List Char) :
    Except Fault (Option CstateEnergyInfo) := do
  let clustp ← model.tableEntry cluster
  findEntry (fun cp => cp.cstateName = name) clustp.numberCStates clustp.cEnergy

def findPstateEnergyInfo (cluster : Int) (speed : Nat) :
    Except Fault (Option PstateEnergyInfo) := do
  let clustp ← model.tableEntry cluster
  findEntry (fun pp => pp.speed = speed) clustp.numberCapStates clustp.pEnergy

end EnergyParse

/-! ## Consumption -/

/-- What is printed for a cluster: the energy of its P-states and of its C-states,
in power times seconds. -/
structure ClusterEnergy where
  cluster : Int
  caps : ℚ
  idle : ℚ

namespace ClusterEnergy

/-- `cluster_energy` -/
def index (energy : ClusterEnergy) : ℚ :=
  energy.caps + energy.idle

end ClusterEnergy

structure EnergyReport where
  clusters : List ClusterEnergy
  totalEnergy : ℚ

def usToSec (us : ℚ) : ℚ :=
  us / 1000000

def cstateHits (cstates : CpuidleCstates) : Except Fault (List CpuidleCstate) := do
  let entries ← cstateEntries cstates
  .ok (entries.filter fun c => c.nrdata ≠ 0)

def pstateHits (pstates : CpufreqPstates) : Except Fault (List CpufreqPstate) := do
  let entries ← pstateEntries pstates
  .ok (entries.filter fun p => p.freq ≠ 0 ∧ p.count ≠ 0)

namespace EnergyParse

variable (model : EnergyParse) (cluster : Int)

/-- `strcmp` follows the name of every C-state that is looked up. -/
def findCstate (c : CpuidleCstate) : Except Fault (Option CstateEnergyInfo) := do
  let clustp ← model.tableEntry cluster
  match c.name with
  | some name => model.findCstateEnergyInfo cluster name
  | none => if clustp.numberCStates = 0 then .ok none else .error .nullDeref

/-- The loop over the C-states of a record; `power` is the column that counts. -/
def addIdle (power : CstateEnergyInfo → Nat) (cstates : CpuidleCstates) (idl : ℚ) :
    Except Fault ℚ := do
  let hits ← cstateHits cstates
  hits.foldlM (fun idl c => do
    match ← model.findCstate cluster c with
    | none => .ok idl
    | some cp => .ok (idl + c.duration * power cp)) idl

def addCap (power : PstateEnergyInfo → Nat) (pstates : CpufreqPstates) (cap : ℚ) :
    Except Fault ℚ := do
  let hits ← pstateHits pstates
  hits.foldlM (fun cap p => do
    match ← model.findPstateEnergyInfo cluster (p.freq / 1000) with
    | none => .ok cap
    | some pp => .ok (cap + p.duration * power pp)) cap

def addRecords (datas : CpuidleDatas) (idlePower : CstateEnergyInfo → Nat)
    (power : PstateEnergyInfo → Nat) (cstates pstates : Option RecordRef) (sums : ℚ × ℚ) :
    Except Fault (ℚ × ℚ) := do
  let cstates ← deref cstates
  let idl ← model.addIdle cluster idlePower (datas.cstates cstates) sums.1
  let pstates ← deref pstates
  let cap ← model.addCap cluster power (datas.pstates pstates) sums.2
  .ok (idl, cap)

def clusterEnergy (datas : CpuidleDatas) (phy : CpuPhysical) : Except Fault ClusterEnergy := do
  let cluster := phy.physicalId
  let sums ← model.addRecords cluster datas CstateEnergyInfo.clusterIdlePower
    PstateEnergyInfo.clusterPower phy.cstates phy.pstates (0, 0)
  let (idl, cap) ← phy.coreHead.foldlM (fun sums core =>
    core.cpuHead.foldlM (fun sums cpu =>
      model.addRecords cluster datas CstateEnergyInfo.coreIdlePower PstateEnergyInfo.corePower
        cpu.cstates cpu.pstates sums) sums) sums
  .ok ⟨cluster, usToSec cap, usToSec idl⟩

def calculateEnergyConsumption (datas : CpuidleDatas) : Except Fault EnergyReport := do
  let clusters ← datas.topo.physicalHead.mapM (model.clusterEnergy datas)
  .ok ⟨clusters, (clusters.map ClusterEnergy.index).sum⟩

end EnergyParse

end Idlestat.Model.EnergyModel
