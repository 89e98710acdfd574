import Idlestat.Model.Loaders

/-! The comparison report: the display loops of `idlestat.c` and the callbacks of
`comparison_report.c` they drive. A baseline entry is handed over first and kept
until the entry of the main trace arrives. -/
namespace Idlestat.Model.Report

open Idlestat.Model.Topology Idlestat.Model.Cstates Idlestat.Model.Pstates
  Idlestat.Model.Recorder Idlestat.Model.Loaders

/-- The callbacks of `struct report_ops` that one table uses, over a report data `σ`. -/
structure ReportOps (α σ : Type) where
  cpuHeader : List Char → σ → σ
  baseline : Option (α → σ → Except Fault σ)
  single : α → σ → Except Fault σ
  endCpu : σ → Except Fault σ

section Display

variable {α σ : Type}

def displayState (ops : ReportOps α σ) (hits : α → Nat) (cpu : List Char) (turn : σ × Bool)
    (entry : α × Option α) : Except Fault (σ × Bool) :=
  if hits entry.1 = 0 ∧ (entry.2.map hits).getD 0 = 0 then .ok turn
  else do
    let reportData := if turn.2 then turn.1 else ops.cpuHeader cpu turn.1
    let reportData ← match entry.2, ops.baseline with
      | some b, some setBaseline => setBaseline b reportData
      | _, _ => .ok reportData
    let reportData ← ops.single entry.1 reportData
    .ok (reportData, true)

/-- The loop shared by `display_cstates` and `display_pstates`. -/
def displayStates (ops : ReportOps α σ) (hits : α → Nat) (entries : List (α × Option α))
    (cpu : List Char) (reportData : σ) : Except Fault σ := do
  let (reportData, cpuHeader) ← entries.foldlM (displayState ops hits cpu) (reportData, false)
  if cpuHeader then ops.endCpu reportData else .ok reportData

/-- `cstates->cstate + i` and `base_cstates ? base_cstates->cstate + i : NULL`, read. -/
def cstatesAt (cstates : CpuidleCstates) (baseCstates : Option CpuidleCstates) (i : Nat) :
    Except Fault (CpuidleCstate × Option CpuidleCstate) := do
  let i ← cstateIndex i
  .ok (cstates.cstate i, baseCstates.map fun base => base.cstate i)

def displayCstates (ops : ReportOps CpuidleCstate σ) (cstates : CpuidleCstates)
    (baseCstates : Option CpuidleCstates) (cpu : List Char) (reportData : σ) :
    Except Fault σ := do
  let entries ← (List.range (cstates.cstateMax + 1).toNat).mapM (cstatesAt cstates baseCstates)
  displayStates ops CpuidleCstate.nrdata entries cpu reportData

/-- `pstates->pstate + i`, read. -/
def pstateAt (pstates : CpufreqPstates) (i : Nat) : Except Fault CpufreqPstate :=
  match pstates.pstate[i]? with
  | some p => .ok p
  | none => .error .outOfBounds

/-- `base_pstates ? base_pstates->pstate + i : NULL`, read where it is not null.
A null array gives a null pointer for index 0. -/
def basePstateAt (basePstates : Option CpufreqPstates) (i : Nat) :
    Except Fault (Option CpufreqPstate) :=
  match basePstates with
  | none => .ok none
  | some base =>
    if base.pstate = [] ∧ i = 0 then .ok none
    else do
      let b ← pstateAt base i
      .ok (some b)

def pstatesAt (pstates : CpufreqPstates) (basePstates : Option CpufreqPstates) (i : Nat) :
    Except Fault (CpufreqPstate × Option CpufreqPstate) := do
  let p ← pstateAt pstates i
  let b ← basePstateAt basePstates i
  .ok (p, b)

def displayPstates (ops : ReportOps CpufreqPstate σ) (pstates : CpufreqPstates)
    (basePstates : Option CpufreqPstates) (cpu : List Char) (reportData : σ) :
    Except Fault σ := do
  let entries ← (List.range pstates.max).mapM (pstatesAt pstates basePstates)
  displayStates ops CpufreqPstate.count entries cpu reportData

end Display

inductive ReportLine (Row : Type)
  | cpu (name : List Char)
  | row (row : Row)
  deriving DecidableEq

/-- One table's part of `struct compare_report_data`, and the lines printed so far. -/
structure CompareReportData (α Row : Type) where
  currBaseline : Option α
  printed : List (ReportLine Row)
  deriving DecidableEq

/-- The values in one row: those of the main trace and the differences. -/
structure CstateRow where
  name : Option (List Char)
  minTime : ℚ
  maxTime : ℚ
  avgTime : ℚ
  duration : ℚ
  nrdata : Nat
  earlyWakings : Nat
  lateWakings : Nat
  minTimeDelta : ℚ
  maxTimeDelta : ℚ
  avgTimeDelta : ℚ
  durationDelta : ℚ
  nrdataDelta : Int
  earlyWakingsDelta : Int
  lateWakingsDelta : Int
  deriving DecidableEq

structure PstateRow where
  freq : Nat
  minTime : ℚ
  maxTime : ℚ
  avgTime : ℚ
  duration : ℚ
  count : Nat
  minTimeDelta : ℚ
  maxTimeDelta : ℚ
  avgTimeDelta : ℚ
  durationDelta : ℚ
  countDelta : Int
  deriving DecidableEq

def cstateRow (c b : CpuidleCstate) : CstateRow :=
  { name := c.name
    minTime := if c.minTime = dblMax then 0 else c.minTime
    maxTime := c.maxTime
    avgTime := c.avgTime
    duration := c.duration
    nrdata := c.nrdata
    earlyWakings := c.earlyWakings
    lateWakings := c.lateWakings
    minTimeDelta := c.minTime - b.minTime
    maxTimeDelta := c.maxTime - b.maxTime
    avgTimeDelta := c.avgTime - b.avgTime
    durationDelta := c.duration - b.duration
    nrdataDelta := (c.nrdata : Int) - b.nrdata
    earlyWakingsDelta := (c.earlyWakings : Int) - b.earlyWakings
    lateWakingsDelta := (c.lateWakings : Int) - b.lateWakings }

def pstateRow (p b : CpufreqPstate) : PstateRow :=
  { freq := p.freq
    minTime := if p.minTime = dblMax then 0 else p.minTime
    maxTime := p.maxTime
    avgTime := p.avgTime
    duration := p.duration
    count := p.count
    minTimeDelta := p.minTime - b.minTime
    maxTimeDelta := p.maxTime - b.maxTime
    avgTimeDelta := p.avgTime - b.avgTime
    durationDelta := p.duration - b.duration
    countDelta := (p.count : Int) - b.count }

def emptyPstate : CpufreqPstate :=
  { id := 0, freq := 0, count := 0, minTime := 0, maxTime := 0, avgTime := 0, duration := 0 }

section Compare

variable {α Row : Type} (row : α → α → Row) (empty : α) (alone : α → α)

/-- Print the row of `c` against the pending baseline entry, which is used up.
Either of the two may be null: then it counts as empty, under the other's name. -/
def compareSingle (c : Option α) (rdata : CompareReportData α Row) :
    Except Fault (CompareReportData α Row) :=
  match c, rdata.currBaseline with
  | none, none => .error .assertion
  | none, some b => .ok ⟨none, rdata.printed ++ [.row (row (alone b) b)]⟩
  | some c, b => .ok ⟨none, rdata.printed ++ [.row (row c (b.getD empty))]⟩

/-- Hand over a baseline entry; one that is still pending is printed first. -/
def compareSetBaseline (b : Option α) (rdata : CompareReportData α Row) :
    Except Fault (CompareReportData α Row) := do
  let rdata ← match rdata.currBaseline with
    | some _ => compareSingle row empty alone none rdata
    | none => .ok rdata
  match b with
  | none => .ok rdata
  | some b => .ok { rdata with currBaseline := some b }

end Compare

def compareCstateSingleState : Option CpuidleCstate → CompareReportData CpuidleCstate CstateRow →
    Except Fault (CompareReportData CpuidleCstate CstateRow) :=
  compareSingle cstateRow callocCstate fun b => { callocCstate with name := b.name }

def compareSetBaselineCstate : Option CpuidleCstate → CompareReportData CpuidleCstate CstateRow →
    Except Fault (CompareReportData CpuidleCstate CstateRow) :=
  compareSetBaseline cstateRow callocCstate fun b => { callocCstate with name := b.name }

def compareCstateEndCpu : CompareReportData CpuidleCstate CstateRow →
    Except Fault (CompareReportData CpuidleCstate CstateRow) :=
  compareSetBaselineCstate none

def comparisonCstateOps : ReportOps CpuidleCstate (CompareReportData CpuidleCstate CstateRow) :=
  { cpuHeader := fun cpu rdata => { rdata with printed := rdata.printed ++ [.cpu cpu] }
    baseline := some fun b => compareSetBaselineCstate (some b)
    single := fun c => compareCstateSingleState (some c)
    endCpu := compareCstateEndCpu }

def comparePstateSingleFreq : Option CpufreqPstate → CompareReportData CpufreqPstate PstateRow →
    Except Fault (CompareReportData CpufreqPstate PstateRow) :=
  compareSingle pstateRow emptyPstate fun b => { emptyPstate with freq := b.freq }

def compareSetBaselinePstate : Option CpufreqPstate → CompareReportData CpufreqPstate PstateRow →
    Except Fault (CompareReportData CpufreqPstate PstateRow) :=
  compareSetBaseline pstateRow emptyPstate fun b => { emptyPstate with freq := b.freq }

def comparePstateEndCpu : CompareReportData CpufreqPstate PstateRow →
    Except Fault (CompareReportData CpufreqPstate PstateRow) :=
  compareSetBaselinePstate none

def comparisonPstateOps : ReportOps CpufreqPstate (CompareReportData CpufreqPstate PstateRow) :=
  { cpuHeader := fun cpu rdata => { rdata with printed := rdata.printed ++ [.cpu cpu] }
    baseline := some fun b => compareSetBaselinePstate (some b)
    single := fun c => comparePstateSingleFreq (some c)
    endCpu := comparePstateEndCpu }

def compareAllocData {α Row : Type} : CompareReportData α Row :=
  ⟨none, []⟩

end Idlestat.Model.Report
