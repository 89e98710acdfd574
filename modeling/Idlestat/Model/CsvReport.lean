import Idlestat.Library.Decimal
import Idlestat.Model.StoreFile
import Idlestat.Model.TopologyDump

/-! The three tables that `main` prints, and the callbacks of `csv_report.c`: each
appends its text to what stdout has received. -/
namespace Idlestat.Model.CsvReport

open Idlestat.Library.Scan Idlestat.Library.Decimal Idlestat.Model.Topology
  Idlestat.Model.Cstates Idlestat.Model.Pstates Idlestat.Model.Recorder Idlestat.Model.CstateFile
  Idlestat.Model.TraceLine Idlestat.Model.Report Idlestat.Model.Baseline
  Idlestat.Model.TopologyDump

/-- The callbacks of `struct report_ops` that one table uses. -/
structure TableOps (α σ : Type) extends ReportOps α σ where
  tableHeader : σ → σ
  tableFooter : σ → σ

structure TablesOps (σ : Type) where
  cstate : TableOps CpuidleCstate σ
  pstate : TableOps CpufreqPstate σ
  wakeup : TableOps WakeupIrq σ

section Display

variable {α σ : Type}

def displayIrq (ops : ReportOps WakeupIrq σ) (cpu : List Char) (turn : σ × Bool)
    (irqinfo : WakeupIrq) : Except Fault (σ × Bool) := do
  let reportData := if turn.2 then turn.1 else ops.cpuHeader cpu turn.1
  let reportData ← ops.single irqinfo reportData
  .ok (reportData, true)

def displayWakeup (ops : ReportOps WakeupIrq σ) (cstates : CpuidleCstates) (cpu : List Char)
    (reportData : σ) : Except Fault σ := do
  let (reportData, cpuHeader) ←
    cstates.wakeinfo.foldlM (displayIrq ops cpu) (reportData, false)
  if cpuHeader then ops.endCpu reportData else .ok reportData

def dumpWakeup (ops : ReportOps WakeupIrq σ) (paired : Paired) (call : DumpCall)
    (reportData : σ) : Except Fault σ := do
  let cstates ← deref call.arg
  displayWakeup ops (paired.datas.cstates cstates) call.cpu reportData

structure Display where
  idle : Bool
  frequency : Bool
  wakeup : Bool

def displayTable (shown : Bool) (ops : TableOps α σ) (dump : DumpCall → σ → Except Fault σ)
    (topo : List ClusterPair) (cstate : Bool) (reportData : σ) : Except Fault σ :=
  if shown then do
    let reportData ← dumpCpuTopoInfo dump (ops.tableHeader reportData) topo cstate
    .ok (ops.tableFooter reportData)
  else .ok reportData

/-- The part of `main` between opening and closing the report file. -/
def displayTables (ops : TablesOps σ) (display : Display) (paired : Paired) (reportData : σ) :
    Except Fault σ := do
  let reportData ← displayTable display.idle ops.cstate
    (dumpCstates ops.cstate.toReportOps paired) paired.topo true reportData
  let reportData ← displayTable display.frequency ops.pstate
    (dumpPstates ops.pstate.toReportOps paired) paired.topo false reportData
  displayTable display.wakeup ops.wakeup
    (dumpWakeup ops.wakeup.toReportOps paired) paired.topo true reportData

end Display

/-- A trace without a baseline; the baseline pointers of its nodes stay null. -/
def unpaired (datas : CpuidleDatas) : Paired :=
  { datas := datas, baseline := datas, topo := datas.topo.physicalHead.map unpairedCluster }

def csvCstateTableHeader : List Char :=
  ("C-State Table\n" ++
    "cluster,core,cpu,C-state,min (us),max (us),avg (us),total (us),hits,over,under\n").toList

def csvCstateTableFooter : List Char :=
  "\n\n".toList

def csvCstateCpuHeader (cpu : List Char) : List Char :=
  if strstr cpu "cluster" then cpu ++ ['\n']
  else if strstr cpu "core" then ',' :: cpu ++ ['\n']
  else ',' :: ',' :: cpu ++ ['\n']

/-- `"%f"` -/
def printDouble (x : ℚ) : List Char :=
  printFixed 6 x

/-- `min_time == DBL_MAX ? 0. : min_time` -/
def shownMin (minTime : ℚ) : ℚ :=
  if minTime = dblMax then 0 else minTime

/-- `",,,%s,"`, `"%f,"`, `"%f,%f,%f,"`, `"%d,%d,%d"` and `"\n"` -/
def csvCstateSingleState (c : CpuidleCstate) : List Char :=
  ',' :: ',' :: ',' :: (printString c.name ++ ',' ::
    (printDouble (shownMin c.minTime) ++ ',' ::
      (printDouble c.maxTime ++ ',' :: (printDouble c.avgTime ++ ',' ::
        (printDouble c.duration ++ ',' :: (printInt c.nrdata ++ ',' ::
          (printInt c.earlyWakings ++ ',' :: (printInt c.lateWakings ++ ['\n']))))))))

def csvPstateTableHeader : List Char :=
  ("P-State Table\n" ++
    ",,,P-state (kHz),min (us),max (us),avg (us),total (us),hits\n").toList

/-- `",,,%u,"`, `"%f,"`, `"%f,%f,%f,"`, `"%d"` and `"\n"` -/
def csvPstateSingleFreq (p : CpufreqPstate) : List Char :=
  ',' :: ',' :: ',' :: (Nat.toDigits 10 p.freq ++ ',' ::
    (printDouble (shownMin p.minTime) ++ ',' ::
      (printDouble p.maxTime ++ ',' :: (printDouble p.avgTime ++ ',' ::
        (printDouble p.duration ++ ',' :: (printInt p.count ++ ['\n']))))))

def csvWakeupTableHeader : List Char :=
  ("\n" ++ "Wakeup Table\n" ++ "cluster,core,cpu,IRQ,Name,Count,early,late\n").toList

/-- `",,,%d,%s,%d,%d,%d\n"`, with `IPI` for the number if it is -1 -/
def csvWakeupSingleIrq (irqinfo : WakeupIrq) : List Char :=
  ',' :: ',' :: ',' :: ((if irqinfo.id ≠ -1 then printInt irqinfo.id else "IPI".toList) ++ ',' ::
    (irqinfo.name ++ ',' :: (printInt irqinfo.count ++ ',' ::
      (printInt irqinfo.earlyTriggers ++ ',' :: (printInt irqinfo.lateTriggers ++ ['\n'])))))

def printOps {α : Type} (header : List Char) (single : α → List Char) :
    TableOps α (List Char) where
  tableHeader := fun out => out ++ header
  tableFooter := fun out => out ++ csvCstateTableFooter
  cpuHeader := fun cpu out => out ++ csvCstateCpuHeader cpu
  baseline := none
  single := fun entry out => .ok (out ++ single entry)
  endCpu := .ok

def csvReportOps : TablesOps (List Char) where
  cstate := printOps csvCstateTableHeader csvCstateSingleState
  pstate := printOps csvPstateTableHeader csvPstateSingleFreq
  wakeup := printOps csvWakeupTableHeader csvWakeupSingleIrq

end Idlestat.Model.CsvReport
