import Idlestat.Library.Scan
import Idlestat.Model.Recorder
import Mathlib.Data.List.Infix

/-! From one line of trace text to the event handlers. A buffer is the C string
in it; the value of a floating-point text is left to the parameter `strtod`. -/
namespace Idlestat.Model.TraceLine

open Idlestat.Library.Scan Idlestat.Model.Topology Idlestat.Model.Cstates Idlestat.Model.Recorder

def namelen : Nat := 16

/-- `"%*[^]]] %*s %lf:%*[^=]=%u%*[^=]=%d"` -/
def traceFormat : List Directive :=
  [.skip (.noneOf [']']), .lit ']', .space, .skip (.s none), .space, .conv .lf, .lit ':',
    .skip (.noneOf ['=']), .lit '=', .conv .u, .skip (.noneOf ['=']), .lit '=', .conv .d]

/-- `"%*[^]]] %lf:%*[^=]=%u%*[^=]=%d"` -/
def traceCmdReportFormat : List Directive :=
  [.skip (.noneOf [']']), .lit ']', .space, .conv .lf, .lit ':',
    .skip (.noneOf ['=']), .lit '=', .conv .u, .skip (.noneOf ['=']), .lit '=', .conv .d]

/-- `"%*[^[][%d] %*[^=]=%d%*[^=]=%16s"` -/
def traceIrqFormat : List Directive :=
  [.skip (.noneOf ['[']), .lit '[', .conv .d, .lit ']', .space,
    .skip (.noneOf ['=']), .lit '=', .conv .d, .skip (.noneOf ['=']), .lit '=',
    .conv (.s (some 16))]

/-- `"%*[^[][%d] %*[^(](%16s"` -/
def traceIpiirqFormat : List Directive :=
  [.skip (.noneOf ['[']), .lit '[', .conv .d, .lit ']', .space,
    .skip (.noneOf ['(']), .lit '(', .conv (.s (some 16))]

def strstr (buffer : List Char) (needle : String) : Bool :=
  needle.toList <:+: buffer

theorem strstr_iff {buffer : List Char} {needle : String} :
    strstr buffer needle = true ↔ needle.toList <:+: buffer :=
  decide_eq_true_iff

def findIrqinfo (wakeinfo : List WakeupIrq) (irqid : Int) (irqname : List Char) : Option Nat :=
  wakeinfo.findIdx? fun irqinfo => irqinfo.id = irqid ∧ irqinfo.name = irqname

/-- The entry that `store_irq` appends; the name is cut to fit its array. -/
def newIrqinfo (irqid : Int) (irqname : List Char) : WakeupIrq :=
  { id := irqid, name := irqname.take namelen, count := 0, earlyTriggers := 0, lateTriggers := 0 }

def WakeupIrq.trigger (irqinfo : WakeupIrq) (residency : Residency) : WakeupIrq :=
  { irqinfo with
    count := irqinfo.count + 1
    earlyTriggers := if residency = .tooShort then irqinfo.earlyTriggers + 1
      else irqinfo.earlyTriggers
    lateTriggers := if residency = .tooLong then irqinfo.lateTriggers + 1
      else irqinfo.lateTriggers }

def attributeIrq (cstates : CpuidleCstates) (irqid : Int) (irqname : List Char) :
    CpuidleCstates :=
  if cstates.wakeirq ≠ none then cstates
  else
    let (wakeinfo, i) := match findIrqinfo cstates.wakeinfo irqid irqname with
      | some i => (cstates.wakeinfo, i)
      | none => (cstates.wakeinfo ++ [newIrqinfo irqid irqname], cstates.wakeinfo.length)
    { cstates with
      wakeinfo := wakeinfo.modify i (WakeupIrq.trigger · cstates.actualResidency)
      wakeirq := some i }

def storeIrq (cpu irqid : Int) (irqname : List Char) (datas : CpuidleDatas) :
    Except Fault CpuidleDatas := do
  let ref ← datas.percpu cpu
  .ok (datas.setCstates ref (attributeIrq (datas.cstates ref) irqid irqname))

def getWakeupIrq (datas : CpuidleDatas) (buffer : List Char) :
    Except Fault (Int × CpuidleDatas) :=
  if strstr buffer "irq_handler_entry" then
    match (sscanf traceIrqFormat buffer).assigned with
    | [.int cpu, .int irqid, .str irqname] => do
      let datas ← storeIrq cpu irqid irqname datas
      .ok (0, datas)
    | _ => .ok (-1, datas)
  else if strstr buffer "ipi_entry" then
    match (sscanf traceIpiirqFormat buffer).assigned with
    | [.int cpu, .str irqname] => do
      let datas ← storeIrq cpu (-1) irqname.dropLast datas
      .ok (0, datas)
    | _ => .ok (-1, datas)
  else .ok (-1, datas)

/-- The times of the first and the last `cpu_idle` line; `start` is 1 before any. -/
structure LogSpan where
  beginTime : ℚ
  endTime : ℚ
  start : Nat
  deriving DecidableEq

def LogSpan.extend (span : LogSpan) (time : ℚ) : LogSpan :=
  { beginTime := if span.start ≠ 0 then time else span.beginTime
    endTime := time
    start := 0 }

structure LineResult where
  ret : Int
  datas : CpuidleDatas
  span : LogSpan

def loadTextDataLine (strtod : List Char → ℚ) (buffer : List Char) (datas : CpuidleDatas)
    (format : List Directive) (span : LogSpan) : Except Fault LineResult :=
  if strstr buffer "cpu_idle" then
    match (sscanf format buffer).assigned with
    | [.float time, .uint state, .int cpu] => do
      let datas ← storeData (strtod time) (toInt state) cpu datas
      .ok ⟨0, datas, span.extend (strtod time)⟩
    | _ => .ok ⟨-1, datas, span⟩
  else if strstr buffer "cpu_frequency" then
    match (sscanf format buffer).assigned with
    | [.float time, .uint freq, .int cpu] => do
      let datas ← cpuChangePstate datas cpu freq (strtod time)
      .ok ⟨0, datas, span⟩
    | _ => .ok ⟨-1, datas, span⟩
  else do
    let (ret, datas) ← getWakeupIrq datas buffer
    .ok ⟨ret, datas, span⟩

inductive TraceEvent
  | power (event : PowerEvent)
  | storeIrq (cpu irqid : Int) (irqname : List Char)
  deriving DecidableEq

def TraceEvent.cpu : TraceEvent → Int
  | .power event => event.cpu
  | .storeIrq cpu _ _ => cpu

def traceStep (datas : CpuidleDatas) : TraceEvent → Except Fault CpuidleDatas
  | .power event => step datas event
  | .storeIrq cpu irqid irqname => storeIrq cpu irqid irqname datas

end Idlestat.Model.TraceLine
