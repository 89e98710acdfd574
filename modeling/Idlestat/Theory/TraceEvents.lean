import Idlestat.Model.TraceLine
import Idlestat.Theory.RecorderSteps

/-! The calls of a whole trace: power events and wakeup sources together. -/
namespace Idlestat.Theory.TraceEvents

open Idlestat.Library Idlestat.Model.Topology Idlestat.Model.Cstates Idlestat.Model.Recorder
  Idlestat.Model.TraceLine Idlestat.Theory.CstateRecord Idlestat.Theory.Nodes
  Idlestat.Theory.Setup Idlestat.Theory.RecorderSteps

theorem attributeIrq_ok {r : CpuidleCstates} {irqid : Int} {irqname : List Char}
    {top : Fin maxcstate → ℚ} (h : RecordOk top r) :
    RecordOk top (attributeIrq r irqid irqname) := by
  unfold attributeIrq
  split
  · exact h
  · exact ⟨h.cstate, h.current, h.cstateMax, h.slot⟩

/-- The CPU of the call is in the tree, and its state is a C-state or -1. -/
def ValidCall (topo : CpuTopology) : TraceEvent → Prop
  | .power event => ValidEvent topo event
  | .storeIrq cpu _ _ => cpu ∈ cpuIds topo

instance (topo : CpuTopology) (event : TraceEvent) : Decidable (ValidCall topo event) := by
  cases event <;> unfold ValidCall <;> infer_instance

theorem ValidCall.cpu_mem {topo : CpuTopology} {event : TraceEvent}
    (h : ValidCall topo event) : event.cpu ∈ cpuIds topo := by
  cases event with
  | power event => exact ValidEvent.cpu_mem h
  | storeIrq cpu irqid irqname => exact h

section Step

variable {topo : CpuTopology} {nrcpus : Int} {datas datas' : CpuidleDatas} {cpu irqid : Int}
  {irqname : List Char}

theorem storeIrq_eq (h : ReadyOn topo nrcpus datas) (hcpu : cpu ∈ cpuIds topo) :
    storeIrq cpu irqid irqname datas =
      .ok (datas.setCstates (.percpu cpu)
        (attributeIrq (datas.cstates (.percpu cpu)) irqid irqname)) := by
  obtain ⟨hready, rfl, rfl⟩ := h
  simp only [storeIrq, percpu_of_mem hready.mapped hcpu, bind, Except.bind]

theorem storeIrq_ready (h : ReadyOn topo nrcpus datas) :
    ReadyOn topo nrcpus (datas.setCstates (.percpu cpu)
      (attributeIrq (datas.cstates (.percpu cpu)) irqid irqname)) := by
  obtain ⟨top, hok⟩ := h.ready.cstates (.percpu cpu)
  exact ⟨h.ready.setCstates (.percpu cpu) (attributeIrq_ok hok), h.topo, h.nrcpus⟩

theorem traceStep_total (h : ReadyOn topo nrcpus datas) {event : TraceEvent}
    (hvalid : ValidCall topo event) :
    ∃ datas', traceStep datas event = .ok datas' ∧ ReadyOn topo nrcpus datas' := by
  cases event with
  | power event =>
    obtain ⟨-, -, datas', -, hstep, hready, -⟩ := h.next hvalid
    exact ⟨datas', hstep, hready⟩
  | storeIrq cpu irqid irqname => exact ⟨_, storeIrq_eq h hvalid, storeIrq_ready h⟩

theorem traceRun_total (h : ReadyOn topo nrcpus datas) {events : List TraceEvent}
    (hvalid : ∀ event ∈ events, ValidCall topo event) :
    ∃ final, Runs.run traceStep datas events = .ok final ∧ ReadyOn topo nrcpus final := by
  apply Runs.run_invariant (fun _ => ReadyOn topo nrcpus) h
  intro past event rest state hsplit hready
  exact traceStep_total hready (hvalid event (by simp [hsplit]))

theorem readyOn_of_loaded {start : CpuidleDatas} (h : Loaded start) :
    ReadyOn start.topo start.nrcpus start :=
  ⟨ready_of_started h.started, rfl, rfl⟩

end Step

end Idlestat.Theory.TraceEvents
