import Idlestat.Theory.PartialMapping
import Idlestat.Theory.TraceEvents

/-! Trace lines against the recorder's bounds. The line reader checks neither
the CPU nor the state it has scanned, so a line is safe exactly when what it
says is in range and the nodes that its event visits have their records. -/
namespace Idlestat.Theory.TraceLineSafety

open Idlestat.Library Idlestat.Library.Scan Idlestat.Model.Topology Idlestat.Model.Cstates
  Idlestat.Model.Pstates Idlestat.Model.Recorder Idlestat.Model.TraceLine
  Idlestat.Theory.CstateRecord Idlestat.Theory.Nodes Idlestat.Theory.PstateRecord
  Idlestat.Theory.Setup Idlestat.Theory.RecorderSteps Idlestat.Theory.PartialMapping
  Idlestat.Theory.TraceEvents

/-! ## What a line says -/

/-- The call a line asks for; `state` is the unsigned number in the text. -/
inductive LineEvent
  | idle (time : ℚ) (state : Nat) (cpu : Int)
  | frequency (time : ℚ) (freq : Nat) (cpu : Int)
  | wakeup (cpu irqid : Int) (irqname : List Char)

def lineEvent (strtod : List Char → ℚ) (format : List Directive) (buffer : List Char) :
    Option LineEvent :=
  if strstr buffer "cpu_idle" then
    match (sscanf format buffer).assigned with
    | [.float time, .uint state, .int cpu] => some (.idle (strtod time) state cpu)
    | _ => none
  else if strstr buffer "cpu_frequency" then
    match (sscanf format buffer).assigned with
    | [.float time, .uint freq, .int cpu] => some (.frequency (strtod time) freq cpu)
    | _ => none
  else if strstr buffer "irq_handler_entry" then
    match (sscanf traceIrqFormat buffer).assigned with
    | [.int cpu, .int irqid, .str irqname] => some (.wakeup cpu irqid irqname)
    | _ => none
  else if strstr buffer "ipi_entry" then
    match (sscanf traceIpiirqFormat buffer).assigned with
    | [.int cpu, .str irqname] => some (.wakeup cpu (-1) irqname.dropLast)
    | _ => none
  else none

def record (datas : CpuidleDatas) : LineEvent → Except Fault CpuidleDatas
  | .idle time state cpu => storeData time (toInt state) cpu datas
  | .frequency time freq cpu => cpuChangePstate datas cpu freq time
  | .wakeup cpu irqid irqname => storeIrq cpu irqid irqname datas

def LineEvent.extend (span : LogSpan) : LineEvent → LogSpan
  | .idle time _ _ => span.extend time
  | _ => span

/-- The CPU is in the tree, and the state is 4294967295 or an index of `cstate`. -/
def InRange (topo : CpuTopology) : LineEvent → Prop
  | .idle _ state cpu => (state = 4294967295 ∨ state < maxcstate) ∧ cpu ∈ cpuIds topo
  | .frequency _ _ cpu => cpu ∈ cpuIds topo
  | .wakeup cpu _ _ => cpu ∈ cpuIds topo

/-- The event visits no node without records: it is an interrupt, a frequency
event of an idle CPU, an exit of a CPU that has been in no state, or an event of
a CPU whose cluster has records for all its nodes. -/
def Supported (datas : CpuidleDatas) : LineEvent → Prop
  | .idle _ state cpu => Ignored datas cpu (toInt state) ∨ ClusterMapped datas.topo cpu
  | .frequency _ _ cpu => (datas.pstates (.percpu cpu)).idle = 1 ∨ ClusterMapped datas.topo cpu
  | .wakeup _ _ _ => True

/-- The line does not drive the recorder out of range, and one that would is
rejected with the statistics unchanged. -/
def LineSafe (strtod : List Char → ℚ) (format : List Directive) (buffer : List Char)
    (datas : CpuidleDatas) (span : LogSpan) : Prop :=
  ∃ result, loadTextDataLine strtod buffer datas format span = .ok result ∧
    ∀ event, lineEvent strtod format buffer = some event → ¬ InRange datas.topo event →
      result.ret = -1 ∧ result.datas = datas

section OneLine

variable {strtod : List Char → ℚ} {format : List Directive} {buffer : List Char}
  {datas datas' : CpuidleDatas} {span : LogSpan}

/-- The reader is its decoder followed by the handler, with no check between. -/
theorem loadTextDataLine_eq :
    loadTextDataLine strtod buffer datas format span =
      match lineEvent strtod format buffer with
      | none => .ok ⟨-1, datas, span⟩
      | some event => (record datas event).map fun datas' => ⟨0, datas', event.extend span⟩ := by
  unfold loadTextDataLine lineEvent getWakeupIrq
  generalize (sscanf format buffer).assigned = values
  generalize (sscanf traceIrqFormat buffer).assigned = irqValues
  generalize (sscanf traceIpiirqFormat buffer).assigned = ipiValues
  by_cases hidle : strstr buffer "cpu_idle" = true
  · rw [if_pos hidle, if_pos hidle]
    split
    · next time state cpu =>
      simp only [record]
      cases storeData (strtod time) (toInt state) cpu datas <;> rfl
    · split
      · rfl
      · simp_all
  · rw [if_neg hidle, if_neg hidle]
    by_cases hfrequency : strstr buffer "cpu_frequency" = true
    · rw [if_pos hfrequency, if_pos hfrequency]
      split
      · next time freq cpu =>
        simp only [record]
        cases cpuChangePstate datas cpu freq (strtod time) <;> rfl
      · split
        · rfl
        · simp_all
    · rw [if_neg hfrequency, if_neg hfrequency]
      by_cases hirq : strstr buffer "irq_handler_entry" = true
      · rw [if_pos hirq, if_pos hirq]
        split
        · next cpu irqid irqname =>
          simp only [record]
          cases storeIrq cpu irqid irqname datas <;> rfl
        · split
          · rfl
          · simp_all
      · rw [if_neg hirq, if_neg hirq]
        by_cases hipi : strstr buffer "ipi_entry" = true
        · rw [if_pos hipi, if_pos hipi]
          split
          · next cpu irqname =>
            simp only [record]
            cases storeIrq cpu (-1) irqname.dropLast datas <;> rfl
          · split
            · rfl
            · simp_all
        · rw [if_neg hipi, if_neg hipi]
          rfl

theorem state_lt {time : ℚ} {state : Nat} {cpu : Int}
    (h : lineEvent strtod format buffer = some (.idle time state cpu)) : state < 2 ^ 32 := by
  unfold lineEvent at h
  split at h
  · split at h
    · next hscan =>
      obtain ⟨rfl, rfl, rfl⟩ := LineEvent.idle.inj (Option.some.inj h)
      exact uint_lt (by rw [hscan]; simp)
    · cases h
  · split at h
    · split at h <;> cases h
    · split at h
      · split at h <;> cases h
      · split at h
        · split at h <;> cases h
        · cases h

/-- As an `int`, the number is -1 or an index of `cstate` in the same cases. -/
theorem validState_toInt {state : Nat} (hstate : state < 2 ^ 32) :
    ValidState (toInt state) ↔ state = 4294967295 ∨ state < maxcstate := by
  unfold ValidState toInt maxcstate
  by_cases hlow : state < 2 ^ 31
  · have hsame : Int.bmod (state : Int) (2 ^ 32) = state :=
      Int.bmod_eq_of_le (by omega) (by omega)
    rw [hsame]
    omega
  · have hwrap : Int.bmod (state : Int) (2 ^ 32) = state - 2 ^ 32 := by
      have hshift : Int.bmod ((state : Int) - (2 ^ 32 : Nat)) (2 ^ 32) = Int.bmod state (2 ^ 32) :=
        Int.sub_bmod_right _ _
      rw [← hshift, Int.bmod_eq_of_le (by omega) (by omega)]
      rfl
    rw [hwrap]
    omega

end OneLine

section Lines

variable {strtod : List Char → ℚ} {format : List Directive} {buffer : List Char}
  {nrcpus : Int} {topo : CpuTopology} {datas datas' : CpuidleDatas} {event : LineEvent}

theorem record_ok_iff (hp : PartlyMapped nrcpus topo) (h : Usable nrcpus topo datas)
    (hevent : lineEvent strtod format buffer = some event) (hin : InRange topo event) :
    (∃ datas', record datas event = .ok datas') ↔ Supported datas event := by
  cases event with
  | idle time state cpu =>
    have hvalid : ValidState (toInt state) := (validState_toInt (state_lt hevent)).mpr hin.1
    rw [Supported, h.topo]
    exact storeData_ok_iff hp h hin.2 hvalid
  | frequency time freq cpu =>
    rw [Supported, h.topo]
    exact cpuChangePstate_ok_iff hp h hin
  | wakeup cpu irqid irqname =>
    simp only [record, storeIrq, percpu_of_range hp h.nrcpus hin, bind, Except.bind]
    exact iff_of_true ⟨_, rfl⟩ trivial

/-- A line may do harm without stopping the program, but not to the records' form. -/
theorem record_usable (h : Usable nrcpus topo datas) (hok : record datas event = .ok datas') :
    Usable nrcpus topo datas' := by
  cases event with
  | idle time state cpu => exact storeData_usable h hok
  | frequency time freq cpu => exact cpuChangePstate_usable h hok
  | wakeup cpu irqid irqname =>
    obtain ⟨ref, -, hok⟩ := Runs.bind_eq_ok hok
    obtain ⟨top, hrecord⟩ := h.cstates ref
    rw [← Except.ok.inj hok]
    exact ⟨h.nrcpus, h.topo, update_all (fun r => ∃ top, RecordOk top r) ref h.cstates
      ⟨top, attributeIrq_ok hrecord⟩, h.pstates⟩

theorem lineSafe_iff (hp : PartlyMapped nrcpus topo) (h : Usable nrcpus topo datas)
    (span : LogSpan) :
    LineSafe strtod format buffer datas span ↔
      ∀ event, lineEvent strtod format buffer = some event →
        InRange topo event ∧ Supported datas event := by
  unfold LineSafe
  rw [loadTextDataLine_eq, h.topo]
  cases hevent : lineEvent strtod format buffer with
  | none =>
    refine iff_of_true ⟨_, rfl, ?_⟩ ?_
    · intro event hsome
      cases hsome
    · intro event hsome
      cases hsome
  | some event =>
    constructor
    · rintro ⟨result, hresult, hrejects⟩ event' hsome
      obtain rfl : event = event' := Option.some.inj hsome
      obtain ⟨datas', hrecord, hresult⟩ := Runs.map_eq_ok hresult
      have hin : InRange topo event := by
        by_contra hout
        obtain ⟨hret, -⟩ := hrejects event rfl hout
        rw [← hresult] at hret
        cases hret
      exact ⟨hin, (record_ok_iff hp h hevent hin).mp ⟨datas', hrecord⟩⟩
    · intro hall
      obtain ⟨hin, hsupported⟩ := hall event rfl
      obtain ⟨datas', hrecord⟩ := (record_ok_iff hp h hevent hin).mpr hsupported
      exact ⟨⟨0, datas', event.extend span⟩, by simp [hrecord, Except.map],
        fun event' hsome hout => absurd (hall event' hsome).1 hout⟩

end Lines

def lineStep (strtod : List Char → ℚ) (format : List Directive)
    (state : CpuidleDatas × LogSpan) (buffer : List Char) :
    Except Fault (CpuidleDatas × LogSpan) :=
  (loadTextDataLine strtod buffer state.1 format state.2).map fun result =>
    (result.datas, result.span)

/-- In every state that lines lead to from a loaded one, the next line is safe
exactly when its CPU is in the tree, its state, if it has one, is in range, and
the nodes that its event visits have records; which all have if no id repeats. -/
theorem trace_line_safety {start : CpuidleDatas} (h : LoadedBelow start)
    (strtod : List Char → ℚ) (format : List Directive) (span : LogSpan)
    (lines : List (List Char)) :
    Runs.Always (lineStep strtod format)
      (fun _ state => ∀ line, LineSafe strtod format line state.1 state.2 ↔
        ∀ event, lineEvent strtod format line = some event →
          InRange start.topo event ∧ Supported state.1 event)
      (start, span) lines ∧
    ((cpuIds start.topo).Nodup → ∀ cpu, ClusterMapped start.topo cpu) := by
  obtain ⟨hp, -, -, honce⟩ := h.spec
  have husable : Runs.Always (lineStep strtod format)
      (fun _ state => Usable start.nrcpus start.topo state.1) (start, span) lines := by
    apply Runs.always_of_preserved fun state : CpuidleDatas × LogSpan =>
      Usable start.nrcpus start.topo state.1
    · exact h.usable
    · intro line state next hnext hinv
      obtain ⟨result, hresult, rfl⟩ := Runs.map_eq_ok hnext
      rw [loadTextDataLine_eq] at hresult
      cases hevent : lineEvent strtod format line with
      | none =>
        rw [hevent] at hresult
        rw [← Except.ok.inj hresult]
        exact hinv
      | some event =>
        rw [hevent] at hresult
        obtain ⟨datas', hrecord, rfl⟩ := Runs.map_eq_ok hresult
        exact record_usable hinv hrecord
  refine ⟨?_, fun hunique => Mapped.clusterMapped (honce hunique)⟩
  intro past rest state hsplit hrun line
  exact lineSafe_iff hp (husable past rest state hsplit hrun) state.2

theorem trace_line_safety_pair :
    LoadedBelow pairDatas ∧ (cpuIds pairDatas.topo).Nodup ∧
      Runs.Always (lineStep (fun _ => 1) traceFormat)
        (fun _ state => ∀ line, LineSafe (fun _ => 1) traceFormat line state.1 state.2 ↔
          ∀ event, lineEvent (fun _ => 1) traceFormat line = some event →
            InRange pairDatas.topo event ∧ Supported state.1 event)
        (pairDatas, ⟨0, 0, 1⟩)
        ["<idle>-0 [001] d..2 1.5: cpu_idle: state=1 cpu_id=1\n".toList] ∧
      ∀ cpu, ClusterMapped pairDatas.topo cpu :=
  have hbelow : LoadedBelow pairDatas := .of_loaded pairDatas_loaded
  have honce : (cpuIds pairDatas.topo).Nodup := by
    rw [cpuIds_pairDatas]
    decide
  have hsafe := trace_line_safety hbelow (fun _ => 1) traceFormat ⟨0, 0, 1⟩
    ["<idle>-0 [001] d..2 1.5: cpu_idle: state=1 cpu_id=1\n".toList]
  ⟨hbelow, honce, hsafe.1, hsafe.2 honce⟩

theorem not_lineSafe_of_error {strtod : List Char → ℚ} {format : List Directive}
    {buffer : List Char} {datas : CpuidleDatas} {span : LogSpan} (fault : Fault)
    (h : (loadTextDataLine strtod buffer datas format span).map LineResult.ret = .error fault) :
    ¬ LineSafe strtod format buffer datas span := by
  rintro ⟨result, hok, -⟩
  rw [hok] at h
  cases h

/-- CPU 1 is in both cores, and its second node has no records. -/
def sharedDatas : CpuidleDatas :=
  machineDatas .sysfs 2 (fun _ _ => { name := none, targetResidency := 0 })
    [⟨0, 0, 1⟩, ⟨0, 1, 0⟩, ⟨0, 1, 1⟩]

theorem sharedDatas_loaded : LoadedBelow sharedDatas := by
  have hnrcpus : (freshDatas .sysfs 2 (fun _ _ => { name := none, targetResidency := 0 })
      [⟨0, 0, 1⟩, ⟨0, 1, 0⟩, ⟨0, 1, 1⟩]).map CpuidleDatas.nrcpus = .ok 2 := by decide +kernel
  obtain ⟨start, hfresh, htwo⟩ := Runs.map_eq_ok hnrcpus
  have hstart : sharedDatas = start := by
    simp [sharedDatas, machineDatas, hfresh, Except.toOption]
  rw [hstart]
  refine ⟨_, _, _, ?_, ?_, htwo.symm ▸ hfresh⟩
  · simp [TopologyCanonical.NonNegative]
  · simp [htwo]

/-- CPU 2 of a machine with CPUs 0 and 1, and state 16, read past the arrays;
CPU 0 shares a core with a node that has no records. -/
theorem trace_line_unsafe :
    Loaded pairDatas ∧ pairDatas.nrcpus = 2 ∧ cpuIds pairDatas.topo = [0, 1] ∧
      ¬ LineSafe (fun _ => 1) traceFormat
        "<idle>-0 [002] d..2 1.5: cpu_idle: state=1 cpu_id=2\n".toList pairDatas ⟨0, 0, 1⟩ ∧
      ¬ LineSafe (fun _ => 1) traceFormat
        "<idle>-0 [001] d..2 1.5: cpu_idle: state=16 cpu_id=1\n".toList pairDatas ⟨0, 0, 1⟩ ∧
      ¬ LineSafe (fun _ => 1) traceFormat
        "sh-9 [001] d..2 1.5: cpu_frequency: state=100 cpu_id=2\n".toList pairDatas ⟨0, 0, 1⟩ ∧
      ¬ LineSafe (fun _ => 1) traceFormat
        "sh-9 [002] d.h2 1.5: irq_handler_entry: irq=3 name=timer\n".toList pairDatas
        ⟨0, 0, 1⟩ ∧
      LoadedBelow sharedDatas ∧ sharedDatas.nrcpus = 2 ∧ (0 : Int) ∈ cpuIds sharedDatas.topo ∧
      ¬ LineSafe (fun _ => 1) traceFormat
        "<idle>-0 [000] d..2 1.5: cpu_idle: state=1 cpu_id=0\n".toList sharedDatas ⟨0, 0, 1⟩ := by
  refine ⟨pairDatas_loaded, rfl, cpuIds_pairDatas, ?_, ?_, ?_, ?_, sharedDatas_loaded, ?_, ?_, ?_⟩
  · exact not_lineSafe_of_error .outOfBounds (by decide +kernel)
  · exact not_lineSafe_of_error .outOfBounds (by decide +kernel)
  · exact not_lineSafe_of_error .outOfBounds (by decide +kernel)
  · exact not_lineSafe_of_error .outOfBounds (by decide +kernel)
  · decide +kernel
  · decide +kernel
  · exact not_lineSafe_of_error .nullDeref (by decide +kernel)

end Idlestat.Theory.TraceLineSafety
