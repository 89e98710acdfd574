import Idlestat.Theory.RecorderSteps

/-! The idle flag of the P-state record against the current C-state. The flag is
kept only once a CPU has a frequency table, so the two agree for good exactly
when every table is created while its CPU is running. -/
namespace Idlestat.Theory.IdleAgreement

open Idlestat.Library Idlestat.Model.Topology Idlestat.Model.Cstates Idlestat.Model.Pstates
  Idlestat.Model.Recorder Idlestat.Model.Loaders Idlestat.Theory.CstateRecord
  Idlestat.Theory.Nodes Idlestat.Theory.PstateRecord Idlestat.Theory.Setup
  Idlestat.Theory.RecorderSteps

def AgreesAt (datas : CpuidleDatas) (cpu : Int) : Prop :=
  (datas.pstates (.percpu cpu)).pstate ≠ [] →
    ((datas.pstates (.percpu cpu)).idle = 1 ↔ currentCstates datas cpu ≠ -1)

/-- Every CPU with a frequency table is flagged idle exactly when it is in a C-state. -/
def Agrees (topo : CpuTopology) (datas : CpuidleDatas) : Prop :=
  ∀ cpu ∈ cpuIds topo, AgreesAt datas cpu

/-- The first frequency event of a CPU does not find it in a C-state. -/
def TableCreatedAwake (datas : CpuidleDatas) : PowerEvent → Prop
  | .storeData _ _ _ => True
  | .cpuChangePstate cpu _ _ =>
    (datas.pstates (.percpu cpu)).pstate = [] → currentCstates datas cpu = -1

instance (datas : CpuidleDatas) : (event : PowerEvent) → Decidable (TableCreatedAwake datas event)
  | .storeData _ _ _ => .isTrue trivial
  | .cpuChangePstate _ _ _ => inferInstanceAs (Decidable (_ → _))

def Unflagged (datas : CpuidleDatas) : Prop :=
  ∀ cpu, (datas.pstates (.percpu cpu)).pstate = [] → (datas.pstates (.percpu cpu)).idle = -1

section OneStep

variable {datas datas' : CpuidleDatas} {event : PowerEvent} {phy : CpuPhysical} {core : CpuCore}

theorem unflagged_next (hready : Ready datas) (h : Unflagged datas)
    (heffect : Effect datas phy core event datas') : Unflagged datas' := by
  intro c hnil
  by_cases hne : c ≠ event.cpu
  · rw [(heffect.other hne).1] at hnil ⊢
    exact h c hnil
  · rw [not_not] at hne
    cases heffect with
    | ignored => exact h c hnil
    | @stored time state cpu datas' hnot hstored =>
      obtain rfl : c = cpu := hne
      rw [hstored.pstates, storedTable_self] at hnil ⊢
      have hps := hready.pstates (.percpu c)
      by_cases hempty : (datas.pstates (.percpu c)).pstate = []
      · rw [if_pos hempty]
        exact h c hempty
      · rw [if_neg hempty] at hnil
        split at hnil
        · exact absurd ((resumed_spec hps time).nonempty.mp hnil) hempty
        · exact absurd ((idled_spec hps time).nonempty.mp hnil) hempty
    | @changed cpu freq time =>
      obtain rfl : c = cpu := hne
      simp only [changedTable_self] at hnil
      exact absurd hnil (changed_spec (hready.pstates _) freq time).nonempty

theorem agreesAt_other (heffect : Effect datas phy core event datas') {c : Int}
    (hne : c ≠ event.cpu) : AgreesAt datas' c ↔ AgreesAt datas c := by
  obtain ⟨hpstates, hcstates⟩ := heffect.other hne
  simp only [AgreesAt, currentCstates, hpstates, hcstates]

theorem agreesAt_stored (hready : Ready datas) {cpu state : Int} {time : ℚ}
    (hstate : ValidState state) (hstored : Stored datas datas' phy core cpu state time) :
    AgreesAt datas' cpu := by
  have hps := hready.pstates (.percpu cpu)
  intro htable
  rw [hstored.current hready hstate]
  rw [hstored.pstates, storedTable_self] at htable ⊢
  by_cases hempty : (datas.pstates (.percpu cpu)).pstate = []
  · rw [if_pos hempty] at htable
    exact absurd hempty htable
  · rw [if_neg hempty]
    by_cases hrunning : state = -1
    · rw [if_pos hrunning, (resumed_spec hps time).idle]
      simp [hrunning]
    · rw [if_neg hrunning, (idled_spec hps time).idle]
      simp [hrunning]

/-- A frequency event keeps the agreement, unless it creates the table of an
idle CPU: the new table starts with its flag unknown. -/
theorem agreesAt_changed (hready : Ready datas) (hunflagged : Unflagged datas) {cpu : Int}
    {freq : Nat} {time : ℚ} (h : AgreesAt datas cpu) :
    AgreesAt { datas with pstates := changedTable datas.pstates phy core cpu freq time } cpu ↔
      TableCreatedAwake datas (.cpuChangePstate cpu freq time) := by
  have hchanged := changed_spec (hready.pstates (.percpu cpu)) freq time
  simp only [AgreesAt, TableCreatedAwake, currentCstates, changedTable_self, hchanged.idle]
  constructor
  · intro hagrees hempty
    have hidle := hunflagged cpu hempty
    by_contra hidleCpu
    have hflag := (hagrees hchanged.nonempty).mpr hidleCpu
    omega
  · intro hcreated _
    by_cases hempty : (datas.pstates (.percpu cpu)).pstate = []
    · simp [hunflagged cpu hempty, hcreated hempty]
    · exact h hempty

theorem agrees_next (hready : Ready datas) (hunflagged : Unflagged datas)
    (hvalid : ValidEvent datas.topo event) (heffect : Effect datas phy core event datas')
    (h : Agrees datas.topo datas) :
    Agrees datas.topo datas' ↔ TableCreatedAwake datas event := by
  have hothers : ∀ c ∈ cpuIds datas.topo, c ≠ event.cpu → AgreesAt datas' c :=
    fun c hc hne => (agreesAt_other heffect hne).mpr (h c hc)
  have hself : Agrees datas.topo datas' ↔ AgreesAt datas' event.cpu := by
    constructor
    · exact fun hagrees => hagrees _ hvalid.cpu_mem
    · intro hagrees c hc
      by_cases heq : c = event.cpu
      · exact heq ▸ hagrees
      · exact hothers c hc heq
  rw [hself]
  cases heffect with
  | ignored => exact iff_of_true (h _ hvalid.2) trivial
  | stored _ hstored => exact iff_of_true (agreesAt_stored hready hvalid.1 hstored) trivial
  | changed => exact agreesAt_changed hready hunflagged (h _ hvalid)

end OneStep

/-- Flags and C-states agree after every call exactly when no CPU's first
frequency event comes while the CPU is in a C-state. -/
theorem idle_agreement {start : CpuidleDatas} (h : Loaded start) (events : List PowerEvent)
    (hvalid : ∀ event ∈ events, ValidEvent start.topo event) :
    (∃ final, Runs.run step start events = .ok final) ∧
      (Runs.Always step (fun _ datas => Agrees start.topo datas) start events ↔
        Runs.EveryStep step TableCreatedAwake start events) := by
  have hstarted := h.started
  refine ⟨run_total h hvalid, ?_⟩
  refine Runs.always_iff_everyStep
    (fun _ datas => ReadyOn start.topo start.nrcpus datas ∧ Unflagged datas) _ _ ?_ ?_ ?_
  · refine ⟨⟨ready_of_started hstarted, rfl, rfl⟩, fun cpu _ => ?_⟩
    rw [hstarted.pstates]
    rfl
  · intro cpu _ htable
    rw [hstarted.pstates] at htable
    exact absurd rfl htable
  · rintro past event rest datas hsplit ⟨hready, hunflagged⟩
    have hevent := hvalid event (by simp [hsplit])
    obtain ⟨phy, core, datas', -, hstep, hready', heffect⟩ := hready.next hevent
    refine ⟨datas', hstep, ⟨hready', unflagged_next hready.ready hunflagged heffect⟩, ?_⟩
    rw [← hready.topo] at hevent ⊢
    exact agrees_next hready.ready hunflagged hevent heffect

theorem idle_agreement_pair :
    (∃ final, Runs.run step pairDatas [.cpuChangePstate 0 100 0, .storeData 1 2 0] = .ok final) ∧
      Runs.Always step (fun _ datas => Agrees pairDatas.topo datas) pairDatas
        [.cpuChangePstate 0 100 0, .storeData 1 2 0] :=
  have hvalid : ∀ event ∈ [PowerEvent.cpuChangePstate 0 100 0, .storeData 1 2 0],
      ValidEvent pairDatas.topo event := by
    simp [ValidEvent, cpuIds_pairDatas, ValidState, maxcstate]
  have hawake : Runs.EveryStep step TableCreatedAwake pairDatas
      [.cpuChangePstate 0 100 0, .storeData 1 2 0] := by decide +kernel
  have hagreement := idle_agreement pairDatas_loaded _ hvalid
  ⟨hagreement.1, hagreement.2.mpr hawake⟩

/-- A CPU that is asleep when its first frequency arrives is not flagged idle. -/
theorem idle_flag_lost :
    Loaded pairDatas ∧ cpuIds pairDatas.topo = [0, 1] ∧
      (Runs.run step pairDatas [.storeData 0 1 0, .cpuChangePstate 0 100 1]).map
        (fun datas => ((datas.pstates (.percpu 0)).pstate.length,
          (datas.pstates (.percpu 0)).idle, (datas.cstates (.percpu 0)).currentCstate)) =
        .ok (1, -1, 1) :=
  ⟨pairDatas_loaded, cpuIds_pairDatas, by decide +kernel⟩

end Idlestat.Theory.IdleAgreement
