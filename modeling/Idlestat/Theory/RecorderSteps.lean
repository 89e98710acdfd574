import Idlestat.Theory.PstateRecord
import Idlestat.Theory.Setup

/-! One step of the recorder. From a ready state no event of a CPU of the tree
fails, and each handler is an explicit update of the records of the CPU, of its
core and of its cluster. -/
namespace Idlestat.Theory.RecorderSteps

open Idlestat.Library Idlestat.Library.RunningStats Idlestat.Model.Topology
  Idlestat.Model.Cstates Idlestat.Model.Pstates Idlestat.Model.Recorder
  Idlestat.Theory.CstateRecord Idlestat.Theory.Nodes Idlestat.Theory.PstateRecord
  Idlestat.Theory.Setup

/-! ## The P-state record of one CPU -/

def changed (ps : CpufreqPstates) (freq : Nat) (time : ℚ) : CpufreqPstates :=
  let allocated := allocPstate ps freq
  if ps.idle = 1 then { allocated.1 with current := allocated.2 }
  else if ps.idle = -1 then openNextPstate allocated.1 allocated.2 time
  else
    openNextPstate (if ps.current ≠ -1 then closeCurrentPstate allocated.1 time else allocated.1)
      allocated.2 time

def idled (ps : CpufreqPstates) (time : ℚ) : CpufreqPstates :=
  { (if ps.current ≠ -1 then closeCurrentPstate ps time else ps) with idle := 1 }

def resumed (ps : CpufreqPstates) (time : ℚ) : CpufreqPstates :=
  let ps := { ps with idle := 0 }
  if ps.current ≠ -1 then openCurrentPstate ps time else ps

section Percpu

variable {ps : CpufreqPstates}

theorem pstate_eq_nil_iff : ps.pstate = [] ↔ ∀ i, freqAt ps i = none := by
  constructor
  · intro hnil i
    rw [← Option.not_isSome_iff_eq_none, freqAt_isSome_iff, hnil]
    simp
  · intro hnone
    by_contra hne
    have hlen := List.length_pos_iff.mpr hne
    have hsome : (freqAt ps 0).isSome := freqAt_isSome_iff.mpr ⟨le_refl 0, by omega⟩
    simp [hnone] at hsome

structure Changed (ps ps' : CpufreqPstates) (freq : Nat) (time : ℚ) : Prop where
  ok : PstatesOk ps'
  current : currentFreq ps' = some freq
  idle : ps'.idle = ps.idle
  timeEnter : ps'.timeEnter = if ps.idle = 1 then ps.timeEnter else time
  stats : ∀ g, statsOf ps' g =
    if ps.idle = 0 ∧ currentFreq ps = some g ∧ 0 < (time - ps.timeEnter) * usecPerSec
    then (statsOf ps g).push ((time - ps.timeEnter) * usecPerSec) else statsOf ps g

theorem Changed.nonempty {ps ps' : CpufreqPstates} {freq : Nat} {time : ℚ}
    (h : Changed ps ps' freq time) : ps'.pstate ≠ [] :=
  pstate_ne_nil_of_freqAt h.current

private theorem closed_or (h : TableOk ps) (time : ℚ) :
    Closed ps (if ps.current ≠ -1 then closeCurrentPstate ps time else ps)
      ((time - ps.timeEnter) * usecPerSec) := by
  by_cases hcur : ps.current = -1
  · have hnone := h.currentFreq_eq_none.mpr hcur
    rw [if_neg (not_not.mpr hcur)]
    exact ⟨id, h, rfl, fun _ => rfl, fun g => by simp [hnone], rfl, rfl⟩
  · rw [if_pos hcur]
    exact closeCurrentPstate_spec h hcur time

theorem changed_spec (h : PstatesOk ps) (freq : Nat) (time : ℚ) :
    Changed ps (changed ps freq time) freq time := by
  have halloc := allocPstate_spec h.table freq
  have hok := halloc.ok h
  have hsome : (freqAt (allocPstate ps freq).1 (allocPstate ps freq).2).isSome :=
    Option.isSome_of_mem halloc.index
  rcases h.idle with hidle | hidle | hidle
  · have hchanged : changed ps freq time = { (allocPstate ps freq).1 with
        current := (allocPstate ps freq).2, idle := -1, timeEnter := time } := by
      simp [changed, hidle, openNextPstate, openCurrentPstate, halloc.idle]
    rw [hchanged]
    exact {
      ok := hok.move (.inr hsome) (.inl rfl)
      current := halloc.index
      idle := hidle.symm
      timeEnter := by simp [hidle]
      stats := fun g => (halloc.stats g).trans (by simp [hidle]) }
  · -- the stretch at the old frequency is closed in the new table
    have hclosed := closed_or halloc.table time
    have hokClosed := hclosed.ok hok
    have hcur : (allocPstate ps freq).1.current ≠ -1 ↔ ps.current ≠ -1 :=
      (halloc.current_iff h.table).not
    have hchanged : changed ps freq time =
        { (if (allocPstate ps freq).1.current ≠ -1
            then closeCurrentPstate (allocPstate ps freq).1 time
            else (allocPstate ps freq).1) with
          current := (allocPstate ps freq).2
          idle := (if (allocPstate ps freq).1.current ≠ -1
            then closeCurrentPstate (allocPstate ps freq).1 time
            else (allocPstate ps freq).1).idle
          timeEnter := time } := by
      simp [changed, hidle, openNextPstate, openCurrentPstate, hcur]
    rw [hchanged]
    exact {
      ok := hokClosed.move (.inr (hclosed.freqAt _ ▸ hsome)) hokClosed.idle
      current := (hclosed.freqAt _).trans halloc.index
      idle := hclosed.idle.trans halloc.idle
      timeEnter := by simp [hidle]
      stats := fun g => (hclosed.stats g).trans (by
        rw [halloc.currentFreq, halloc.stats, halloc.timeEnter]
        simp [hidle]) }
  · have hkept : (allocPstate ps freq).1.idle = 1 := halloc.idle.trans hidle
    have hchanged : changed ps freq time = { (allocPstate ps freq).1 with
        current := (allocPstate ps freq).2, idle := 1, timeEnter := ps.timeEnter } := by
      simp [changed, hidle, hkept, ← halloc.timeEnter]
    rw [hchanged]
    exact {
      ok := hok.move (.inr hsome) (.inr (.inr rfl))
      current := halloc.index
      idle := hidle.symm
      timeEnter := by simp [hidle]
      stats := fun g => (halloc.stats g).trans (by simp [hidle]) }

structure Idled (ps ps' : CpufreqPstates) (time : ℚ) : Prop where
  ok : PstatesOk ps'
  current : currentFreq ps' = currentFreq ps
  idle : ps'.idle = 1
  timeEnter : ps'.timeEnter = ps.timeEnter
  nonempty : ps'.pstate = [] ↔ ps.pstate = []
  stats : ∀ g, statsOf ps' g =
    if currentFreq ps = some g ∧ 0 < (time - ps.timeEnter) * usecPerSec
    then (statsOf ps g).push ((time - ps.timeEnter) * usecPerSec) else statsOf ps g

theorem idled_spec (h : PstatesOk ps) (time : ℚ) : Idled ps (idled ps time) time := by
  have hclosed := closed_or h.table time
  have hok := hclosed.ok h
  have hidled : idled ps time =
      { (if ps.current ≠ -1 then closeCurrentPstate ps time else ps) with
        current := (if ps.current ≠ -1 then closeCurrentPstate ps time else ps).current
        idle := 1
        timeEnter := (if ps.current ≠ -1 then closeCurrentPstate ps time else ps).timeEnter } := by
    rfl
  rw [hidled]
  exact {
    ok := hok.move hok.current_isSome (.inr (.inr rfl))
    current := (hclosed.freqAt _).trans (by rw [hclosed.current]; rfl)
    idle := rfl
    timeEnter := hclosed.timeEnter
    nonempty := by
      rw [pstate_eq_nil_iff, pstate_eq_nil_iff]
      simp only [freqAt_with, hclosed.freqAt]
    stats := hclosed.stats }

structure Resumed (ps ps' : CpufreqPstates) (time : ℚ) : Prop where
  ok : PstatesOk ps'
  current : currentFreq ps' = currentFreq ps
  idle : ps'.idle = 0
  timeEnter : ps'.timeEnter = if currentFreq ps = none then ps.timeEnter else time
  nonempty : ps'.pstate = [] ↔ ps.pstate = []
  stats : ∀ g, statsOf ps' g = statsOf ps g

theorem resumed_spec (h : PstatesOk ps) (time : ℚ) : Resumed ps (resumed ps time) time := by
  by_cases hcur : ps.current = -1
  · have hnone := h.table.currentFreq_eq_none.mpr hcur
    have hresumed : resumed ps time =
        { ps with current := ps.current, idle := 0, timeEnter := ps.timeEnter } := by
      simp [resumed, hcur]
    rw [hresumed]
    exact ⟨h.move h.current_isSome (.inr (.inl rfl)), rfl, rfl, by rw [if_pos hnone], Iff.rfl,
      fun _ => rfl⟩
  · have hsome : currentFreq ps ≠ none := h.table.currentFreq_eq_none.not.mpr hcur
    have hresumed : resumed ps time =
        { ps with current := ps.current, idle := 0, timeEnter := time } := by
      simp [resumed, hcur, openCurrentPstate]
    rw [hresumed]
    exact ⟨h.move h.current_isSome (.inr (.inl rfl)), rfl, rfl, by rw [if_neg hsome], Iff.rfl,
      fun _ => rfl⟩

theorem resumed_or_idled_ok (h : PstatesOk ps) (state : Int) (time : ℚ) :
    PstatesOk (if state = -1 then resumed ps time else idled ps time) := by
  split
  · exact (resumed_spec h time).ok
  · exact (idled_spec h time).ok

end Percpu

/-! ## The handlers as updates -/

/-- A state that a run can be in: pointers set, every record well formed. -/
structure Ready (datas : CpuidleDatas) : Prop where
  mapped : Mapped datas.nrcpus datas.topo
  cstates : ∀ ref, ∃ top, RecordOk top (datas.cstates ref)
  pstates : ∀ ref, PstatesOk (datas.pstates ref)

theorem ready_of_started {datas : CpuidleDatas} (h : Started datas) : Ready datas where
  mapped := h.mapped
  cstates := fun ref => (h.cstates ref).ok
  pstates := fun ref => by
    rw [h.pstates]
    exact buildPstateInfo_ok

theorem Ready.setCstates {datas : CpuidleDatas} (h : Ready datas) (ref : RecordRef)
    {r : CpuidleCstates} {top : Fin maxcstate → ℚ} (hok : RecordOk top r) :
    Ready (datas.setCstates ref r) :=
  ⟨h.mapped, update_all (fun r => ∃ top, RecordOk top r) ref h.cstates ⟨top, hok⟩, h.pstates⟩

theorem Ready.setPstates {datas : CpuidleDatas} (h : Ready datas) (ref : RecordRef)
    {ps : CpufreqPstates} (hok : PstatesOk ps) : Ready (datas.setPstates ref ps) :=
  ⟨h.mapped, h.cstates, update_all PstatesOk ref h.pstates hok⟩

/-- The CPU of an event is in the tree, and its state is a C-state or -1. -/
def ValidEvent (topo : CpuTopology) : PowerEvent → Prop
  | .storeData _ state cpu => ValidState state ∧ cpu ∈ cpuIds topo
  | .cpuChangePstate cpu _ _ => cpu ∈ cpuIds topo

instance (topo : CpuTopology) (event : PowerEvent) : Decidable (ValidEvent topo event) := by
  cases event <;> unfold ValidEvent <;> infer_instance

theorem ValidEvent.cpu_mem {topo : CpuTopology} {event : PowerEvent}
    (h : ValidEvent topo event) : event.cpu ∈ cpuIds topo := by
  cases event with
  | storeData time state cpu => exact h.2
  | cpuChangePstate cpu freq time => exact h

abbrev coreRef (phy : CpuPhysical) (core : CpuCore) : RecordRef :=
  .core phy.physicalId core.coreId

abbrev clusterRef (phy : CpuPhysical) : RecordRef :=
  .cluster phy.physicalId

abbrev PstateTable := RecordRef → CpufreqPstates

def coreHighest (pstates : PstateTable) (core : CpuCore) : Nat :=
  greatest (fun cpu => coreFreq (pstates (.percpu cpu))) (coreIds core)

def clusterHighest (pstates : PstateTable) (phy : CpuPhysical) : Nat :=
  greatest (fun cpu => clusterFreq (pstates (.percpu cpu))) (clusterIds phy)

/-- `check_pstate_composite`: the core and then the cluster record the highest
frequency of their CPUs. -/
def composed (phy : CpuPhysical) (core : CpuCore) (time : ℚ) (pstates : PstateTable) :
    PstateTable :=
  Function.update
    (Function.update pstates (coreRef phy core)
      (recordGroupFreq (pstates (coreRef phy core)) time (coreHighest pstates core)))
    (clusterRef phy)
    (recordGroupFreq (pstates (clusterRef phy)) time (clusterHighest pstates phy))

section Composed

variable {phy : CpuPhysical} {core : CpuCore} {time : ℚ} {pstates : PstateTable}

@[simp] theorem composed_percpu (cpu : Int) :
    composed phy core time pstates (.percpu cpu) = pstates (.percpu cpu) := by
  simp [composed, coreRef, clusterRef]

theorem composed_core : composed phy core time pstates (coreRef phy core) =
    recordGroupFreq (pstates (coreRef phy core)) time (coreHighest pstates core) := by
  simp [composed, coreRef, clusterRef]

theorem composed_cluster : composed phy core time pstates (clusterRef phy) =
    recordGroupFreq (pstates (clusterRef phy)) time (clusterHighest pstates phy) := by
  simp [composed]

theorem composed_other {ref : RecordRef} (hcore : ref ≠ coreRef phy core)
    (hcluster : ref ≠ clusterRef phy) : composed phy core time pstates ref = pstates ref := by
  simp [composed, hcore, hcluster]

theorem composed_ok (h : ∀ ref, PstatesOk (pstates ref)) (ref : RecordRef) :
    PstatesOk (composed phy core time pstates ref) := by
  by_cases hcluster : ref = clusterRef phy
  · rw [hcluster, composed_cluster]
    exact (recordGroupFreq_spec (h _) _ _).ok
  · by_cases hcore : ref = coreRef phy core
    · rw [hcore, composed_core]
      exact (recordGroupFreq_spec (h _) _ _).ok
    · rw [composed_other hcore hcluster]
      exact h ref

end Composed

section Handlers

variable {datas : CpuidleDatas} {cpu : Int} {phy : CpuPhysical} {core : CpuCore}

@[simp] theorem setPstates_topo (ref : RecordRef) (ps : CpufreqPstates) :
    (datas.setPstates ref ps).topo = datas.topo := rfl

@[simp] theorem setCstates_topo (ref : RecordRef) (r : CpuidleCstates) :
    (datas.setCstates ref r).topo = datas.topo := rfl

theorem percpu_of_mem (hm : Mapped datas.nrcpus datas.topo) (hcpu : cpu ∈ cpuIds datas.topo) :
    datas.percpu cpu = .ok (.percpu cpu) := by
  simp [CpuidleDatas.percpu, hm.range cpu hcpu]

theorem checkPstateComposite_eq (datas : CpuidleDatas) (hm : Mapped datas.nrcpus datas.topo)
    (hl : Located datas.topo cpu phy core) (time : ℚ) :
    checkPstateComposite datas cpu time =
      .ok { datas with pstates := composed phy core time datas.pstates } := by
  have hcore : coreGetHighestFreq datas core = .ok (coreHighest datas.pstates core) :=
    hl.coreGetHighestFreq hm
  -- the core's update leaves the records that the cluster's loop reads
  have hcluster : clusterGetHighestFreq (datas.setPstates (.core phy.physicalId core.coreId)
      (recordGroupFreq (datas.pstates (.core phy.physicalId core.coreId)) time
        (coreHighest datas.pstates core))) phy = .ok (clusterHighest datas.pstates phy) := by
    rw [hl.clusterGetHighestFreq hm]
    simp [clusterHighest, CpuidleDatas.setPstates]
  simp only [checkPstateComposite, hl.core, hl.cluster, deref, bind, Except.bind, hcore,
    (hm.core phy hl.phy_mem core hl.core_mem).2, (hm.cluster phy hl.phy_mem).2, hcluster,
    setPstates_topo]
  simp [composed, coreRef, clusterRef, CpuidleDatas.setPstates]

/-- The CPU's record and, unless the CPU is idle, those of its groups. -/
def changedTable (pstates : PstateTable) (phy : CpuPhysical) (core : CpuCore) (cpu : Int)
    (freq : Nat) (time : ℚ) : PstateTable :=
  let updated := Function.update pstates (.percpu cpu) (changed (pstates (.percpu cpu)) freq time)
  if (pstates (.percpu cpu)).idle = 1 then updated else composed phy core time updated

theorem cpuChangePstate_eq (h : Ready datas) (hl : Located datas.topo cpu phy core) (freq : Nat)
    (time : ℚ) :
    cpuChangePstate datas cpu freq time =
      .ok { datas with pstates := changedTable datas.pstates phy core cpu freq time } := by
  have hrange := h.mapped.range cpu hl.mem_cpuIds
  have hin : ¬ (cpu < 0 ∨ cpu > datas.nrcpus) := by omega
  have hget : getCurrentPstate datas cpu =
      .ok ((datas.pstates (.percpu cpu)).idle, some (.percpu cpu)) := by
    simp only [getCurrentPstate, hin, if_false, percpu_of_mem h.mapped hl.mem_cpuIds, bind,
      Except.bind]
  have hcomposite : ∀ ps, checkPstateComposite (datas.setPstates (.percpu cpu) ps) cpu time =
      .ok { datas with
        pstates := composed phy core time (Function.update datas.pstates (.percpu cpu) ps) } :=
    fun ps => checkPstateComposite_eq (datas.setPstates (.percpu cpu) ps) h.mapped hl time
  simp only [cpuChangePstate, hget, deref, bind, Except.bind, changedTable, changed]
  rcases (h.pstates (.percpu cpu)).idle with hidle | hidle | hidle
  · simp [hidle, hcomposite]
  · simp [hidle, hcomposite]
  · simp [hidle, CpuidleDatas.setPstates]

def storedTable (pstates : PstateTable) (phy : CpuPhysical) (core : CpuCore) (cpu state : Int)
    (time : ℚ) : PstateTable :=
  if (pstates (.percpu cpu)).pstate = [] then pstates
  else
    composed phy core time
      (Function.update pstates (.percpu cpu)
        (if state = -1 then resumed (pstates (.percpu cpu)) time
          else idled (pstates (.percpu cpu)) time))

/-- What a `cpu_idle` event that is not ignored does. -/
structure Stored (datas datas' : CpuidleDatas) (phy : CpuPhysical) (core : CpuCore)
    (cpu state : Int) (time : ℚ) : Prop where
  nrcpus : datas'.nrcpus = datas.nrcpus
  topo : datas'.topo = datas.topo
  atCpu : recordCstateEvent (datas.cstates (.percpu cpu)) time state =
    .ok (datas'.cstates (.percpu cpu))
  atCore : recordCstateEvent (datas.cstates (coreRef phy core)) time
    (least (currentCstates datas') (coreIds core)) = .ok (datas'.cstates (coreRef phy core))
  atCluster : recordCstateEvent (datas.cstates (clusterRef phy)) time
    (least (currentCstates datas') (clusterIds phy)) = .ok (datas'.cstates (clusterRef phy))
  others : ∀ ref, ref ≠ .percpu cpu → ref ≠ coreRef phy core → ref ≠ clusterRef phy →
    datas'.cstates ref = datas.cstates ref
  pstates : datas'.pstates = storedTable datas.pstates phy core cpu state time

/-- The only `cpu_idle` events that are ignored altogether. -/
def Ignored (datas : CpuidleDatas) (cpu state : Int) : Prop :=
  state = -1 ∧ (datas.cstates (.percpu cpu)).cstateMax = -1

instance (datas : CpuidleDatas) (cpu state : Int) : Decidable (Ignored datas cpu state) := by
  unfold Ignored
  infer_instance

theorem Ignored.current {state : Int} (hignored : Ignored datas cpu state) (h : Ready datas) :
    currentCstates datas cpu = -1 := by
  obtain ⟨top, hok⟩ := h.cstates (.percpu cpu)
  have hrange := hok.current
  have hmax := hignored.2
  simp only [currentCstates]
  omega

theorem storeData_ignored (h : Ready datas) (hcpu : cpu ∈ cpuIds datas.topo) {state : Int}
    (hignored : Ignored datas cpu state) (time : ℚ) :
    storeData time state cpu datas = .ok datas := by
  have hboth : state = -1 ∧ (datas.cstates (.percpu cpu)).cstateMax = -1 := hignored
  simp only [storeData, percpu_of_mem h.mapped hcpu, bind, Except.bind, hboth, and_self, if_true]

theorem least_valid {f : Int → Int} {members : List Int} (hne : members ≠ [])
    (hf : ∀ cpu ∈ members, ValidState (f cpu)) : ValidState (least f members) := by
  obtain ⟨cpu, hcpu, heq⟩ := (least_isLeast hne fun cpu hcpu => (hf cpu hcpu).2).1
  exact heq ▸ hf cpu hcpu

theorem updatePstates_eq (datas : CpuidleDatas) (hm : Mapped datas.nrcpus datas.topo)
    (hl : Located datas.topo cpu phy core) (state : Int) (time : ℚ) :
    updatePstates datas (datas.pstates (.percpu cpu)).pstate cpu state time =
      .ok { datas with pstates := storedTable datas.pstates phy core cpu state time } := by
  have hcomposite : ∀ ps, checkPstateComposite (datas.setPstates (.percpu cpu) ps) cpu time =
      .ok { datas with
        pstates := composed phy core time (Function.update datas.pstates (.percpu cpu) ps) } :=
    fun ps => checkPstateComposite_eq (datas.setPstates (.percpu cpu) ps) hm hl time
  unfold updatePstates storedTable
  split
  · rfl
  · split
    · simp only [cpuPstateRunning, percpu_of_mem hm hl.mem_cpuIds, bind, Except.bind, hcomposite,
        resumed]
    · simp only [cpuPstateIdle, percpu_of_mem hm hl.mem_cpuIds, bind, Except.bind, hcomposite,
        idled]

theorem storedTable_ok (h : ∀ ref, PstatesOk (datas.pstates ref)) (state : Int) (time : ℚ)
    (ref : RecordRef) : PstatesOk (storedTable datas.pstates phy core cpu state time ref) := by
  unfold storedTable
  split
  · exact h ref
  · have hown := resumed_or_idled_ok (h (.percpu cpu)) state time
    exact composed_ok (update_all PstatesOk (.percpu cpu) h hown) ref

private theorem record_ready (datas : CpuidleDatas)
    (h : ∀ ref, ∃ top, RecordOk top (datas.cstates ref))
    (ref : RecordRef) {state : Int} (hstate : ValidState state) (time : ℚ) :
    ∃ r, recordCstateEvent (datas.cstates ref) time state = .ok r ∧ r.currentCstate = state ∧
      ∀ ref', ∃ top, RecordOk top ((datas.setCstates ref r).cstates ref') := by
  obtain ⟨top, hok⟩ := h ref
  obtain ⟨r, hrecord, hok', hrecorded⟩ := recordCstateEvent_spec hok hstate time
  exact ⟨r, hrecord, hrecorded.current,
    update_all (fun r => ∃ top, RecordOk top r) ref h ⟨top, hok'⟩⟩

theorem currentCstates_valid (h : ∀ ref, ∃ top, RecordOk top (datas.cstates ref)) (cpu : Int) :
    ValidState (currentCstates datas cpu) := by
  obtain ⟨top, hok⟩ := h (.percpu cpu)
  exact hok.validState

theorem currentCstates_setCstates {ref : RecordRef} (href : ∀ cpu, ref ≠ .percpu cpu)
    (r : CpuidleCstates) : currentCstates (datas.setCstates ref r) = currentCstates datas := by
  funext cpu
  have hne : RecordRef.percpu cpu ≠ ref := (href cpu).symm
  simp [currentCstates, CpuidleDatas.setCstates, hne]

theorem storeData_spec (h : Ready datas) (hl : Located datas.topo cpu phy core) {state : Int}
    (hstate : ValidState state) (hnot : ¬ Ignored datas cpu state) (time : ℚ) :
    ∃ datas', storeData time state cpu datas = .ok datas' ∧
      Stored datas datas' phy core cpu state time ∧ Ready datas' := by
  have hm := h.mapped
  have hcoreNe : coreIds core ≠ [] := hm.group_inhabited hl.core_group
  have hclusterNe : clusterIds phy ≠ [] := hm.group_inhabited hl.cluster_group
  -- the CPU
  obtain ⟨r₁, hrecord₁, -, hok₁⟩ := record_ready datas h.cstates (.percpu cpu) hstate time
  let datas₁ : CpuidleDatas := { datas.setCstates (.percpu cpu) r₁ with
    pstates := storedTable datas.pstates phy core cpu state time }
  have hhalf : updatePstates (datas.setCstates (.percpu cpu) r₁)
      (datas.pstates (.percpu cpu)).pstate cpu state time = .ok datas₁ :=
    updatePstates_eq (datas.setCstates (.percpu cpu) r₁) hm hl state time
  -- the core
  have hleast₁ : coreGetLeastCstate datas₁ core =
      .ok (least (currentCstates datas₁) (coreIds core)) := hl.coreGetLeastCstate hm
  obtain ⟨r₂, hrecord₂, -, hok₂⟩ := record_ready datas₁ hok₁ (coreRef phy core)
    (least_valid (f := currentCstates datas₁) hcoreNe fun c _ => currentCstates_valid hok₁ c) time
  -- the cluster
  have hleast₂ : clusterGetLeastCstate (datas₁.setCstates (coreRef phy core) r₂) phy =
      .ok (least (currentCstates datas₁) (clusterIds phy)) := by
    rw [hl.clusterGetLeastCstate hm, currentCstates_setCstates (by simp [coreRef])]
  obtain ⟨r₃, hrecord₃, -, hok₃⟩ := record_ready
    (datas₁.setCstates (coreRef phy core) r₂) hok₂ (clusterRef phy)
    (least_valid (f := currentCstates datas₁) hclusterNe fun c _ =>
      currentCstates_valid hok₁ c) time
  let datas₃ := (datas₁.setCstates (coreRef phy core) r₂).setCstates (clusterRef phy) r₃
  have hcurrent : currentCstates datas₃ = currentCstates datas₁ := by
    rw [currentCstates_setCstates (by simp [clusterRef]),
      currentCstates_setCstates (by simp [coreRef])]
  have hcoreOther : (datas₁.cstates (coreRef phy core)) = datas.cstates (coreRef phy core) := by
    simp [datas₁, CpuidleDatas.setCstates, coreRef]
  have hclusterOther : (datas₁.setCstates (coreRef phy core) r₂).cstates (clusterRef phy) =
      datas.cstates (clusterRef phy) := by
    simp [datas₁, CpuidleDatas.setCstates, coreRef, clusterRef]
  refine ⟨datas₃, ?_, ?_, hm, hok₃, storedTable_ok h.pstates state time⟩
  · have hcore : cpuToCore cpu datas₁.topo = some core := hl.core
    have hcluster : cpuToCluster cpu (datas₁.setCstates (coreRef phy core) r₂).topo = some phy :=
      hl.cluster
    have hproceed : ¬ (state = -1 ∧ (datas.cstates (.percpu cpu)).cstateMax = -1) := hnot
    simp only [storeData, percpu_of_mem hm hl.mem_cpuIds, bind, Except.bind, hproceed, if_false,
      hrecord₁, hhalf, hcore, deref, hleast₁, recordGroupCstate,
      (hm.core phy hl.phy_mem core hl.core_mem).1, hrecord₂, hcluster, hleast₂,
      (hm.cluster phy hl.phy_mem).1, hrecord₃]
    rfl
  · exact {
      nrcpus := rfl
      topo := rfl
      atCpu := by simpa [datas₃, datas₁, CpuidleDatas.setCstates] using hrecord₁
      atCore := by
        rw [hcurrent, ← hcoreOther, hrecord₂]
        simp [datas₃, CpuidleDatas.setCstates]
      atCluster := by
        rw [hcurrent, ← hclusterOther, hrecord₃]
        simp [datas₃, CpuidleDatas.setCstates]
      others := fun ref hcpu hcore hcluster => by
        simp [datas₃, datas₁, CpuidleDatas.setCstates, hcpu, hcore, hcluster]
      pstates := rfl }

end Handlers

/-! ## One step, and whole runs -/

/-- What one event of a CPU of the tree can do. -/
inductive Effect (datas : CpuidleDatas) (phy : CpuPhysical) (core : CpuCore) :
    PowerEvent → CpuidleDatas → Prop
  | ignored {time : ℚ} {state cpu : Int} (hignored : Ignored datas cpu state) :
      Effect datas phy core (.storeData time state cpu) datas
  | stored {time : ℚ} {state cpu : Int} {datas' : CpuidleDatas}
      (hnot : ¬ Ignored datas cpu state)
      (hstored : Stored datas datas' phy core cpu state time) :
      Effect datas phy core (.storeData time state cpu) datas'
  | changed {cpu : Int} {freq : Nat} {time : ℚ} :
      Effect datas phy core (.cpuChangePstate cpu freq time)
        { datas with pstates := changedTable datas.pstates phy core cpu freq time }

section Step

variable {datas datas' : CpuidleDatas} {event : PowerEvent} {phy : CpuPhysical} {core : CpuCore}

theorem Effect.topo (h : Effect datas phy core event datas') : datas'.topo = datas.topo := by
  cases h with
  | ignored => rfl
  | stored _ hstored => exact hstored.topo
  | changed => rfl

theorem Effect.nrcpus (h : Effect datas phy core event datas') :
    datas'.nrcpus = datas.nrcpus := by
  cases h with
  | ignored => rfl
  | stored _ hstored => exact hstored.nrcpus
  | changed => rfl

theorem changedTable_ok {pstates : PstateTable} (h : ∀ ref, PstatesOk (pstates ref)) (cpu : Int)
    (freq : Nat) (time : ℚ) (ref : RecordRef) :
    PstatesOk (changedTable pstates phy core cpu freq time ref) := by
  have hupdated :=
    update_all PstatesOk (.percpu cpu) h (changed_spec (h (.percpu cpu)) freq time).ok
  unfold changedTable
  split
  · exact hupdated ref
  · exact composed_ok hupdated ref

section Tables

variable {pstates : PstateTable} {cpu c : Int} {freq : Nat} {state : Int} {time : ℚ}

@[simp] theorem changedTable_self :
    changedTable pstates phy core cpu freq time (.percpu cpu) =
      changed (pstates (.percpu cpu)) freq time := by
  unfold changedTable
  split <;> simp

theorem changedTable_other (hne : c ≠ cpu) :
    changedTable pstates phy core cpu freq time (.percpu c) = pstates (.percpu c) := by
  unfold changedTable
  split <;> simp [hne]

theorem storedTable_self :
    storedTable pstates phy core cpu state time (.percpu cpu) =
      if (pstates (.percpu cpu)).pstate = [] then pstates (.percpu cpu)
      else if state = -1 then resumed (pstates (.percpu cpu)) time
      else idled (pstates (.percpu cpu)) time := by
  unfold storedTable
  split <;> simp

theorem storedTable_other (hne : c ≠ cpu) :
    storedTable pstates phy core cpu state time (.percpu c) = pstates (.percpu c) := by
  unfold storedTable
  split <;> simp [hne]

end Tables

theorem Effect.other (h : Effect datas phy core event datas') {c : Int} (hne : c ≠ event.cpu) :
    datas'.pstates (.percpu c) = datas.pstates (.percpu c) ∧
      datas'.cstates (.percpu c) = datas.cstates (.percpu c) := by
  cases h with
  | ignored => exact ⟨rfl, rfl⟩
  | stored _ hstored =>
    refine ⟨?_, hstored.others _ (fun href => hne (RecordRef.percpu.inj href)) (by simp) (by simp)⟩
    rw [hstored.pstates]
    exact storedTable_other hne
  | changed => exact ⟨changedTable_other hne, rfl⟩

theorem Stored.current {cpu state : Int} {time : ℚ}
    (h : Stored datas datas' phy core cpu state time) (hready : Ready datas)
    (hstate : ValidState state) : currentCstates datas' cpu = state := by
  obtain ⟨top, hok⟩ := hready.cstates (.percpu cpu)
  obtain ⟨r, hrecord, -, hrec⟩ := recordCstateEvent_spec hok hstate time
  have hr : r = datas'.cstates (.percpu cpu) := Except.ok.inj (hrecord.symm.trans h.atCpu)
  rw [currentCstates, ← hr]
  exact hrec.current

theorem step_spec (h : Ready datas) (hvalid : ValidEvent datas.topo event) :
    ∃ phy core datas', Located datas.topo event.cpu phy core ∧ step datas event = .ok datas' ∧
      Ready datas' ∧ Effect datas phy core event datas' := by
  obtain ⟨phy, core, hl⟩ := h.mapped.located hvalid.cpu_mem
  cases event with
  | storeData time state cpu =>
    by_cases hignored : Ignored datas cpu state
    · exact ⟨phy, core, datas, hl, storeData_ignored h hvalid.2 hignored time, h,
        .ignored hignored⟩
    · obtain ⟨datas', hstore, hstored, hready⟩ := storeData_spec h hl hvalid.1 hignored time
      exact ⟨phy, core, datas', hl, hstore, hready, .stored hignored hstored⟩
  | cpuChangePstate cpu freq time =>
    refine ⟨phy, core, _, hl, cpuChangePstate_eq h hl freq time, ?_, .changed⟩
    exact ⟨h.mapped, h.cstates, changedTable_ok h.pstates cpu freq time⟩

structure ReadyOn (topo : CpuTopology) (nrcpus : Int) (datas : CpuidleDatas) : Prop where
  ready : Ready datas
  topo : datas.topo = topo
  nrcpus : datas.nrcpus = nrcpus

theorem ReadyOn.next {topo : CpuTopology} {nrcpus : Int} (h : ReadyOn topo nrcpus datas)
    (hvalid : ValidEvent topo event) :
    ∃ phy core datas', Located topo event.cpu phy core ∧ step datas event = .ok datas' ∧
      ReadyOn topo nrcpus datas' ∧ Effect datas phy core event datas' := by
  obtain ⟨hready, rfl, rfl⟩ := h
  obtain ⟨phy, core, datas', hl, hstep, hready', heffect⟩ := step_spec hready hvalid
  exact ⟨phy, core, datas', hl, hstep, ⟨hready', heffect.topo, heffect.nrcpus⟩, heffect⟩

end Step

theorem run_total {start : CpuidleDatas} (h : Loaded start) {events : List PowerEvent}
    (hvalid : ∀ event ∈ events, ValidEvent start.topo event) :
    ∃ final, Runs.run step start events = .ok final := by
  have hstart : ReadyOn start.topo start.nrcpus start := ⟨ready_of_started h.started, rfl, rfl⟩
  have hstep : ∀ past event rest datas, events = past ++ event :: rest →
      ReadyOn start.topo start.nrcpus datas →
      ∃ datas', step datas event = .ok datas' ∧ ReadyOn start.topo start.nrcpus datas' := by
    intro past event rest datas hsplit hready
    obtain ⟨phy, core, datas', -, hnext, hready', -⟩ :=
      hready.next (hvalid event (by simp [hsplit]))
    exact ⟨datas', hnext, hready'⟩
  obtain ⟨final, hrun, -⟩ := Runs.run_invariant (fun _ => ReadyOn start.topo start.nrcpus) hstart
    hstep
  exact ⟨final, hrun⟩

end Idlestat.Theory.RecorderSteps
