import Idlestat.Theory.RecorderSteps

/-! The frequency a core or cluster shows against the highest frequency of its
CPUs that are not idle. The two loops differ (the core's also looks at idle
CPUs) and `record_group_freq` can take a new entry for the current one, so the
groups are right along a run exactly when no step meets either defect. -/
namespace Idlestat.Theory.GroupFrequency

open Idlestat.Library Idlestat.Library.SortedKeys Idlestat.Model.Topology
  Idlestat.Model.Cstates Idlestat.Model.Pstates Idlestat.Model.Recorder
  Idlestat.Theory.CstateRecord Idlestat.Theory.Nodes Idlestat.Theory.PstateRecord
  Idlestat.Theory.Setup Idlestat.Theory.RecorderSteps

/-! ## What groups should show -/

def freqOf (datas : CpuidleDatas) (cpu : Int) : Nat :=
  coreFreq (datas.pstates (.percpu cpu))

def flaggedIdle (datas : CpuidleDatas) (cpu : Int) : Bool :=
  (datas.pstates (.percpu cpu)).idle = 1

/-- The highest frequency of the group's CPUs that are not idle, 0 if none has one. -/
def activeHighest (datas : CpuidleDatas) (members : List Int) : Nat :=
  greatest (fun cpu => if flaggedIdle datas cpu then 0 else freqOf datas cpu) members

/-- The record's current entry has this frequency; no entry is current for 0. -/
def Shows (ps : CpufreqPstates) (freq : Nat) : Prop :=
  if 0 < freq then ∃ p, 0 ≤ ps.current ∧ ps.pstate[ps.current.toNat]? = some p ∧ p.freq = freq
  else ps.current = -1

def GroupsShow (topo : CpuTopology) (datas : CpuidleDatas) : Prop :=
  ∀ group ∈ groups topo, Shows (datas.pstates group.1) (activeHighest datas group.2)

section Reading

variable {ps : CpufreqPstates} {freq : Nat}

theorem coreFreq_eq : coreFreq ps = (currentFreq ps).getD 0 := by
  unfold coreFreq currentFreq freqAt pstateFreq
  split
  · rfl
  · simp [rows, row, Function.comp_def]

theorem clusterFreq_eq (h : PstatesOk ps) :
    clusterFreq ps = if ps.idle = 1 then 0 else coreFreq ps := by
  unfold clusterFreq coreFreq
  rcases h.idle with hidle | hidle | hidle <;> simp [hidle]

theorem shows_iff (h : PstatesOk ps) : Shows ps freq ↔ currentFreq ps = shown freq := by
  unfold Shows shown
  by_cases hpos : 0 < freq
  · rw [if_pos hpos, if_pos hpos]
    constructor
    · rintro ⟨p, hnonneg, hp, hfreq⟩
      simp [currentFreq, freqAt, hnonneg.not_gt, rows, hp, row, hfreq]
    · intro hcur
      have hrange := freqAt_isSome_iff.mp (Option.isSome_of_mem hcur)
      simp only [currentFreq, freqAt, hrange.1.not_gt, if_false] at hcur
      obtain ⟨r, hr, hfreq⟩ := Option.map_eq_some_iff.mp hcur
      rw [rows, List.getElem?_map] at hr
      obtain ⟨p, hp, rfl⟩ := Option.map_eq_some_iff.mp hr
      exact ⟨p, hrange.1, hp, hfreq⟩
  · rw [if_neg hpos, if_neg hpos, h.table.currentFreq_eq_none]

theorem shown_inj {freq freq' : Nat} : shown freq = shown freq' ↔ freq = freq' := by
  unfold shown
  constructor
  · intro heq
    split at heq <;> split at heq <;> simp_all
  · intro heq
    rw [heq]

/-- A slip leaves a current frequency above the one that was to be recorded. -/
theorem slips_above (h : PstatesOk ps) (hslips : Slips ps freq) :
    ∃ above, currentFreq ps = some above ∧ freq < above := by
  obtain ⟨-, -, hcur⟩ := hslips
  have hrange := h.current
  rw [hcur, ← position_rows] at hrange
  have hlt : position Prod.fst freq (rows ps) < (rows ps).length := by
    rw [length_rows]
    omega
  refine ⟨((rows ps)[position Prod.fst freq (rows ps)]).1, ?_, ?_⟩
  · have hnot : ¬ ((position Prod.fst freq (rows ps) : Nat) : Int) < 0 := by omega
    rw [currentFreq, hcur, ← position_rows]
    simp only [freqAt, hnot, if_false, Int.toNat_natCast, List.getElem?_eq_getElem hlt,
      Option.map_some]
  · apply drop_position h.sorted
    rw [List.drop_eq_getElem_cons hlt]
    exact List.mem_cons_self

end Reading

/-- The event makes its CPU's core and cluster record a frequency. -/
def Recomputes (datas : CpuidleDatas) : PowerEvent → Prop
  | .storeData _ state cpu =>
    ¬ Ignored datas cpu state ∧ (datas.pstates (.percpu cpu)).pstate ≠ []
  | .cpuChangePstate cpu _ _ => flaggedIdle datas cpu = false

def nextFreq (datas : CpuidleDatas) (event : PowerEvent) (cpu : Int) : Nat :=
  match event with
  | .storeData _ _ _ => freqOf datas cpu
  | .cpuChangePstate c freq _ => if cpu = c then freq else freqOf datas cpu

def nextIdle (datas : CpuidleDatas) (event : PowerEvent) (cpu : Int) : Bool :=
  match event with
  | .storeData _ state c => if cpu = c then state ≠ -1 else flaggedIdle datas cpu
  | .cpuChangePstate _ _ _ => flaggedIdle datas cpu

/-- The highest frequency of a group after the event, with or without idle CPUs. -/
def nextHighest (datas : CpuidleDatas) (event : PowerEvent) (members : List Int) : Nat :=
  greatest (nextFreq datas event) members

def nextActive (datas : CpuidleDatas) (event : PowerEvent) (members : List Int) : Nat :=
  greatest (fun cpu => if nextIdle datas event cpu then 0 else nextFreq datas event cpu) members

/-- The event does not meet a defect: if groups are recomputed, no idle CPU of
the core is above its other CPUs, and neither group's new frequency is a new
entry right below the current one. -/
def GroupsFollow (datas : CpuidleDatas) (event : PowerEvent) : Prop :=
  Recomputes datas event → ∀ phy core, Located datas.topo event.cpu phy core →
    nextHighest datas event (coreIds core) = nextActive datas event (coreIds core) ∧
      ¬ Slips (datas.pstates (coreRef phy core)) (nextHighest datas event (coreIds core)) ∧
      ¬ Slips (datas.pstates (clusterRef phy)) (nextActive datas event (clusterIds phy))

instance (datas : CpuidleDatas) : (event : PowerEvent) → Decidable (Recomputes datas event)
  | .storeData _ _ _ => inferInstanceAs (Decidable (¬ _ ∧ ¬ _))
  | .cpuChangePstate _ _ _ => inferInstanceAs (Decidable (_ = _))

instance (datas : CpuidleDatas) (event : PowerEvent) : Decidable (GroupsFollow datas event) :=
  decidable_of_iff (Recomputes datas event → ∀ phy ∈ datas.topo.physicalHead,
      ∀ core ∈ phy.coreHead, Located datas.topo event.cpu phy core → _ ∧ ¬ _ ∧ ¬ _)
    (forall_congr' fun _ => forall_congr' fun _ =>
      ⟨fun h core hl => h hl.phy_mem core hl.core_mem hl, fun h _ core _ hl => h core hl⟩)

section OneEvent

variable {datas datas' : CpuidleDatas} {event : PowerEvent} {phy : CpuPhysical} {core : CpuCore}

structure Recomputed (datas datas' : CpuidleDatas) (event : PowerEvent) (phy : CpuPhysical)
    (core : CpuCore) : Prop where
  freq : ∀ cpu, freqOf datas' cpu = nextFreq datas event cpu
  idle : ∀ cpu, flaggedIdle datas' cpu = nextIdle datas event cpu
  atCore : datas'.pstates (coreRef phy core) =
    recordGroupFreq (datas.pstates (coreRef phy core)) event.time
      (nextHighest datas event (coreIds core))
  atCluster : datas'.pstates (clusterRef phy) =
    recordGroupFreq (datas.pstates (clusterRef phy)) event.time
      (nextActive datas event (clusterIds phy))
  others : ∀ ref, (∀ cpu, ref ≠ .percpu cpu) → ref ≠ coreRef phy core → ref ≠ clusterRef phy →
    datas'.pstates ref = datas.pstates ref

private theorem recomputed_of_composed (hready : Ready datas) {ps : CpufreqPstates}
    (hps : PstatesOk ps)
    (hpstates : datas'.pstates =
      composed phy core event.time (Function.update datas.pstates (.percpu event.cpu) ps))
    (hfreq : coreFreq ps = nextFreq datas event event.cpu)
    (hidle : decide (ps.idle = 1) = nextIdle datas event event.cpu)
    (hfreqs : ∀ cpu ≠ event.cpu, freqOf datas cpu = nextFreq datas event cpu)
    (hidles : ∀ cpu ≠ event.cpu, flaggedIdle datas cpu = nextIdle datas event cpu) :
    Recomputed datas datas' event phy core := by
  have hfreq' : ∀ cpu, coreFreq (Function.update datas.pstates (.percpu event.cpu) ps
      (.percpu cpu)) = nextFreq datas event cpu := by
    intro cpu
    by_cases heq : cpu = event.cpu
    · rw [heq, Function.update_self, hfreq]
    · rw [Function.update_of_ne (by simpa using heq), ← hfreqs cpu heq]
      rfl
  have hidle' : ∀ cpu, decide ((Function.update datas.pstates (.percpu event.cpu) ps
      (.percpu cpu)).idle = 1) = nextIdle datas event cpu := by
    intro cpu
    by_cases heq : cpu = event.cpu
    · rw [heq, Function.update_self, hidle]
    · rw [Function.update_of_ne (by simpa using heq), ← hidles cpu heq]
      rfl
  have hok : ∀ cpu, PstatesOk (Function.update datas.pstates (.percpu event.cpu) ps
      (.percpu cpu)) := fun cpu => update_all PstatesOk _ hready.pstates hps _
  have hactive : ∀ cpu, clusterFreq (Function.update datas.pstates (.percpu event.cpu) ps
      (.percpu cpu)) = if nextIdle datas event cpu then 0 else nextFreq datas event cpu := by
    intro cpu
    rw [clusterFreq_eq (hok cpu), hfreq', ← hidle']
    simp
  exact {
    freq := fun cpu => by
      rw [freqOf, hpstates, composed_percpu, hfreq']
    idle := fun cpu => by
      rw [flaggedIdle, hpstates, composed_percpu, hidle']
    atCore := by
      rw [hpstates, composed_core, coreHighest, nextHighest, greatest_congr fun cpu _ => hfreq' cpu,
        Function.update_of_ne (by simp)]
    atCluster := by
      rw [hpstates, composed_cluster, clusterHighest, nextActive,
        greatest_congr fun cpu _ => hactive cpu, Function.update_of_ne (by simp)]
    others := fun ref hpercpu hcore hcluster => by
      rw [hpstates, composed_other hcore hcluster, Function.update_of_ne (hpercpu _)] }

theorem recomputed_of_effect (hready : Ready datas) (hrecomputes : Recomputes datas event)
    (heffect : Effect datas phy core event datas') : Recomputed datas datas' event phy core := by
  cases heffect with
  | ignored hignored => exact absurd hignored hrecomputes.1
  | @stored time state cpu datas' hnot hstored =>
    have hps := hready.pstates (.percpu cpu)
    have hresumed := resumed_spec hps time
    have hidled := idled_spec hps time
    refine recomputed_of_composed hready (resumed_or_idled_ok hps state time) ?_ ?_ ?_ ?_ ?_
    · rw [hstored.pstates, storedTable, if_neg hrecomputes.2]
      rfl
    · simp only [nextFreq, freqOf, PowerEvent.cpu]
      split
      · rw [coreFreq_eq, coreFreq_eq, hresumed.current]
      · rw [coreFreq_eq, coreFreq_eq, hidled.current]
    · simp only [nextIdle, PowerEvent.cpu, if_true]
      split
      · next hrunning => simp [hresumed.idle, hrunning]
      · next hrunning => simp [hidled.idle, hrunning]
    · intro c _
      rfl
    · intro c hne
      simp only [PowerEvent.cpu] at hne
      simp [nextIdle, hne]
  | @changed cpu freq time =>
    have hchanged := changed_spec (hready.pstates (.percpu cpu)) freq time
    have hnotIdle : (datas.pstates (.percpu cpu)).idle ≠ 1 := by
      simpa [Recomputes, flaggedIdle] using hrecomputes
    refine recomputed_of_composed hready hchanged.ok ?_ ?_ ?_ ?_ ?_
    · simp only [changedTable, hnotIdle, if_false]
      rfl
    · rw [coreFreq_eq, hchanged.current]
      simp [nextFreq, PowerEvent.cpu]
    · simp only [hchanged.idle]
      rfl
    · intro c hne
      simp only [PowerEvent.cpu] at hne
      simp [nextFreq, hne]
    · intro c _
      rfl

theorem kept_of_effect (hready : Ready datas) (hnot : ¬ Recomputes datas event)
    (heffect : Effect datas phy core event datas') :
    (∀ ref, (∀ cpu, ref ≠ .percpu cpu) → datas'.pstates ref = datas.pstates ref) ∧
      ∀ members, activeHighest datas' members = activeHighest datas members := by
  cases heffect with
  | ignored => exact ⟨fun _ _ => rfl, fun _ => rfl⟩
  | @stored time state cpu datas' hproceed hstored =>
    have hempty : (datas.pstates (.percpu cpu)).pstate = [] := by
      by_contra hne
      exact hnot ⟨hproceed, hne⟩
    have hsame : datas'.pstates = datas.pstates := by
      rw [hstored.pstates, storedTable, if_pos hempty]
    have hidles : flaggedIdle datas' = flaggedIdle datas := by
      unfold flaggedIdle
      rw [hsame]
    have hfreqs : freqOf datas' = freqOf datas := by
      unfold freqOf
      rw [hsame]
    exact ⟨fun ref _ => by rw [hsame], fun members => by rw [activeHighest, hidles, hfreqs]; rfl⟩
  | @changed cpu freq time =>
    have hidle : (datas.pstates (.percpu cpu)).idle = 1 := by
      simpa [Recomputes, flaggedIdle] using hnot
    have hchanged := changed_spec (hready.pstates (.percpu cpu)) freq time
    have htable : changedTable datas.pstates phy core cpu freq time =
        Function.update datas.pstates (.percpu cpu)
          (changed (datas.pstates (.percpu cpu)) freq time) := by
      simp [changedTable, hidle]
    refine ⟨fun ref href => ?_, fun members => ?_⟩
    · simp only [htable]
      exact Function.update_of_ne (href cpu) _ _
    · apply greatest_congr
      intro c _
      by_cases heq : c = cpu
      · -- an idle CPU counts for nothing before and after
        subst heq
        simp [flaggedIdle, hchanged.idle, hidle]
      · simp [flaggedIdle, freqOf, htable, heq]

/-- A recorded group shows the active frequency unless it was given another one
or took the new entry for its current one. -/
theorem shows_recorded {ps : CpufreqPstates} (h : PstatesOk ps) {high active : Nat}
    (hle : active ≤ high) (time : ℚ) :
    Shows (recordGroupFreq ps time high) active ↔ high = active ∧ ¬ Slips ps high := by
  have hrecorded := recordGroupFreq_spec h high time
  rw [shows_iff hrecorded.ok, hrecorded.currentFreq]
  by_cases hslips : Slips ps high
  · obtain ⟨above, hcur, habove⟩ := slips_above h hslips
    rw [if_pos hslips, hcur]
    refine iff_of_false (fun heq => ?_) fun hboth => hboth.2 hslips
    unfold shown at heq
    split at heq
    · have hsame := Option.some.inj heq
      omega
    · cases heq
  · rw [if_neg hslips, shown_inj]
    exact ⟨fun heq => ⟨heq, hslips⟩, And.left⟩

theorem nextActive_le (event : PowerEvent) (members : List Int) :
    nextActive datas event members ≤ nextHighest datas event members := by
  apply greatest_mono
  intro cpu _
  split
  · exact Nat.zero_le _
  · exact le_refl _

theorem Recomputed.activeHighest (h : Recomputed datas datas' event phy core)
    (members : List Int) : activeHighest datas' members = nextActive datas event members := by
  simp only [GroupFrequency.activeHighest, nextActive, h.idle, h.freq]

theorem Recomputed.other (h : Recomputed datas datas' event phy core)
    {members : List Int} (hcpu : event.cpu ∉ members) :
    GroupFrequency.activeHighest datas' members = GroupFrequency.activeHighest datas members := by
  apply greatest_congr
  intro cpu hmem
  have hne : cpu ≠ event.cpu := fun heq => hcpu (heq ▸ hmem)
  rw [h.idle, h.freq]
  cases event with
  | storeData time state c => simp [nextIdle, nextFreq, show cpu ≠ c from hne]
  | cpuChangePstate c freq time => simp [nextIdle, nextFreq, show cpu ≠ c from hne]

theorem groupsShow_next (hready : Ready datas) (hl : Located datas.topo event.cpu phy core)
    (heffect : Effect datas phy core event datas') (h : GroupsShow datas.topo datas) :
    GroupsShow datas.topo datas' ↔ GroupsFollow datas event := by
  by_cases hrecomputes : Recomputes datas event
  · have hrec := recomputed_of_effect hready hrecomputes heffect
    have hcore : Shows (datas'.pstates (coreRef phy core))
        (activeHighest datas' (coreIds core)) ↔
        nextHighest datas event (coreIds core) = nextActive datas event (coreIds core) ∧
          ¬ Slips (datas.pstates (coreRef phy core)) (nextHighest datas event (coreIds core)) := by
      rw [hrec.activeHighest, hrec.atCore]
      exact shows_recorded (hready.pstates _) (nextActive_le _ _) _
    have hcluster : Shows (datas'.pstates (clusterRef phy))
        (activeHighest datas' (clusterIds phy)) ↔
          ¬ Slips (datas.pstates (clusterRef phy)) (nextActive datas event (clusterIds phy)) := by
      rw [hrec.activeHighest, hrec.atCluster, shows_recorded (hready.pstates _) (le_refl _)]
      exact and_iff_right rfl
    constructor
    · intro hshow _ phy' core' hl'
      obtain rfl : phy = phy' := Option.some.inj (hl.cluster.symm.trans hl'.cluster)
      obtain rfl : core = core' := Option.some.inj (hl.core.symm.trans hl'.core)
      obtain ⟨heq, hslips⟩ := hcore.mp (hshow _ hl.core_group)
      exact ⟨heq, hslips, hcluster.mp (hshow _ hl.cluster_group)⟩
    · intro hfollow group hgroup
      obtain ⟨heq, hslipsCore, hslipsCluster⟩ := hfollow hrecomputes phy core hl
      obtain ⟨ref, members⟩ := group
      by_cases hmem : event.cpu ∈ members
      · rcases (hl.mem_groups_iff hready.mapped hgroup).mp hmem with rfl | rfl
        · rw [hready.mapped.group_unique hgroup hl.cluster_group]
          exact hcluster.mpr hslipsCluster
        · rw [hready.mapped.group_unique hgroup hl.core_group]
          exact hcore.mpr ⟨heq, hslipsCore⟩
      · have hrefs := not_or.mp ((hl.mem_groups_iff hready.mapped hgroup).not.mp hmem)
        have hpercpu : ∀ cpu, ref ≠ .percpu cpu := fun cpu href => percpu_not_group (href ▸ hgroup)
        simp only [hrec.others ref hpercpu hrefs.2 hrefs.1, hrec.other hmem]
        exact h _ hgroup
  · refine iff_of_true (fun group hgroup => ?_) fun hrec => absurd hrec hrecomputes
    obtain ⟨hrefs, hactive⟩ := kept_of_effect hready hrecomputes heffect
    obtain ⟨ref, members⟩ := group
    have hpercpu : ∀ cpu, ref ≠ .percpu cpu := fun cpu href => percpu_not_group (href ▸ hgroup)
    simp only [hactive, hrefs ref hpercpu]
    exact h _ hgroup

end OneEvent

/-- Every group shows the highest frequency of its CPUs that are not idle, after
every call, exactly when no call meets one of the two defects. -/
theorem group_frequency {start : CpuidleDatas} (h : Loaded start) (events : List PowerEvent)
    (hvalid : ∀ event ∈ events, ValidEvent start.topo event) :
    (∃ final, Runs.run step start events = .ok final) ∧
      (Runs.Always step (fun _ datas => GroupsShow start.topo datas) start events ↔
        Runs.EveryStep step GroupsFollow start events) := by
  have hstarted := h.started
  refine ⟨run_total h hvalid, ?_⟩
  refine Runs.always_iff_everyStep (fun _ => ReadyOn start.topo start.nrcpus) _ _ ?_ ?_ ?_
  · exact ⟨ready_of_started hstarted, rfl, rfl⟩
  · intro group _
    have hactive : activeHighest start group.2 = 0 := by
      have hmem : activeHighest start group.2 = 0 ∨ ∃ cpu ∈ group.2,
          (if flaggedIdle start cpu then 0 else freqOf start cpu) = activeHighest start group.2 :=
        greatest_mem _
      rcases hmem with hzero | ⟨cpu, -, heq⟩
      · exact hzero
      · rw [← heq]
        simp [freqOf, hstarted.pstates, buildPstateInfo, coreFreq]
    simp [Shows, hactive, hstarted.pstates, buildPstateInfo]
  · intro past event rest datas hsplit hready
    have hevent := hvalid event (by simp [hsplit])
    obtain ⟨phy, core, datas', hl, hstep, hready', heffect⟩ := hready.next hevent
    refine ⟨datas', hstep, hready', ?_⟩
    rw [← hready.topo] at hl ⊢
    exact groupsShow_next hready.ready hl heffect

/-- The slower CPU of the core goes idle. -/
def slowerIdle : List PowerEvent :=
  [.cpuChangePstate 0 100 0, .cpuChangePstate 1 200 1, .storeData 2 2 0]

theorem group_frequency_pair :
    (∃ final, Runs.run step pairDatas slowerIdle = .ok final) ∧
      Runs.Always step (fun _ datas => GroupsShow pairDatas.topo datas) pairDatas slowerIdle :=
  have hvalid : ∀ event ∈ slowerIdle, ValidEvent pairDatas.topo event := by
    simp [slowerIdle, ValidEvent, cpuIds_pairDatas, ValidState, maxcstate]
  have hfollow : Runs.EveryStep step GroupsFollow pairDatas slowerIdle := by decide +kernel
  have hshown := group_frequency pairDatas_loaded _ hvalid
  ⟨hshown.1, hshown.2.mpr hfollow⟩

/-- All CPUs of the core are idle or have no frequency, and the core still shows
one; and a core that drops to a new frequency just below its current one stays. -/
theorem core_frequency_wrong :
    Loaded pairDatas ∧ cpuIds pairDatas.topo = [0, 1] ∧
      (Runs.run step pairDatas [.cpuChangePstate 0 100 0, .storeData 1 2 0]).map
        (fun datas => ((datas.pstates (.core 0 0)).current, activeHighest datas [0, 1])) =
        .ok (0, 0) ∧
      (Runs.run step pairDatas [.cpuChangePstate 0 200 0, .cpuChangePstate 0 100 1]).map
        (fun datas => (currentFreq (datas.pstates (.core 0 0)), activeHighest datas [0, 1])) =
        .ok (some 200, 100) :=
  ⟨pairDatas_loaded, cpuIds_pairDatas, by decide +kernel, by decide +kernel⟩

end Idlestat.Theory.GroupFrequency
