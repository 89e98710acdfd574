import Idlestat.Theory.SleepShares

/-! No time is lost between the two kinds of statistics. What the C-state record
of a CPU shows, what its P-state record shows and the time it was running at no
known frequency make up the trace, after every event of a run, exactly when no
event meets one of the defects of the P-state record. -/
namespace Idlestat.Theory.TimeConservation

open Idlestat.Library Idlestat.Library.Timeline Idlestat.Library.RunningStats
  Idlestat.Model.Topology Idlestat.Model.Cstates Idlestat.Model.Pstates Idlestat.Model.Recorder
  Idlestat.Theory.CstateRecord Idlestat.Theory.Nodes Idlestat.Theory.PstateRecord
  Idlestat.Theory.Setup Idlestat.Theory.RecorderSteps Idlestat.Theory.CstateAccounting
  Idlestat.Theory.PstateAccounting Idlestat.Theory.SleepShares

/-- The frequencies of a table; a frequency of 0 is none. -/
def tableFreqs (ps : CpufreqPstates) : Finset Nat :=
  ((rows ps).map Prod.fst).toFinset.filter (0 < ·)

/-- What a record shows for all its frequencies at a time. -/
def busyTime (ps : CpufreqPstates) (operating : Prop) [Decidable operating] (time : ℚ) : ℚ :=
  ∑ freq ∈ tableFreqs ps, accrued ps operating freq time

def running (s : Option Nat × Int) : Bool :=
  s.2 = -1

/-- Running before the first frequency event, or after one that says 0. -/
def unknownFreq (s : Option Nat × Int) : Bool :=
  s.2 = -1 ∧ s.1.getD 0 = 0

/-- No frequency gains, or none loses. -/
def OneSided (before after : Nat → ℚ) : Prop :=
  (∀ freq > 0, after freq ≤ before freq) ∨ ∀ freq > 0, before freq ≤ after freq

/-- The statistics of the CPU add up to the time since the first event. -/
def Conserved (events : List PowerEvent) (cpu : Int) (datas : CpuidleDatas) : Prop :=
  nodeSleep datas events (.percpu cpu, [cpu]) 0 +
      busyTime (datas.pstates (.percpu cpu)) (latestState events cpu = -1)
        (lastEventTime events) +
      usecPerSec * timeWhere (cpuHistory events cpu) unknownFreq =
    usecPerSec * window (cpuHistory events cpu)

def Balanced (events : List PowerEvent) (cpu : Int) (ps : CpufreqPstates) : Prop :=
  busyTime ps (latestState events cpu = -1) (lastEventTime events) +
      usecPerSec * timeWhere (cpuHistory events cpu) unknownFreq =
    usecPerSec * timeWhere (cpuHistory events cpu) running

section OneRecord

variable {ps ps' : CpufreqPstates} {time : ℚ} {operating operating' : Prop}
  [Decidable operating] [Decidable operating']

theorem mem_tableFreqs {freq : Nat} :
    freq ∈ tableFreqs ps ↔ (∃ r ∈ rows ps, r.1 = freq) ∧ 0 < freq := by
  simp [tableFreqs]

theorem current_mem_tableFreqs {freq : Nat} (hcur : currentFreq ps = some freq)
    (hpos : 0 < freq) : freq ∈ tableFreqs ps :=
  mem_tableFreqs.mpr ⟨freqAt_mem hcur, hpos⟩

theorem accrued_absent {freq : Nat} (hpos : 0 < freq) (habsent : freq ∉ tableFreqs ps) :
    accrued ps operating freq time = 0 := by
  have hrows : ∀ r ∈ rows ps, r.1 ≠ freq := fun r hr heq =>
    habsent (mem_tableFreqs.mpr ⟨⟨r, hr, heq⟩, hpos⟩)
  have hcur : currentFreq ps ≠ some freq := fun hcur =>
    habsent (current_mem_tableFreqs hcur hpos)
  simp [accrued, pending, statsOf_of_absent hrows, hcur, Running.empty]

theorem busyTime_eq_sum {freqs : Finset Nat} (hsub : tableFreqs ps ⊆ freqs)
    (hpos : ∀ freq ∈ freqs, 0 < freq) :
    busyTime ps operating time = ∑ freq ∈ freqs, accrued ps operating freq time :=
  Finset.sum_subset hsub fun freq hfreq habsent => accrued_absent (hpos freq hfreq) habsent

/-- Where no frequency gains, or none loses, the sum is kept only if each is. -/
theorem busyTime_eq_iff
    (hside : OneSided (accrued ps operating · time) (accrued ps' operating' · time)) :
    busyTime ps' operating' time = busyTime ps operating time ↔
      ∀ freq > 0, accrued ps' operating' freq time = accrued ps operating freq time := by
  have hpos : ∀ freq ∈ tableFreqs ps ∪ tableFreqs ps', 0 < freq := by
    intro freq hfreq
    rcases Finset.mem_union.mp hfreq with hfreq | hfreq
    · exact (mem_tableFreqs.mp hfreq).2
    · exact (mem_tableFreqs.mp hfreq).2
  rw [busyTime_eq_sum Finset.subset_union_right hpos,
    busyTime_eq_sum Finset.subset_union_left hpos]
  have hboth : (∀ freq ∈ tableFreqs ps ∪ tableFreqs ps',
      accrued ps' operating' freq time = accrued ps operating freq time) ↔
      ∀ freq > 0, accrued ps' operating' freq time = accrued ps operating freq time := by
    constructor
    · intro hall freq hfreq
      by_cases hmem : freq ∈ tableFreqs ps ∪ tableFreqs ps'
      · exact hall freq hmem
      · obtain ⟨hnot, hnot'⟩ := not_or.mp (Finset.mem_union.not.mp hmem)
        rw [accrued_absent hfreq hnot, accrued_absent hfreq hnot']
    · exact fun hall freq hmem => hall freq (hpos freq hmem)
  rw [← hboth]
  rcases hside with hle | hge
  · exact Finset.sum_eq_sum_iff_of_le fun freq hmem => hle freq (hpos freq hmem)
  · rw [eq_comm, Finset.sum_eq_sum_iff_of_le fun freq hmem => hge freq (hpos freq hmem)]
    simp only [eq_comm]

/-- While the record is left alone, only the current frequency of a running CPU
grows. -/
theorem busyTime_later (ps : CpufreqPstates) (operating : Prop) [Decidable operating]
    (time later : ℚ) :
    busyTime ps operating later = busyTime ps operating time +
      if operating ∧ (currentFreq ps).getD 0 ≠ 0 then usecPerSec * (later - time) else 0 := by
  have hgrown : ∀ freq, accrued ps operating freq later = accrued ps operating freq time +
      if operating ∧ currentFreq ps = some freq then usecPerSec * (later - time) else 0 := by
    intro freq
    by_cases hop : operating
    · by_cases hcur : currentFreq ps = some freq
      · simp only [accrued, pending, hop, hcur, if_true, and_self]
        ring
      · simp [accrued, pending, hcur]
    · simp [accrued, hop]
  unfold busyTime
  simp only [hgrown, Finset.sum_add_distrib]
  congr 1
  by_cases hop : operating
  · cases hcur : currentFreq ps with
    | none => simp
    | some freq =>
      by_cases hzero : freq = 0
      · have hnot : freq ∉ tableFreqs ps := fun hmem => by
          have hpos := (mem_tableFreqs.mp hmem).2
          omega
        simp [hop, hzero ▸ hnot, hzero]
      · have hmem := current_mem_tableFreqs hcur (Nat.pos_of_ne_zero hzero)
        simp [hop, hmem, hzero]
  · simp [hop]

theorem resumed_le (hok : PstatesOk ps) (h : OpenedBy ps time) (freq : Nat) :
    accrued (resumed ps time) True freq time ≤ accrued ps operating freq time := by
  have hresumed := resumed_spec hok time
  have hopen : currentFreq (resumed ps time) ≠ none → (resumed ps time).timeEnter = time := by
    intro hne
    rw [hresumed.current] at hne
    rw [hresumed.timeEnter, if_neg hne]
  have hnonneg := pending_nonneg h freq
  rw [accrued, accrued, hresumed.stats, pending_reopened hopen, if_true, add_zero]
  split
  · exact le_add_of_nonneg_right hnonneg
  · rw [add_zero]

theorem le_idled (hok : PstatesOk ps) (h : OpenedBy ps time) (freq : Nat) :
    accrued ps operating freq time ≤ accrued (idled ps time) False freq time := by
  have hidled := idled_spec hok time
  have hnonneg := pending_nonneg h freq
  rw [accrued, accrued, hidled.stats, total_closed h, if_false, add_zero]
  split
  · exact le_refl _
  · exact add_le_add_right hnonneg _

theorem changed_le (hok : PstatesOk ps) (h : OpenedBy ps time)
    (hflag : FlagKnown ps operating) (freq : Nat) :
    ∀ f > 0, accrued (changed ps freq time) operating f time ≤ accrued ps operating f time := by
  intro f hf
  by_cases hidle : ps.idle = -1
  · have hchanged := changed_spec hok freq time
    have hopen : currentFreq (changed ps freq time) ≠ none →
        (changed ps freq time).timeEnter = time := by
      intro _
      rw [hchanged.timeEnter, if_neg (by omega)]
    have hstats : statsOf (changed ps freq time) f = statsOf ps f := by
      rw [hchanged.stats, if_neg fun hall => by omega]
    have hnonneg := pending_nonneg h f
    rw [accrued, accrued, hstats, pending_reopened hopen, ite_self, add_zero]
    split
    · exact le_add_of_nonneg_right hnonneg
    · rw [add_zero]
  · exact ((changed_exact hok h hflag freq).mpr (fun _ hunknown => absurd hunknown hidle) f hf).le

end OneRecord

section OneEvent

variable {topo : CpuTopology} {nrcpus : Int} {events : List PowerEvent} {event : PowerEvent}
  {cpu : Int} {datas datas' : CpuidleDatas} {phy : CpuPhysical} {core : CpuCore}

theorem timeWhere_cpuHistory_concat (p : Option Nat × Int → Bool) :
    timeWhere (cpuHistory (events ++ [event]) cpu) p = timeWhere (cpuHistory events cpu) p +
      if events ≠ [] ∧ p (reading cpu events) = true
        then event.time - lastEventTime events else 0 := by
  rw [cpuHistory, observed_concat, timeWhere_concat, ← cpuHistory, lastTime_cpuHistory, cpuHistory,
    lastState_observed]
  by_cases hnil : events = []
  · simp [hnil]
  · simp [hnil]

theorem balanced_concat {ps ps' : CpufreqPstates} (h : Followed events cpu ps)
    (hbalanced : Balanced events cpu ps) :
    Balanced (events ++ [event]) cpu ps' ↔
      busyTime ps' (latestState (events ++ [event]) cpu = -1) event.time =
        busyTime ps (latestState events cpu = -1) event.time := by
  have hgrown : busyTime ps (latestState events cpu = -1) event.time +
      usecPerSec * timeWhere (cpuHistory (events ++ [event]) cpu) unknownFreq =
        usecPerSec * timeWhere (cpuHistory (events ++ [event]) cpu) running := by
    rw [timeWhere_cpuHistory_concat, timeWhere_cpuHistory_concat, mul_add, mul_add, ← hbalanced,
      busyTime_later _ _ (lastEventTime events)]
    simp only [running, unknownFreq, reading, h.freq]
    by_cases hnil : events = []
    · subst hnil
      simp [latestFreq]
    · by_cases hop : latestState events cpu = -1
      · by_cases hzero : (latestFreq events cpu).getD 0 = 0
        · simp [hnil, hop, hzero]
          ring
        · simp [hnil, hop, hzero]
          ring
      · simp [hop]
  unfold Balanced
  rw [lastEventTime_concat, ← hgrown, add_left_inj]

private theorem oneSided_stored {state : Int} {time : ℚ} (hready : Ready datas)
    (hopened : OpenedBy (datas.pstates (.percpu cpu)) time)
    (hstored : Stored datas datas' phy core cpu state time) :
    OneSided
      (accrued (datas.pstates (.percpu cpu)) (latestState events cpu = -1) · time)
      (accrued (datas'.pstates (.percpu cpu))
        (latestState (events ++ [.storeData time state cpu]) cpu = -1) · time) := by
  have hps := hready.pstates (.percpu cpu)
  have hlatest : latestState (events ++ [.storeData time state cpu]) cpu = state := by
    rw [latestState_storeData, if_pos rfl]
  simp only [hlatest, hstored.pstates, storedTable_self]
  by_cases hempty : (datas.pstates (.percpu cpu)).pstate = []
  · have hnone : currentFreq (datas.pstates (.percpu cpu)) = none :=
      pstate_eq_nil_iff.mp hempty _
    left
    intro freq _
    simp [hempty, accrued_of_none hnone]
  · by_cases hrunning : state = -1
    · left
      intro freq _
      simp only [hempty, if_false, hrunning, if_true]
      exact resumed_le hps hopened freq
    · right
      intro freq _
      simp only [hempty, if_false, hrunning]
      exact le_idled hps hopened freq

/-- An event moves what its CPU's record shows in one direction only. -/
theorem oneSided_own (hready : Ready datas)
    (h : Followed events event.cpu (datas.pstates (.percpu event.cpu)))
    (hcur : currentCstates datas event.cpu = latestState events event.cpu)
    (hle : ∀ past ∈ events, past.time ≤ event.time)
    (heffect : Effect datas phy core event datas') :
    OneSided
      (accrued (datas.pstates (.percpu event.cpu)) (latestState events event.cpu = -1) ·
        event.time)
      (accrued (datas'.pstates (.percpu event.cpu))
        (latestState (events ++ [event]) event.cpu = -1) · event.time) := by
  have hopened := h.openedBy hle
  cases heffect with
  | @ignored time state cpu hignored =>
    have hlatest : latestState (events ++ [.storeData time state cpu]) cpu =
        latestState events cpu := latestState_ignored hready hcur hignored time
    simp only [PowerEvent.cpu, PowerEvent.time, hlatest]
    exact .inl fun freq _ => le_refl _
  | stored _ hstored => exact oneSided_stored hready hopened hstored
  | @changed cpu freq time =>
    have hchanged := changed_le (hready.pstates (.percpu cpu)) hopened h.flag freq
    left
    simp only [PowerEvent.cpu, PowerEvent.time, changedTable_self, latestState_cpuChangePstate]
    exact hchanged

end OneEvent

section Split

variable {topo : CpuTopology} {events : List PowerEvent} {cpu : Int} {datas : CpuidleDatas}

def asleep (s : Option Nat × Int) : Bool :=
  deep 0 s.2

theorem stateAt_cpuHistory {k : Nat} (hk : k < events.length) :
    stateAt (cpuHistory events cpu) k = some (reading cpu (events.take (k + 1))) := by
  simp [stateAt, cpuHistory, observed, hk]

theorem times_cpuHistory : (cpuHistory events cpu).map Prod.fst = events.map PowerEvent.time := by
  unfold cpuHistory observed
  apply List.ext_getElem
  · simp
  · intro i hi hi'
    simp

theorem timeWhere_asleep (hvalid : ∀ event ∈ events, ValidEvent topo event) :
    timeWhere (nodeHistory [cpu] events) (deep 0) =
      timeWhere (cpuHistory events cpu) asleep := by
  apply timeWhere_congr (by rw [times_nodeHistory, times_cpuHistory])
  intro k
  by_cases hk : k < events.length
  · have hstate : ValidState (latestState (events.take (k + 1)) cpu) :=
      latestState_of_valid (fun event hevent => hvalid event (List.mem_of_mem_take hevent)) cpu
    rw [stateAt_nodeHistory hk, stateAt_cpuHistory hk, nodeState, least_singleton hstate]
    rfl
  · have hnode : stateAt (nodeHistory [cpu] events) k = none := by
      simp [stateAt, nodeHistory, observed]
      omega
    have hcpu : stateAt (cpuHistory events cpu) k = none := by
      simp [stateAt, cpuHistory, observed]
      omega
    rw [hnode, hcpu]
    rfl

theorem window_split (hvalid : ∀ event ∈ events, ValidEvent topo event) :
    window (cpuHistory events cpu) =
      timeWhere (cpuHistory events cpu) asleep + timeWhere (cpuHistory events cpu) running := by
  rw [← timeWhere_or fun s hboth => ?_, ← timeWhere_true]
  · apply timeWhere_congr rfl
    intro k
    by_cases hk : k < events.length
    · have hstate : ValidState (latestState (events.take (k + 1)) cpu) :=
        latestState_of_valid (fun event hevent => hvalid event (List.mem_of_mem_take hevent)) cpu
      rw [stateAt_cpuHistory hk, Option.any_some, Option.any_some]
      rcases hstate.eq_neg_one_or with hrunning | ⟨i, hi⟩
      · simp [reading, running, hrunning]
      · simp [reading, asleep, deep, hi]
    · have hnone : stateAt (cpuHistory events cpu) k = none := by
        simp [stateAt, cpuHistory, observed]
        omega
      rw [hnone]
      rfl
  · simp only [asleep, deep, running, decide_eq_true_eq] at hboth
    omega

theorem conserved_iff (h : AccountedAll topo events datas) (hcpu : cpu ∈ cpuIds topo)
    (hvalid : ∀ event ∈ events, ValidEvent topo event) :
    Conserved events cpu datas ↔ Balanced events cpu (datas.pstates (.percpu cpu)) := by
  have hnode : (RecordRef.percpu cpu, [cpu]) ∈ nodes topo :=
    mem_nodes.mpr (.inl ⟨cpu, hcpu, rfl, rfl⟩)
  have hsleep : nodeSleep datas events (.percpu cpu, [cpu]) 0 =
      usecPerSec * timeWhere (cpuHistory events cpu) asleep := by
    rw [nodeSleep, ← lastTime_nodeHistory, sleepFrom_eq (h.records _ hnode),
      timeWhere_asleep hvalid]
  unfold Conserved Balanced
  rw [hsleep, window_split hvalid, mul_add, add_assoc, add_right_inj]

end Split

section Run

variable {topo : CpuTopology} {nrcpus : Int} {events : List PowerEvent} {event : PowerEvent}
  {datas datas' : CpuidleDatas}

theorem followedAll_start {start : CpuidleDatas} (h : Loaded start) :
    FollowedAll start.topo start.nrcpus [] start := by
  have hstarted := h.started
  refine ⟨⟨ready_of_started hstarted, rfl, rfl⟩, accountedAll_start hstarted, fun cpu _ => ?_⟩
  rw [hstarted.pstates]
  exact ⟨rfl, fun hne => absurd rfl hne, fun hne => absurd rfl hne, .inl rfl⟩

theorem balanced_start {start : CpuidleDatas} (h : Loaded start) (cpu : Int) :
    Balanced [] cpu (start.pstates (.percpu cpu)) := by
  rw [h.started.pstates]
  have hempty : tableFreqs buildPstateInfo = ∅ := by
    simp [tableFreqs, rows, buildPstateInfo]
  simp [Balanced, busyTime, hempty, cpuHistory]

theorem balanced_next (hm : Mapped nrcpus topo) (h : FollowedAll topo nrcpus events datas)
    (hvalid : ValidEvent topo event) (hbefore : ∀ past ∈ events, past.time ≤ event.time) :
    ∃ datas', step datas event = .ok datas' ∧ FollowedAll topo nrcpus (events ++ [event]) datas' ∧
      ((∀ cpu ∈ cpuIds topo, Balanced events cpu (datas.pstates (.percpu cpu))) →
        ((∀ cpu ∈ cpuIds topo,
            Balanced (events ++ [event]) cpu (datas'.pstates (.percpu cpu))) ↔
          TimeKept datas event)) := by
  obtain ⟨phy, core, datas', hl, hstep, hready', heffect⟩ := h.ready.next hvalid
  have hcur := h.accounted.cpus _ hvalid.cpu_mem
  have hown := h.cpus _ hvalid.cpu_mem
  refine ⟨datas', hstep, ⟨hready', ?_, ?_⟩, fun hbalanced => ?_⟩
  · exact h.accounted.next hm h.ready.ready hvalid hbefore hl heffect
  · intro cpu hcpu
    by_cases heq : cpu = event.cpu
    · exact heq ▸ followed_own h.ready.ready hown hcur heffect
    · exact followed_other heq heffect (h.cpus cpu hcpu)
  · have hiff : Balanced (events ++ [event]) event.cpu (datas'.pstates (.percpu event.cpu)) ↔
        TimeKept datas event := by
      rw [balanced_concat hown (hbalanced _ hvalid.cpu_mem),
        busyTime_eq_iff (oneSided_own h.ready.ready hown hcur hbefore heffect)]
      exact accrued_own h.ready.ready hown hcur hbefore heffect
    rw [← hiff]
    constructor
    · exact fun hall => hall _ hvalid.cpu_mem
    · intro hself cpu hcpu
      by_cases heq : cpu = event.cpu
      · exact heq ▸ hself
      · have hlatest : latestState (events ++ [event]) cpu = latestState events cpu :=
          congrArg Prod.snd (reading_other heq)
        rw [(heffect.other heq).1, balanced_concat (h.cpus cpu hcpu) (hbalanced cpu hcpu)]
        simp only [hlatest]

/-- Every CPU's C-state times, frequency times and the time at no known
frequency add up to the length of the trace after every event, exactly when no
event meets one of the defects. -/
theorem time_conserved {start : CpuidleDatas} (h : Loaded start) (events : List PowerEvent)
    (hevents : Chronological start.topo events) :
    (∃ final, Runs.run step start events = .ok final) ∧
      (Runs.Always step (fun past datas => ∀ cpu ∈ cpuIds start.topo, Conserved past cpu datas)
          start events ↔
        Runs.EveryStep step TimeKept start events) := by
  have hm := h.started.mapped
  refine ⟨run_total h hevents.valid, ?_⟩
  have hconserved : ∀ {past rest datas}, events = past ++ rest →
      AccountedAll start.topo past datas →
      ((∀ cpu ∈ cpuIds start.topo, Conserved past cpu datas) ↔
        ∀ cpu ∈ cpuIds start.topo, Balanced past cpu (datas.pstates (.percpu cpu))) := by
    intro past rest datas hsplit haccounted
    have hvalid : ∀ event ∈ past, ValidEvent start.topo event := fun event hevent =>
      hevents.valid event (by simp [hsplit, hevent])
    exact forall_congr' fun cpu => forall_congr' fun hcpu =>
      conserved_iff haccounted hcpu hvalid
  refine Runs.always_iff_everyStep (FollowedAll start.topo start.nrcpus) _ _
    (followedAll_start h) ?_ ?_
  · exact (hconserved (List.nil_append events).symm (followedAll_start h).accounted).mpr
      fun cpu _ => balanced_start h cpu
  · intro past event rest datas hsplit hinv
    have hvalid := hevents.valid event (by simp [hsplit])
    obtain ⟨datas', hstep, hinv', hiff⟩ :=
      balanced_next hm hinv hvalid (hsplit ▸ hevents).before
    refine ⟨datas', hstep, hinv', fun hpast => ?_⟩
    have hsplit' : events = (past ++ [event]) ++ rest := by simp [hsplit]
    rw [hconserved hsplit' hinv'.accounted]
    exact hiff ((hconserved hsplit hinv.accounted).mp hpast)

/-- CPU 1 runs at 100, CPU 0 sleeps in between. -/
def twoCpus : List PowerEvent :=
  [.storeData 0 1 0, .cpuChangePstate 1 100 0, .storeData 2 2 1, .storeData 3 (-1) 0]

theorem time_conserved_pair :
    (∃ final, Runs.run step pairDatas twoCpus = .ok final) ∧
      Runs.Always step (fun past datas =>
        ∀ cpu ∈ cpuIds pairDatas.topo, Conserved past cpu datas) pairDatas twoCpus ∧
      window (cpuHistory twoCpus 0) = 3 :=
  have hevents : Chronological pairDatas.topo twoCpus :=
    ⟨by simp [twoCpus, ValidEvent, cpuIds_pairDatas, ValidState, maxcstate], by decide +kernel⟩
  have hkept : Runs.EveryStep step TimeKept pairDatas twoCpus := by decide +kernel
  have hconserved := time_conserved pairDatas_loaded twoCpus hevents
  ⟨hconserved.1, hconserved.2.mpr hkept, by decide +kernel⟩

end Run

end Idlestat.Theory.TimeConservation
