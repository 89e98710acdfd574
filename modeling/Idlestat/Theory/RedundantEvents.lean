import Idlestat.Theory.CstateAccounting

/-! Repeated `cpu_idle` events. The C-state recorder ignores them, but the
P-state half of `store_data` runs again: it leaves the state as it was exactly
when the CPU's flag and open period and the shown frequencies of its core and
cluster are up to date already. -/
namespace Idlestat.Theory.RedundantEvents

open Idlestat.Library Idlestat.Library.RunningStats Idlestat.Model.Topology
  Idlestat.Model.Cstates Idlestat.Model.Pstates Idlestat.Model.Recorder
  Idlestat.Theory.CstateRecord Idlestat.Theory.Nodes Idlestat.Theory.PstateRecord
  Idlestat.Theory.Setup Idlestat.Theory.RecorderSteps Idlestat.Theory.CstateAccounting

/-- The CPU's record has its flag set for this state, and no period that the
event would close or open again. -/
def Settled (ps : CpufreqPstates) (state : Int) (time : ℚ) : Prop :=
  if state = -1 then ps.idle = 0 ∧ (ps.current = -1 ∨ ps.timeEnter = time)
  else ps.idle = 1 ∧ (ps.current = -1 ∨ time ≤ ps.timeEnter)

/-- The core and the cluster show the highest frequencies of their CPUs. -/
def GroupsCurrent (pstates : PstateTable) (phy : CpuPhysical) (core : CpuCore) : Prop :=
  currentFreq (pstates (coreRef phy core)) = shown (coreHighest pstates core) ∧
    currentFreq (pstates (clusterRef phy)) = shown (clusterHighest pstates phy)

instance (ps : CpufreqPstates) (state : Int) (time : ℚ) : Decidable (Settled ps state time) :=
  inferInstanceAs (Decidable (if state = -1 then _ else _))

instance (pstates : PstateTable) (phy : CpuPhysical) (core : CpuCore) :
    Decidable (GroupsCurrent pstates phy core) :=
  inferInstanceAs (Decidable (_ ∧ _))

/-- There is nothing that a repeated idle event would update. -/
def UpToDate (datas : CpuidleDatas) (cpu state : Int) (time : ℚ) : Prop :=
  Ignored datas cpu state ∨ (datas.pstates (.percpu cpu)).pstate = [] ∨
    Settled (datas.pstates (.percpu cpu)) state time ∧
      ∀ phy core, Located datas.topo cpu phy core → GroupsCurrent datas.pstates phy core

section OneRecord

variable {ps : CpufreqPstates} {time : ℚ}

theorem resumed_eq_iff :
    resumed ps time = ps ↔ ps.idle = 0 ∧ (ps.current = -1 ∨ ps.timeEnter = time) := by
  by_cases hcur : ps.current = -1
  · simp [resumed, hcur, CpufreqPstates.ext_iff, eq_comm]
  · simp [resumed, hcur, openCurrentPstate, CpufreqPstates.ext_iff, eq_comm]

theorem push_ne (r : Running ℚ) (x : ℚ) : r.push x ≠ r := by
  intro heq
  have hcount : r.count + 1 = r.count := congrArg Running.count heq
  omega

theorem idled_eq_iff (h : PstatesOk ps) :
    idled ps time = ps ↔ ps.idle = 1 ∧ (ps.current = -1 ∨ time ≤ ps.timeEnter) := by
  have hidled := idled_spec h time
  constructor
  · intro heq
    rw [heq] at hidled
    refine ⟨hidled.idle, or_iff_not_imp_left.mpr fun hcur => ?_⟩
    obtain ⟨freq, hfreq⟩ :=
      Option.ne_none_iff_exists'.mp (h.table.currentFreq_eq_none.not.mpr hcur)
    have hstats := hidled.stats freq
    by_contra hlt
    rw [if_pos ⟨hfreq, mul_pos (sub_pos.mpr (not_le.mp hlt)) usecPerSec_pos⟩] at hstats
    exact push_ne _ _ hstats.symm
  · rintro ⟨hidle, hcur | hle⟩
    · have hidled' : idled ps time = { ps with idle := 1 } := by simp [idled, hcur]
      rw [hidled', ← hidle]
    · have hnot : (time - ps.timeEnter) * usecPerSec ≤ 0 :=
        mul_nonpos_of_nonpos_of_nonneg (sub_nonpos.mpr hle) usecPerSec_pos.le
      have hidled' : idled ps time = { ps with idle := 1 } := by
        simp [idled, closeCurrentPstate, hnot]
      rw [hidled', ← hidle]

theorem recordGroupFreq_slips (h : PstatesOk ps) {freq : Nat} (hslips : Slips ps freq)
    (time : ℚ) : (recordGroupFreq ps time freq).pstate.length = ps.pstate.length + 1 := by
  obtain ⟨hpos, habsent, hcur⟩ := hslips
  rcases allocPstate_cases h.table freq with ⟨i, -, hi⟩ | ⟨ps', halloc, hins⟩
  · obtain ⟨r, hr, hfreq⟩ := freqAt_mem hi
    obtain ⟨p, hp, rfl⟩ := List.mem_map.mp hr
    exact absurd hfreq (habsent p hp)
  · rw [← position_rows] at hcur
    simp only [recordGroupFreq, gt_iff_lt, hpos, if_true, halloc, hcur]
    exact hins.length

theorem recordGroupFreq_eq_iff (h : PstatesOk ps) {freq : Nat} :
    recordGroupFreq ps time freq = ps ↔ currentFreq ps = shown freq := by
  constructor
  · intro heq
    have hrecorded := (recordGroupFreq_spec h freq time).currentFreq
    rw [heq] at hrecorded
    split at hrecorded
    · next hslips =>
      have hlen := recordGroupFreq_slips h hslips time
      rw [heq] at hlen
      omega
    · exact hrecorded
  · intro hcur
    exact recordGroupFreq_same h.table hcur time

end OneRecord

section OneEvent

variable {datas datas' : CpuidleDatas} {cpu state : Int} {time : ℚ} {phy : CpuPhysical}
  {core : CpuCore}

theorem composed_eq_iff {pstates : PstateTable} (h : ∀ ref, PstatesOk (pstates ref)) :
    composed phy core time pstates = pstates ↔ GroupsCurrent pstates phy core := by
  unfold GroupsCurrent
  rw [← recordGroupFreq_eq_iff (h _), ← recordGroupFreq_eq_iff (h _), ← composed_core,
    ← composed_cluster]
  constructor
  · intro heq
    exact ⟨congrFun heq _, congrFun heq _⟩
  · rintro ⟨hcore, hcluster⟩
    funext ref
    by_cases hrefCluster : ref = clusterRef phy
    · rw [hrefCluster, hcluster]
    · by_cases hrefCore : ref = coreRef phy core
      · rw [hrefCore, hcore]
      · exact composed_other hrefCore hrefCluster

theorem storedTable_eq_iff (h : Ready datas) :
    storedTable datas.pstates phy core cpu state time = datas.pstates ↔
      (datas.pstates (.percpu cpu)).pstate = [] ∨
        Settled (datas.pstates (.percpu cpu)) state time ∧
          GroupsCurrent datas.pstates phy core := by
  have hown : (if state = -1 then resumed (datas.pstates (.percpu cpu)) time
      else idled (datas.pstates (.percpu cpu)) time) = datas.pstates (.percpu cpu) ↔
        Settled (datas.pstates (.percpu cpu)) state time := by
    unfold Settled
    split
    · exact resumed_eq_iff
    · exact idled_eq_iff (h.pstates _)
  by_cases hempty : (datas.pstates (.percpu cpu)).pstate = []
  · simp [storedTable, hempty]
  · have htable : storedTable datas.pstates phy core cpu state time =
        composed phy core time (Function.update datas.pstates (.percpu cpu)
          (if state = -1 then resumed (datas.pstates (.percpu cpu)) time
            else idled (datas.pstates (.percpu cpu)) time)) := if_neg hempty
    rw [htable, or_iff_right hempty, ← hown, ← composed_eq_iff h.pstates]
    constructor
    · intro heq
      have hself := congrFun heq (.percpu cpu)
      rw [composed_percpu, Function.update_self] at hself
      rw [hself, Function.update_eq_self] at heq
      exact ⟨hself, heq⟩
    · rintro ⟨hself, heq⟩
      rwa [hself, Function.update_eq_self]

variable {nrcpus : Int} {topo : CpuTopology} {events : List PowerEvent}

theorem cstates_unchanged (h : AccountedAll topo events datas) (hm : Mapped nrcpus topo)
    (hready : Ready datas) (hvalid : ValidEvent topo (.storeData time state cpu))
    (hl : Located topo cpu phy core) (hcur : currentCstates datas cpu = state)
    (hstored : Stored datas datas' phy core cpu state time) (hnot : ¬ Ignored datas cpu state) :
    datas'.cstates = datas.cstates := by
  have hlatest : latestState (events ++ [.storeData time state cpu]) = latestState events := by
    funext c
    rw [latestState_storeData]
    split
    · next heq => rw [← heq, ← h.cpus cpu hvalid.2, hcur]
    · rfl
  have hnode : ∀ node ∈ nodes topo, datas'.cstates node.1 = datas.cstates node.1 := by
    intro node hnode
    have hrecord := node_recorded h hm hready hvalid hl (.stored hnot hstored) hnode
    rw [nodeState, hlatest, ← nodeState, ← h.current hm hnode, recordCstateEvent_same] at hrecord
    exact (Except.ok.inj hrecord).symm
  funext ref
  by_cases hcpu : ref = .percpu cpu
  · subst hcpu
    exact hnode _ (mem_nodes.mpr (.inl ⟨cpu, hvalid.2, rfl, rfl⟩))
  · by_cases hcore : ref = coreRef phy core
    · subst hcore
      exact hnode _ (mem_nodes.mpr (.inr hl.core_group))
    · by_cases hcluster : ref = clusterRef phy
      · subst hcluster
        exact hnode _ (mem_nodes.mpr (.inr hl.cluster_group))
      · exact hstored.others ref hcpu hcore hcluster

theorem storeData_unchanged_iff (h : AccountedAll datas.topo events datas) (hready : Ready datas)
    (hvalid : ValidEvent datas.topo (.storeData time state cpu))
    (hcur : currentCstates datas cpu = state) :
    storeData time state cpu datas = .ok datas ↔ UpToDate datas cpu state time := by
  by_cases hignored : Ignored datas cpu state
  · exact iff_of_true (storeData_ignored hready hvalid.2 hignored time) (.inl hignored)
  · obtain ⟨phy, core, hl⟩ := hready.mapped.located hvalid.2
    obtain ⟨datas', hstore, hstored, -⟩ := storeData_spec hready hl hvalid.1 hignored time
    have hcstates : datas'.cstates = datas.cstates :=
      cstates_unchanged h hready.mapped hready hvalid hl hcur hstored hignored
    have hsame : datas' = datas ↔ datas'.pstates = datas.pstates := by
      constructor
      · intro heq
        rw [heq]
      · intro heq
        exact CpuidleDatas.ext hstored.nrcpus hcstates heq hstored.topo
    have hgroups : (∀ phy core, Located datas.topo cpu phy core →
        GroupsCurrent datas.pstates phy core) ↔ GroupsCurrent datas.pstates phy core := by
      constructor
      · intro hall
        exact hall phy core hl
      · intro hgroups phy' core' hl'
        obtain rfl : phy = phy' := Option.some.inj (hl.cluster.symm.trans hl'.cluster)
        obtain rfl : core = core' := Option.some.inj (hl.core.symm.trans hl'.core)
        exact hgroups
    rw [hstore, Except.ok.injEq, hsame, hstored.pstates, storedTable_eq_iff hready, UpToDate,
      or_iff_right hignored, hgroups]

end OneEvent

/-- Inserting a repeated idle event where the records are up to date leaves the
run, and so every statistic at its end, as it was. -/
theorem redundant_event {start : CpuidleDatas} (h : Loaded start) (past rest : List PowerEvent)
    (time : ℚ) (state cpu : Int)
    (hevents : Chronological start.topo (past ++ .storeData time state cpu :: rest)) :
    ∃ before final final', Runs.run step start past = .ok before ∧
      Runs.run step start (past ++ rest) = .ok final ∧
      Runs.run step start (past ++ .storeData time state cpu :: rest) = .ok final' ∧
      (currentCstates before cpu = state → UpToDate before cpu state time → final' = final) := by
  have hvalid := hevents.valid
  have hwithout : ∀ event ∈ past ++ rest, ValidEvent start.topo event := by
    intro event hmem
    rcases List.mem_append.mp hmem with hmem | hmem
    · exact hvalid event (List.mem_append_left _ hmem)
    · exact hvalid event (List.mem_append_right _ (List.mem_cons_of_mem _ hmem))
  obtain ⟨before, hbefore⟩ := run_total h fun event hmem =>
    hvalid event (List.mem_append_left _ hmem)
  obtain ⟨final, hfinal⟩ := run_total h hwithout
  obtain ⟨final', hfinal'⟩ := run_total h hvalid
  refine ⟨before, final, final', hbefore, hfinal, hfinal', fun hcur hupToDate => ?_⟩
  obtain ⟨hready, haccounted⟩ := accounted_always h hevents past _ before rfl hbefore
  have hunchanged : step before (.storeData time state cpu) = .ok before := by
    rw [← hready.topo] at haccounted hvalid
    exact (storeData_unchanged_iff haccounted hready.ready (hvalid _ (by simp)) hcur).mpr hupToDate
  have hsame : Runs.run step start (past ++ .storeData time state cpu :: rest) =
      Runs.run step start (past ++ rest) := by
    rw [Runs.run_append, Runs.run_append, hbefore]
    change (step before (.storeData time state cpu) >>= fun next => Runs.run step next rest) = _
    rw [hunchanged]
  rw [hfinal, hfinal'] at hsame
  exact Except.ok.inj hsame

/-- CPU 0 runs at 100, is idle for a second and wakes up. -/
def wakeUp : List PowerEvent :=
  [.cpuChangePstate 0 100 0, .storeData 1 0 0, .storeData 2 (-1) 0]

/-- A second wake-up line of the same time changes nothing: the period of 100 is
open since then, and the core and the cluster show 100. -/
theorem redundant_event_pair :
    ∃ final, Runs.run step pairDatas (wakeUp ++ [.storeData 4 0 0]) = .ok final ∧
      Runs.run step pairDatas (wakeUp ++ .storeData 2 (-1) 0 :: [.storeData 4 0 0]) = .ok final ∧
      statsOf (final.pstates (.percpu 0)) 100 = ⟨2, 3000000, 1500000, 1000000, 2000000⟩ := by
  have hevents : Chronological pairDatas.topo
      (wakeUp ++ .storeData 2 (-1) 0 :: [.storeData 4 0 0]) :=
    ⟨by simp [wakeUp, ValidEvent, cpuIds_pairDatas, ValidState, maxcstate], by decide +kernel⟩
  obtain ⟨before, final, final', hbefore, hfinal, hfinal', hsame⟩ :=
    redundant_event pairDatas_loaded _ _ _ _ _ hevents
  have hread : (Runs.run step pairDatas wakeUp).map (fun datas => (currentCstates datas 0,
      decide (Settled (datas.pstates (.percpu 0)) (-1) 2),
      decide (∀ phy ∈ datas.topo.physicalHead, ∀ core ∈ phy.coreHead,
        GroupsCurrent datas.pstates phy core))) = .ok (-1, true, true) := by
    decide +kernel
  rw [hbefore] at hread
  simp only [Except.map, Except.ok.injEq, Prod.mk.injEq, decide_eq_true_eq] at hread
  obtain ⟨hcur, hsettled, hgroups⟩ := hread
  have hupToDate : UpToDate before 0 (-1) 2 :=
    .inr (.inr ⟨hsettled, fun phy core hl => hgroups phy hl.phy_mem core hl.core_mem⟩)
  have hstats : (Runs.run step pairDatas (wakeUp ++ [.storeData 4 0 0])).map
      (fun datas => statsOf (datas.pstates (.percpu 0)) 100) =
        .ok ⟨2, 3000000, 1500000, 1000000, 2000000⟩ := by
    decide +kernel
  rw [hfinal] at hstats
  exact ⟨final, hfinal, hsame hcur hupToDate ▸ hfinal', Except.ok.inj hstats⟩

def recordedAt100 (events : List PowerEvent) : Except Fault (Nat × ℚ) :=
  (Runs.run step pairDatas events).map fun datas =>
    ((statsOf (datas.pstates (.percpu 0)) 100).count,
      (statsOf (datas.pstates (.percpu 0)) 100).total)

/-- A second entry closes the last period again, a second wake-up starts the new
one over. -/
theorem redundant_event_counted :
    Loaded pairDatas ∧ cpuIds pairDatas.topo = [0, 1] ∧
      (Runs.run step pairDatas [.cpuChangePstate 0 100 0, .storeData 1 0 0]).map
        (currentCstates · 0) = .ok 0 ∧
      recordedAt100 [.cpuChangePstate 0 100 0, .storeData 1 0 0] = .ok (1, 1000000) ∧
      recordedAt100 [.cpuChangePstate 0 100 0, .storeData 1 0 0, .storeData 2 0 0] =
        .ok (2, 3000000) ∧
      recordedAt100 [.cpuChangePstate 0 100 0, .storeData 1 0 0, .storeData 2 (-1) 0,
        .storeData 4 0 0] = .ok (2, 3000000) ∧
      recordedAt100 [.cpuChangePstate 0 100 0, .storeData 1 0 0, .storeData 2 (-1) 0,
        .storeData 3 (-1) 0, .storeData 4 0 0] = .ok (2, 2000000) :=
  ⟨pairDatas_loaded, cpuIds_pairDatas, by decide +kernel, by decide +kernel, by decide +kernel,
    by decide +kernel, by decide +kernel⟩

end Idlestat.Theory.RedundantEvents
