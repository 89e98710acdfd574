import Mathlib.Algebra.BigOperators.Ring.Finset
import Idlestat.Library.TimeShares
import Idlestat.Theory.PstateAccounting

/-! The time a record has counted from some C-state on, the period still open
included, is the time its node spent there. A core or a cluster is only as deep
as its shallowest CPU, so the record of a group never shows more deep sleep than
the record of any node inside it. -/
namespace Idlestat.Theory.SleepShares

open Idlestat.Library Idlestat.Library.Timeline Idlestat.Model.Topology Idlestat.Model.Cstates
  Idlestat.Model.Recorder Idlestat.Theory.CstateRecord Idlestat.Theory.Nodes
  Idlestat.Theory.Setup Idlestat.Theory.RecorderSteps Idlestat.Theory.CstateAccounting
  Idlestat.Theory.PstateAccounting

/-- What a record says of one C-state at a time: the ended periods, and the one
that is open. -/
def share (r : CpuidleCstates) (i : Fin maxcstate) (time : ℚ) : ℚ :=
  (r.cstate i).duration +
    if r.currentCstate = i then usecPerSec * (time - openBegin r i) else 0

def sleepFrom (depth : Nat) (r : CpuidleCstates) (time : ℚ) : ℚ :=
  ∑ i : Fin maxcstate with depth ≤ i.val, share r i time

def deep (depth : Nat) (state : Int) : Bool :=
  (depth : Int) ≤ state ∧ state < maxcstate

section OneRecord

variable {history : History ℚ Int} {r : CpuidleCstates}

theorem share_eq (h : Tracks history r) (i : Fin maxcstate) :
    share r i (lastTime history) = usecPerSec * timeIn history (i : Int) := by
  obtain ⟨hopened, hended⟩ := timeIn_eq_totalLength (h := history) (s := (i : Int))
  rw [share, h.accounted.duration]
  split
  · next hcur =>
    obtain ⟨k, hopen, hbegin⟩ := h.opened i hcur
    rw [hbegin, hopened k hopen, mul_add]
  · next hcur => rw [hended (h.last_ne hcur), add_zero]

theorem sleepFrom_eq (h : Tracks history r) (depth : Nat) :
    sleepFrom depth r (lastTime history) = usecPerSec * timeWhere history (deep depth) := by
  let states : Finset Int :=
    (Finset.univ.filter fun i : Fin maxcstate => depth ≤ i.val).image fun i => (i.val : Int)
  have hmem : ∀ s, s ∈ states ↔ (depth : Int) ≤ s ∧ s < maxcstate := by
    intro s
    simp only [states, Finset.mem_image, Finset.mem_filter, Finset.mem_univ, true_and]
    constructor
    · rintro ⟨i, hi, rfl⟩
      exact ⟨Int.ofNat_le.mpr hi, Int.ofNat_lt.mpr i.isLt⟩
    · rintro ⟨hle, hlt⟩
      exact ⟨⟨s.toNat, by omega⟩, by simp only; omega, by simp only; omega⟩
  have hsum : ∑ i : Fin maxcstate with depth ≤ i.val, timeIn history (i : Int) =
      ∑ s ∈ states, timeIn history s := by
    rw [Finset.sum_image]
    intro i _ j _ hij
    exact Fin.ext (Int.ofNat.inj hij)
  unfold sleepFrom
  simp only [share_eq h, ← Finset.mul_sum]
  rw [hsum, sum_timeIn]
  congr 1
  apply timeWhere_congr rfl
  intro k
  cases stateAt history k with
  | none => rfl
  | some s => simp [deep, hmem]

end OneRecord

section Reading

variable {topo : CpuTopology} {events : List PowerEvent} {members : List Int}

theorem latestState_of_valid (hvalid : ∀ event ∈ events, ValidEvent topo event) (cpu : Int) :
    ValidState (latestState events cpu) := by
  induction events using List.reverseRecOn with
  | nil => simp [ValidState, maxcstate]
  | append_singleton past event ih =>
    have hpast := ih fun earlier hearlier => hvalid earlier (by simp [hearlier])
    cases event with
    | storeData time state c =>
      rw [latestState_storeData]
      split
      · exact (hvalid (.storeData time state c) (by simp)).1
      · exact hpast
    | cpuChangePstate c freq time => rwa [latestState_cpuChangePstate]

theorem stateAt_nodeHistory {k : Nat} (hk : k < events.length) :
    stateAt (nodeHistory members events) k = some (nodeState members (events.take (k + 1))) := by
  simp [stateAt, nodeHistory, observed, hk]

theorem times_nodeHistory :
    (nodeHistory members events).map Prod.fst = events.map PowerEvent.time := by
  unfold nodeHistory observed
  apply List.ext_getElem
  · simp
  · intro i hi hi'
    simp

theorem lastTime_nodeHistory : lastTime (nodeHistory members events) = lastEventTime events := by
  induction events using List.reverseRecOn with
  | nil => rfl
  | append_singleton past event _ =>
    rw [nodeHistory_concat, lastTime_concat, lastEventTime_concat]

theorem nodeState_le {inner outer : List Int} (hinner : inner ≠ []) (hsub : inner ⊆ outer)
    (hvalid : ∀ event ∈ events, ValidEvent topo event) :
    nodeState outer events ≤ nodeState inner events := by
  have hstates : ∀ members : List Int, ∀ cpu ∈ members,
      latestState events cpu < maxcstate := fun _ cpu _ =>
    (latestState_of_valid hvalid cpu).2
  have houter : outer ≠ [] := by
    rintro rfl
    exact hinner (List.subset_nil.mp hsub)
  obtain ⟨⟨cpu, hcpu, heq⟩, -⟩ := least_isLeast hinner (hstates inner)
  have hle := (least_isLeast houter (hstates outer)).2 ⟨cpu, hsub hcpu, rfl⟩
  exact hle.trans_eq heq

end Reading

theorem timeWhere_deep_le {inner outer : List Int} (hinner : inner ≠ []) (hsub : inner ⊆ outer)
    (hevents : Chronological topo events) (depth : Nat) :
    timeWhere (nodeHistory outer events) (deep depth) ≤
      timeWhere (nodeHistory inner events) (deep depth) := by
  have hsorted : ((nodeHistory outer events).map Prod.fst).Pairwise (· ≤ ·) := by
    rw [times_nodeHistory, List.pairwise_map]
    exact hevents.times
  refine timeWhere_le (by rw [times_nodeHistory, times_nodeHistory]) hsorted fun k hdeep => ?_
  by_cases hk : k < events.length
  · have hvalid : ∀ event ∈ events.take (k + 1), ValidEvent topo event := fun event hevent =>
      hevents.valid event (List.mem_of_mem_take hevent)
    have hle := nodeState_le hinner hsub hvalid
    have hstate : ValidState (nodeState inner (events.take (k + 1))) :=
      least_valid hinner fun cpu _ => latestState_of_valid hvalid cpu
    rw [stateAt_nodeHistory hk] at hdeep ⊢
    simp only [Option.any_some, deep, decide_eq_true_eq] at hdeep ⊢
    exact ⟨hdeep.1.trans hle, hstate.2⟩
  · have hnone : stateAt (nodeHistory outer events) k = none := by
      simp [stateAt, nodeHistory, observed]
      omega
    rw [hnone] at hdeep
    cases hdeep

/-- What a node's record shows from `depth` on after the events. -/
def nodeSleep (datas : CpuidleDatas) (events : List PowerEvent) (node : RecordRef × List Int)
    (depth : Nat) : ℚ :=
  sleepFrom depth (datas.cstates node.1) (lastEventTime events)

/-- After every call, and from every depth on, the record of a core or cluster
shows at most the sleep of the record of any CPU or core inside it. -/
theorem group_sleep_le {start : CpuidleDatas} (h : Loaded start) (events : List PowerEvent)
    (hevents : Chronological start.topo events) :
    (∃ final, Runs.run step start events = .ok final) ∧
      Runs.Always step (fun past datas =>
        ∀ outer ∈ nodes start.topo, ∀ inner ∈ nodes start.topo, inner.2 ⊆ outer.2 →
          ∀ depth, nodeSleep datas past outer depth ≤ nodeSleep datas past inner depth)
        start events := by
  have hm := h.started.mapped
  refine ⟨run_total h hevents.valid, ?_⟩
  intro past rest datas hsplit hrun outer houter inner hinner hsub depth
  have hinv := (accounted_always h hevents past rest datas hsplit hrun).2
  have hpast : Chronological start.topo past := by
    refine ⟨fun event hevent => hevents.valid event (by simp [hsplit, hevent]), ?_⟩
    exact (List.pairwise_append.mp (hsplit ▸ hevents.times)).1
  have hsleep : ∀ node ∈ nodes start.topo, nodeSleep datas past node depth =
      usecPerSec * timeWhere (nodeHistory node.2 past) (deep depth) := by
    intro node hnode
    rw [nodeSleep, ← lastTime_nodeHistory]
    exact sleepFrom_eq (hinv.records node hnode) depth
  rw [hsleep outer houter, hsleep inner hinner]
  exact mul_le_mul_of_nonneg_left
    (timeWhere_deep_le (node_inhabited hm hinner) hsub hpast depth) usecPerSec_pos.le

theorem group_sleep_le_pair :
    Chronological pairDatas.topo
        [.storeData 0 1 0, .storeData 1 2 1, .storeData 3 (-1) 0] ∧
      (∃ final, Runs.run step pairDatas
        [.storeData 0 1 0, .storeData 1 2 1, .storeData 3 (-1) 0] = .ok final) ∧
      Runs.Always step (fun past datas =>
        ∀ outer ∈ nodes pairDatas.topo, ∀ inner ∈ nodes pairDatas.topo, inner.2 ⊆ outer.2 →
          ∀ depth, nodeSleep datas past outer depth ≤ nodeSleep datas past inner depth)
        pairDatas [.storeData 0 1 0, .storeData 1 2 1, .storeData 3 (-1) 0] :=
  have hevents : Chronological pairDatas.topo
      [.storeData 0 1 0, .storeData 1 2 1, .storeData 3 (-1) 0] :=
    ⟨by simp [ValidEvent, cpuIds_pairDatas, ValidState, maxcstate], by decide +kernel⟩
  ⟨hevents, group_sleep_le pairDatas_loaded _ hevents⟩

end Idlestat.Theory.SleepShares
