import Idlestat.Library.Timeline
import Idlestat.Theory.RecorderSteps

/-! The C-state statistics against an offline reading of the events. The state
of a CPU is that of its latest event, the state of a group the minimum over its
CPUs; the recorder's totals and counts are those of the ended stretches. -/
namespace Idlestat.Theory.CstateAccounting

open Idlestat.Library Idlestat.Library.Timeline Idlestat.Model.Topology Idlestat.Model.Cstates
  Idlestat.Model.Recorder Idlestat.Theory.CstateRecord Idlestat.Theory.Nodes
  Idlestat.Theory.Setup Idlestat.Theory.RecorderSteps

/-! ## The offline reading -/

/-- The state of the CPU's latest event, -1 before any. -/
def latestState (events : List PowerEvent) (cpu : Int) : Int :=
  events.foldl (fun latest event =>
    match event with
    | .storeData _ state c => if c = cpu then state else latest
    | .cpuChangePstate _ _ _ => latest) (-1)

def nodeState (members : List Int) (events : List PowerEvent) : Int :=
  least (latestState events) members

/-- The state of a node after each call, with the time of the call. -/
def nodeHistory (members : List Int) (events : List PowerEvent) : History ℚ Int :=
  observed PowerEvent.time (nodeState members) events

/-- What the record of a node says after the events. -/
structure Accounted (history : History ℚ Int) (state : Int) (r : CpuidleCstates) : Prop where
  current : r.currentCstate = state
  duration : ∀ i : Fin maxcstate,
    (r.cstate i).duration = usecPerSec * totalLength history (i : Int)
  nrdata : ∀ i : Fin maxcstate, (r.cstate i).nrdata = positiveCount history (i : Int)

section Reading

variable {events : List PowerEvent} {cpu : Int} {members : List Int}

@[simp] theorem latestState_nil : latestState [] cpu = -1 := rfl

theorem latestState_storeData (time : ℚ) (state c : Int) :
    latestState (events ++ [.storeData time state c]) cpu =
      if c = cpu then state else latestState events cpu := by
  simp [latestState]

theorem latestState_cpuChangePstate (c : Int) (freq : Nat) (time : ℚ) :
    latestState (events ++ [.cpuChangePstate c freq time]) = latestState events := by
  funext cpu
  simp [latestState]

theorem nodeHistory_concat (event : PowerEvent) :
    nodeHistory members (events ++ [event]) =
      nodeHistory members events ++ [(event.time, nodeState members (events ++ [event]))] :=
  observed_concat event

theorem lastState_nodeHistory (hne : members ≠ []) :
    (lastState (nodeHistory members events)).getD (-1) = nodeState members events := by
  rw [nodeHistory, lastState_observed]
  split
  · next hnil =>
    subst hnil
    obtain ⟨cpu, hcpu, heq⟩ := (least_isLeast (f := latestState []) hne
      (fun cpu _ => by simp [maxcstate])).1
    exact heq
  · rfl

theorem timeAt_nodeHistory_le {time : ℚ} (hle : ∀ event ∈ events, event.time ≤ time) {k : Nat}
    (hk : k < (nodeHistory members events).length) :
    timeAt (nodeHistory members events) k ≤ time := by
  have hk' : k < events.length := by simpa [nodeHistory] using hk
  rw [nodeHistory, timeAt_observed hk']
  exact hle _ (List.getElem_mem hk')

end Reading

/-! ## One record, one event -/

/-- A record and its history, with the start of the stretch still open. -/
structure Tracks (history : History ℚ Int) (r : CpuidleCstates) : Prop where
  accounted : Accounted history ((lastState history).getD (-1)) r
  opened : ∀ i : Fin maxcstate, r.currentCstate = i →
    ∃ k, IsOpen history (i : Int) k ∧ openBegin r i = timeAt history k

theorem tracks_fresh {r : CpuidleCstates} (h : Fresh r) : Tracks [] r where
  accounted := {
    current := h.current
    duration := fun i => by rw [h.duration, totalLength_nil, mul_zero]
    nrdata := fun i => by rw [h.nrdata, positiveCount_nil] }
  opened := fun i hi => by
    have hcur := h.current
    omega

section OneEvent

variable {history : History ℚ Int} {r r' : CpuidleCstates} {time : ℚ} {state : Int}

theorem Tracks.last_ne (h : Tracks history r) {i : Fin maxcstate} (hi : r.currentCstate ≠ i) :
    lastState history ≠ some (i : Int) := by
  intro hlast
  apply hi
  rw [h.accounted.current, hlast]
  rfl

theorem Tracks.duration_concat (h : Tracks history r) (hrec : Recorded r r' time state)
    (hle : ∀ k < history.length, timeAt history k ≤ time) (i : Fin maxcstate) :
    (r'.cstate i).duration =
      usecPerSec * totalLength (history ++ [(time, state)]) (i : Int) := by
  by_cases hended : r.currentCstate = i ∧ state ≠ i
  · obtain ⟨k, hopen, hbegin⟩ := h.opened i hended.1
    have hmono := hle k hopen.1
    rw [(hrec.left i hended.1 hended.2).1, totalLength_concat_ended hopen hended.2,
      h.accounted.duration, hbegin, mul_add]
    split
    · ring
    · next hnot =>
      have heq : timeAt history k = time := le_antisymm hmono (not_lt.mp hnot)
      rw [heq, sub_self, mul_zero]
  · have hkept : r.currentCstate ≠ i ∨ state = i := by
      by_cases hcur : r.currentCstate = i
      · exact .inr (not_not.mp fun hne => hended ⟨hcur, hne⟩)
      · exact .inl hcur
    rw [(hrec.kept i hkept).1, h.accounted.duration,
      totalLength_concat_kept (hkept.imp h.last_ne id)]

theorem Tracks.nrdata_concat (h : Tracks history r) (hrec : Recorded r r' time state)
    (i : Fin maxcstate) :
    (r'.cstate i).nrdata = positiveCount (history ++ [(time, state)]) (i : Int) := by
  by_cases hended : r.currentCstate = i ∧ state ≠ i
  · obtain ⟨k, hopen, hbegin⟩ := h.opened i hended.1
    rw [(hrec.left i hended.1 hended.2).2, positiveCount_concat_ended hopen hended.2,
      h.accounted.nrdata, hbegin]
  · have hkept : r.currentCstate ≠ i ∨ state = i := by
      by_cases hcur : r.currentCstate = i
      · exact .inr (not_not.mp fun hne => hended ⟨hcur, hne⟩)
      · exact .inl hcur
    rw [(hrec.kept i hkept).2, h.accounted.nrdata,
      positiveCount_concat_kept (hkept.imp h.last_ne id)]

theorem Tracks.opened_concat (h : Tracks history r) (hrec : Recorded r r' time state)
    {i : Fin maxcstate} (hi : r'.currentCstate = i) :
    ∃ k, IsOpen (history ++ [(time, state)]) (i : Int) k ∧
      openBegin r' i = timeAt (history ++ [(time, state)]) k := by
  have hstate : state = i := hrec.current.symm.trans hi
  have hopened := hrec.opened i hstate
  rw [hstate]
  by_cases hcur : r.currentCstate = i
  · obtain ⟨k, hopen, hbegin⟩ := h.opened i hcur
    refine ⟨k, hopen.concat_same, ?_⟩
    rw [hopened, if_pos hcur, timeAt_concat_lt hopen.1, hbegin]
  · refine ⟨history.length, isOpen_concat_new (h.last_ne hcur), ?_⟩
    rw [hopened, if_neg hcur, timeAt_concat_length]

theorem Tracks.concat (h : Tracks history r) (hrec : Recorded r r' time state)
    (hle : ∀ k < history.length, timeAt history k ≤ time) :
    Tracks (history ++ [(time, state)]) r' where
  accounted := {
    current := by simpa using hrec.current
    duration := h.duration_concat hrec hle
    nrdata := h.nrdata_concat hrec }
  opened := fun _ hi => h.opened_concat hrec hi

end OneEvent

/-! ## Every record, one event -/

/-- What a run keeps: CPUs show their latest state, and every record its history. -/
structure AccountedAll (topo : CpuTopology) (events : List PowerEvent) (datas : CpuidleDatas) :
    Prop where
  cpus : ∀ cpu ∈ cpuIds topo, currentCstates datas cpu = latestState events cpu
  records : ∀ node ∈ nodes topo, Tracks (nodeHistory node.2 events) (datas.cstates node.1)

section AllRecords

variable {nrcpus : Int} {topo : CpuTopology} {events : List PowerEvent} {datas : CpuidleDatas}

theorem mem_nodes {ref : RecordRef} {members : List Int} :
    (ref, members) ∈ nodes topo ↔
      (∃ cpu ∈ cpuIds topo, ref = .percpu cpu ∧ members = [cpu]) ∨
        (ref, members) ∈ groups topo := by
  simp only [nodes, List.mem_append, List.mem_map, Prod.mk.injEq]
  simp only [eq_comm]

theorem node_inhabited (hm : Mapped nrcpus topo) {node : RecordRef × List Int}
    (hnode : node ∈ nodes topo) : node.2 ≠ [] := by
  obtain ⟨ref, members⟩ := node
  rcases mem_nodes.mp hnode with ⟨cpu, -, -, rfl⟩ | hgroup
  · simp
  · exact hm.group_inhabited hgroup

theorem node_members {node : RecordRef × List Int}
    (hnode : node ∈ nodes topo) {cpu : Int} (hcpu : cpu ∈ node.2) : cpu ∈ cpuIds topo := by
  obtain ⟨ref, members⟩ := node
  rcases mem_nodes.mp hnode with ⟨c, hc, -, rfl⟩ | hgroup
  · rwa [List.mem_singleton.mp hcpu]
  · exact mem_cpuIds_of_group hgroup hcpu

theorem least_singleton {f : Int → Int} {cpu : Int} (hf : ValidState (f cpu)) :
    least f [cpu] = f cpu := by
  have hlt := hf.2
  simp [least, hlt.le]

theorem AccountedAll.current (h : AccountedAll topo events datas) (hm : Mapped nrcpus topo)
    {node : RecordRef × List Int} (hnode : node ∈ nodes topo) :
    (datas.cstates node.1).currentCstate = nodeState node.2 events := by
  rw [(h.records node hnode).accounted.current, lastState_nodeHistory (node_inhabited hm hnode)]

private theorem node_same (h : AccountedAll topo events datas) (hm : Mapped nrcpus topo)
    {event : PowerEvent} {node : RecordRef × List Int} (hnode : node ∈ nodes topo)
    (hsame : ∀ cpu ∈ node.2, latestState (events ++ [event]) cpu = latestState events cpu) :
    recordCstateEvent (datas.cstates node.1) event.time
      (nodeState node.2 (events ++ [event])) = .ok (datas.cstates node.1) := by
  have hstate : nodeState node.2 (events ++ [event]) = (datas.cstates node.1).currentCstate := by
    rw [h.current hm hnode]
    exact least_congr hsame
  rw [hstate]
  exact recordCstateEvent_same _ _

private theorem cpus_stored {datas' : CpuidleDatas} {phy : CpuPhysical} {core : CpuCore}
    {cpu state : Int} {time : ℚ} (h : AccountedAll topo events datas) (hready : Ready datas)
    (hstate : ValidState state) (hstored : Stored datas datas' phy core cpu state time) :
    ∀ c ∈ cpuIds topo,
      currentCstates datas' c = latestState (events ++ [.storeData time state cpu]) c := by
  intro c hc
  rw [latestState_storeData]
  by_cases heq : cpu = c
  · subst heq
    rw [if_pos rfl]
    exact hstored.current hready hstate
  · have hne : RecordRef.percpu c ≠ .percpu cpu := fun hp => heq (RecordRef.percpu.inj hp).symm
    have hsame := hstored.others (.percpu c) hne (by simp) (by simp)
    rw [if_neg heq, ← h.cpus c hc]
    simp only [currentCstates, hsame]

private theorem node_stored (h : AccountedAll topo events datas) (hm : Mapped nrcpus topo)
    (hready : Ready datas) {phy : CpuPhysical}
    {core : CpuCore} {cpu state : Int} {time : ℚ} (hstate : ValidState state)
    (hl : Located topo cpu phy core) {datas' : CpuidleDatas}
    (hstored : Stored datas datas' phy core cpu state time) {node : RecordRef × List Int}
    (hnode : node ∈ nodes topo) :
    recordCstateEvent (datas.cstates node.1) time
      (nodeState node.2 (events ++ [.storeData time state cpu])) = .ok (datas'.cstates node.1) := by
  have hcpus := cpus_stored h hready hstate hstored
  have hother : ∀ c ≠ cpu,
      latestState (events ++ [.storeData time state cpu]) c = latestState events c := by
    intro c hne
    rw [latestState_storeData, if_neg hne.symm]
  have hsame : (∀ c ∈ node.2,
      latestState (events ++ [.storeData time state cpu]) c = latestState events c) → _ :=
    node_same h hm hnode
  obtain ⟨ref, members⟩ := node
  rcases mem_nodes.mp hnode with ⟨c, hc, rfl, rfl⟩ | hgroup
  · by_cases heq : c = cpu
    · subst heq
      have hlatest : latestState (events ++ [.storeData time state c]) c = state := by
        rw [latestState_storeData, if_pos rfl]
      have hleast : nodeState [c] (events ++ [.storeData time state c]) = state := by
        rw [nodeState, least_singleton (by rwa [hlatest]), hlatest]
      rw [hleast]
      exact hstored.atCpu
    · rw [hstored.others _ (by simpa using heq) (by simp) (by simp)]
      exact hsame fun c' hc' => hother c' (List.mem_singleton.mp hc' ▸ heq)
  · have hiff := hl.mem_groups_iff hm hgroup
    have hstates : nodeState members (events ++ [.storeData time state cpu]) =
        least (currentCstates datas') members :=
      least_congr fun c hc => (hcpus c (mem_cpuIds_of_group hgroup hc)).symm
    by_cases hmem : cpu ∈ members
    · rcases hiff.mp hmem with rfl | rfl
      · rw [hstates, hm.group_unique hgroup hl.cluster_group]
        exact hstored.atCluster
      · rw [hstates, hm.group_unique hgroup hl.core_group]
        exact hstored.atCore
    · have hrefs : ref ≠ clusterRef phy ∧ ref ≠ coreRef phy core := not_or.mp (hiff.not.mp hmem)
      have hpercpu : ref ≠ .percpu cpu := fun href => percpu_not_group (href ▸ hgroup)
      rw [hstored.others ref hpercpu hrefs.2 hrefs.1]
      exact hsame fun c hc => hother c fun heq => hmem (heq ▸ hc)

/-- Every node records its new state, whether or not the event is about it. -/
theorem node_recorded (h : AccountedAll topo events datas) (hm : Mapped nrcpus topo)
    (hready : Ready datas) {event : PowerEvent}
    (hvalid : ValidEvent topo event) {phy : CpuPhysical} {core : CpuCore}
    (hl : Located topo event.cpu phy core) {datas' : CpuidleDatas}
    (heffect : Effect datas phy core event datas') {node : RecordRef × List Int}
    (hnode : node ∈ nodes topo) :
    recordCstateEvent (datas.cstates node.1) event.time
      (nodeState node.2 (events ++ [event])) = .ok (datas'.cstates node.1) := by
  cases heffect with
  | @ignored time state cpu hignored =>
    -- an exit of a CPU that has been in no state yet
    have hcur := Ignored.current hignored hready
    refine node_same h hm hnode fun c _ => ?_
    rw [latestState_storeData]
    split
    · next heq => rw [← heq, ← h.cpus cpu hvalid.2, hcur, hignored.1]
    · rfl
  | stored _ hstored => exact node_stored h hm hready hvalid.1 hl hstored hnode
  | changed => exact node_same h hm hnode fun c _ => by rw [latestState_cpuChangePstate]

theorem accountedAll_start (h : Started datas) : AccountedAll datas.topo [] datas where
  cpus := fun cpu _ => (h.cstates (.percpu cpu)).current
  records := fun node _ => tracks_fresh (h.cstates node.1)

theorem latestState_valid (h : AccountedAll topo events datas)
    (hready : Ready datas) {event : PowerEvent}
    (hvalid : ValidEvent topo event) {cpu : Int} (hcpu : cpu ∈ cpuIds topo) :
    ValidState (latestState (events ++ [event]) cpu) := by
  have hold : ValidState (latestState events cpu) := by
    rw [← h.cpus cpu hcpu]
    exact currentCstates_valid hready.cstates cpu
  cases event with
  | storeData time state c =>
    rw [latestState_storeData]
    split
    · exact hvalid.1
    · exact hold
  | cpuChangePstate c freq time => rwa [latestState_cpuChangePstate]

theorem AccountedAll.next (h : AccountedAll topo events datas) (hm : Mapped nrcpus topo)
    (hready : Ready datas) {event : PowerEvent}
    (hvalid : ValidEvent topo event) (htime : ∀ past ∈ events, past.time ≤ event.time)
    {phy : CpuPhysical} {core : CpuCore} (hl : Located topo event.cpu phy core)
    {datas' : CpuidleDatas} (heffect : Effect datas phy core event datas') :
    AccountedAll topo (events ++ [event]) datas' := by
  have hlatest : ∀ cpu ∈ cpuIds topo, ValidState (latestState (events ++ [event]) cpu) :=
    fun cpu hcpu => latestState_valid h hready hvalid hcpu
  have htracks : ∀ node ∈ nodes topo,
      Tracks (nodeHistory node.2 (events ++ [event])) (datas'.cstates node.1) := by
    intro node hnode
    have hrecord := node_recorded h hm hready hvalid hl heffect hnode
    have hstate : ValidState (nodeState node.2 (events ++ [event])) :=
      least_valid (node_inhabited hm hnode) fun cpu hcpu => hlatest cpu (node_members hnode hcpu)
    obtain ⟨top, hok⟩ := hready.cstates node.1
    obtain ⟨r, hrecord', -, hrec⟩ := recordCstateEvent_spec hok hstate event.time
    have hr : r = datas'.cstates node.1 := Except.ok.inj (hrecord'.symm.trans hrecord)
    rw [nodeHistory_concat, ← hr]
    exact (h.records node hnode).concat hrec fun k hk => timeAt_nodeHistory_le htime hk
  refine ⟨fun cpu hcpu => ?_, htracks⟩
  have hnode : (RecordRef.percpu cpu, [cpu]) ∈ nodes topo :=
    mem_nodes.mpr (.inl ⟨cpu, hcpu, rfl, rfl⟩)
  have hcurrent := (htracks _ hnode).accounted.current
  rw [lastState_nodeHistory (List.cons_ne_nil _ _), nodeState,
    least_singleton (hlatest cpu hcpu)] at hcurrent
  exact hcurrent

end AllRecords

/-- The events of a run: CPUs of the tree, states in range, times in order. -/
structure Chronological (topo : CpuTopology) (events : List PowerEvent) : Prop where
  valid : ∀ event ∈ events, ValidEvent topo event
  times : events.Pairwise fun earlier later => earlier.time ≤ later.time

theorem Chronological.before {topo : CpuTopology} {past rest : List PowerEvent}
    {event : PowerEvent} (h : Chronological topo (past ++ event :: rest)) :
    ∀ earlier ∈ past, earlier.time ≤ event.time := by
  intro earlier hearlier
  exact (List.pairwise_append.mp h.times).2.2 earlier hearlier event (by simp)

theorem accounted_always {start : CpuidleDatas} (h : Loaded start) {events : List PowerEvent}
    (hevents : Chronological start.topo events) :
    Runs.Always step (fun past datas =>
      ReadyOn start.topo start.nrcpus datas ∧ AccountedAll start.topo past datas) start events := by
  have hstarted := h.started
  apply Runs.always_of_invariant (fun past datas =>
    ReadyOn start.topo start.nrcpus datas ∧ AccountedAll start.topo past datas)
  · exact ⟨⟨ready_of_started hstarted, rfl, rfl⟩, accountedAll_start hstarted⟩
  · intro past event rest datas hsplit hinv
    have hvalid := hevents.valid event (by simp [hsplit])
    obtain ⟨phy, core, datas', hl, hstep, hready, heffect⟩ := hinv.1.next hvalid
    exact ⟨datas', hstep, hready, hinv.2.next hstarted.mapped hinv.1.ready hvalid
      (hsplit ▸ hevents).before hl heffect⟩

/-- The recorder never stops, and after every call every CPU, core and cluster
is in its defined state with the totals and counts of its ended stretches. -/
theorem cstate_accounting {start : CpuidleDatas} (h : Loaded start)
    (events : List PowerEvent) (hevents : Chronological start.topo events) :
    (∃ final, Runs.run step start events = .ok final) ∧
      Runs.Always step (fun past datas => ∀ node ∈ nodes start.topo,
        Accounted (nodeHistory node.2 past) (nodeState node.2 past) (datas.cstates node.1))
        start events := by
  constructor
  · exact run_total h hevents.valid
  · intro past rest datas hsplit hrun node hnode
    have hinv := (accounted_always h hevents past rest datas hsplit hrun).2
    have haccounted := (hinv.records node hnode).accounted
    rwa [lastState_nodeHistory (node_inhabited h.started.mapped hnode)] at haccounted

theorem cstate_accounting_pair :
    Chronological pairDatas.topo
        [.storeData 0 1 0, .storeData 1 2 1, .storeData 3 (-1) 0] ∧
      (∃ final, Runs.run step pairDatas
        [.storeData 0 1 0, .storeData 1 2 1, .storeData 3 (-1) 0] = .ok final) ∧
      Runs.Always step (fun past datas => ∀ node ∈ nodes pairDatas.topo,
        Accounted (nodeHistory node.2 past) (nodeState node.2 past) (datas.cstates node.1))
        pairDatas [.storeData 0 1 0, .storeData 1 2 1, .storeData 3 (-1) 0] :=
  have hevents : Chronological pairDatas.topo
      [.storeData 0 1 0, .storeData 1 2 1, .storeData 3 (-1) 0] :=
    ⟨by simp [ValidEvent, cpuIds_pairDatas, ValidState, maxcstate], by decide +kernel⟩
  ⟨hevents, cstate_accounting pairDatas_loaded _ hevents⟩

end Idlestat.Theory.CstateAccounting
