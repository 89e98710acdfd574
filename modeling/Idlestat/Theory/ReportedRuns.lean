import Idlestat.Theory.CstateAccounting
import Idlestat.Theory.CstateComparison
import Idlestat.Theory.CsvReport
import Idlestat.Theory.Wakeups

/-! From the events to the text: the C-state table of the report at the end of a
run is the one that an offline reading of the events gives. -/
namespace Idlestat.Theory.ReportedRuns

open Idlestat.Library Idlestat.Library.RunningStats Idlestat.Library.Timeline
  Idlestat.Library.TextFile Idlestat.Library.Decimal Idlestat.Model.Topology
  Idlestat.Model.Cstates Idlestat.Model.Recorder Idlestat.Model.TraceLine
  Idlestat.Model.TopologyFile Idlestat.Model.CstateFile Idlestat.Model.CsvReport
  Idlestat.Theory.CstateRecord Idlestat.Theory.Nodes Idlestat.Theory.Setup
  Idlestat.Theory.RecorderSteps Idlestat.Theory.TraceEvents Idlestat.Theory.CstateComparison
  Idlestat.Theory.CsvReport
open Idlestat.Theory.CstateAccounting (nodeHistory AccountedAll accountedAll_start mem_nodes)

/-! ## What the table is to be -/

def powerOf : TraceEvent → Option PowerEvent
  | .power event => some event
  | .storeIrq _ _ _ => none

def powerEvents (events : List TraceEvent) : List PowerEvent :=
  events.filterMap powerOf

def members (topo : CpuTopology) (ref : RecordRef) : List Int :=
  (((nodes topo).find? fun node => node.1 = ref).map Prod.snd).getD []

/-- Those columns of a state's row that follow from the stretches alone. -/
structure CstateColumns where
  name : List Char
  avgTime : ℚ
  duration : ℚ
  nrdata : Int
  deriving DecidableEq

def columns (row : CstateShown) : CstateColumns :=
  { name := row.name, avgTime := row.avgTime, duration := row.duration, nrdata := row.nrdata }

/-- The row of a state with this history: its mean stretch, their sum and their number. -/
def expectedRow (name : Option (List Char)) (history : History ℚ Int) (i : Fin maxcstate) :
    CstateColumns :=
  { name := printString name
    avgTime := rounded 6
      (usecPerSec * totalLength history (i : Int) / positiveCount history (i : Int))
    duration := rounded 6 (usecPerSec * totalLength history (i : Int))
    nrdata := positiveCount history (i : Int) }

/-- One row for each state with a stretch that took any time. -/
def expectedRows (start : CpuidleDatas) (events : List PowerEvent) (ref : RecordRef) :
    List CstateColumns :=
  let history := nodeHistory (members start.topo ref) events
  ((List.finRange maxcstate).filter fun i : Fin maxcstate =>
    positiveCount history (i : Int) ≠ 0).map fun i =>
      expectedRow ((start.cstates ref).cstate i).name history i

def expectedTable (start : CpuidleDatas) (events : List PowerEvent) :
    List ((Depth × List Char) × List CstateColumns) :=
  ((reportNodes start.topo).map fun node =>
    ((node.depth, node.name), expectedRows start events node.ref)).filter fun b => !b.2.isEmpty

def ClearCall : TraceEvent → Prop
  | .power _ => True
  | .storeIrq _ _ irqname => IsField irqname

instance : (event : TraceEvent) → Decidable (ClearCall event)
  | .power _ => .isTrue trivial
  | .storeIrq _ _ irqname => inferInstanceAs (Decidable (IsField irqname))

/-- The calls of a trace: CPUs of the tree, states in range, times in order, and
names that can be fields of a line. -/
structure Reportable (topo : CpuTopology) (events : List TraceEvent) : Prop where
  valid : ∀ event ∈ events, ValidCall topo event
  times : (powerEvents events).Pairwise fun earlier later => earlier.time ≤ later.time
  names : ∀ event ∈ events, ClearCall event

/-- The names that the data start with can be fields. -/
structure ClearStart (start : CpuidleDatas) : Prop where
  clusters : ClearNames start.topo
  cstates : ∀ node ∈ reportNodes start.topo, ∀ i,
    IsField (printString ((start.cstates node.ref).cstate i).name)

structure RecordShown (start r : CpuidleCstates) : Prop where
  within : WithinMax r
  names : ∀ i, (r.cstate i).name = (start.cstate i).name
  irqs : ∀ irqname ∈ r.wakeinfo.map WakeupIrq.name, IsField irqname

section Records

variable {top : Fin maxcstate → ℚ} {start r r' : CpuidleCstates} {time : ℚ} {state : Int}

theorem cstateEnd_names (hend : cstateEnd time r = .ok r') (i : Fin maxcstate) :
    (r'.cstate i).name = (r.cstate i).name := by
  have hset : ∀ last c, c.name = (r.cstate last).name →
      ((r.setCstate last c).cstate i).name = (r.cstate i).name := by
    intro last c hc
    by_cases hi : i = last
    · rw [hi, setCstate_self, hc]
    · rw [setCstate_of_ne hi]
  obtain ⟨last, -, hend⟩ := Runs.bind_eq_ok hend
  cases hslot : (r.cstate last).data[(r.cstate last).nrdata]? with
  | none => simp [hslot] at hend
  | some slot =>
    simp only [hslot] at hend
    split at hend
    · rw [← Except.ok.inj hend]
      exact hset last _ rfl
    · obtain ⟨verdict, -, hend⟩ := Runs.bind_eq_ok hend
      rw [← Except.ok.inj hend]
      exact hset last _ rfl

theorem cstateBegin_names (hbegin : cstateBegin time state r = .ok r') (i : Fin maxcstate) :
    (r'.cstate i).name = (r.cstate i).name := by
  obtain ⟨next, -, hbegin⟩ := Runs.bind_eq_ok hbegin
  rw [← Except.ok.inj hbegin]
  by_cases hi : i = next
  · subst hi
    simp
  · simp [hi]

theorem recordCstateEvent_names (hrecord : recordCstateEvent r time state = .ok r')
    (i : Fin maxcstate) : (r'.cstate i).name = (r.cstate i).name := by
  by_cases hsame : state = r.currentCstate
  · rw [hsame, recordCstateEvent_same] at hrecord
    rw [Except.ok.inj hrecord]
  · rw [recordCstateEvent_of_ne hsame] at hrecord
    obtain ⟨r₁, hleave, hrecord⟩ := Runs.bind_eq_ok hrecord
    have hleft : (r₁.cstate i).name = (r.cstate i).name := by
      split at hleave
      · exact cstateEnd_names hleave i
      · rw [Except.ok.inj hleave]
    split at hrecord
    · rw [cstateBegin_names hrecord i, hleft]
    · rw [← Except.ok.inj hrecord, hleft]

theorem RecordShown.record (h : RecordShown start r) (hok : RecordOk top r)
    (hstate : ValidState state) (hrecord : recordCstateEvent r time state = .ok r') :
    RecordShown start r' where
  within := recordCstateEvent_withinMax hok hstate hrecord h.within
  names := fun i => (recordCstateEvent_names hrecord i).trans (h.names i)
  irqs := by
    rw [Wakeups.recordCstateEvent_wakeinfo hok hstate hrecord]
    exact h.irqs

theorem RecordShown.attribute (h : RecordShown start r) {irqid : Int} {irqname : List Char}
    (hname : IsField irqname) : RecordShown start (attributeIrq r irqid irqname) := by
  have hnew : IsField (newIrqinfo irqid irqname).name :=
    ⟨fun hmem => hname.1 (List.mem_of_mem_take hmem),
      fun hmem => hname.2 (List.mem_of_mem_take hmem)⟩
  by_cases hnull : r.wakeirq = none
  · obtain ⟨entries, i, hcredited⟩ := Wakeups.attributeIrq_credited hnull irqid irqname
    have hentries : ∀ name ∈ entries.map WakeupIrq.name, IsField name := by
      rcases hcredited.table with hold | ⟨hadded, -⟩
      · rw [hold]
        exact h.irqs
      · rw [hadded, List.map_append, List.forall_mem_append]
        exact ⟨h.irqs, by simpa using hnew⟩
    have hnames : (entries.modify i (WakeupIrq.trigger · r.actualResidency)).map WakeupIrq.name =
        entries.map WakeupIrq.name := by
      apply SortedKeys.map_modify_of_eq
      exact fun _ => rfl
    rw [hcredited.result]
    refine ⟨h.within, h.names, ?_⟩
    simp only
    rwa [hnames]
  · rwa [Wakeups.attributeIrq_done hnull]

theorem RecordShown.shownCstates_eq (h : RecordShown start r) :
    shownCstates r =
      ((List.finRange maxcstate).filter fun i => (r.cstate i).nrdata ≠ 0).map r.cstate := by
  rw [shownCstates, List.filter_map, reachedStates, List.filter_filter]
  congr 1
  apply List.filter_congr
  intro i _
  by_cases hmax : (i.val : Int) ≤ r.cstateMax
  · simp [hmax]
  · have hzero := h.within i (not_le.mp hmax)
    simp [hmax, hzero]

theorem avgTime_eq {c : CpuidleCstate} {initial : ℚ} (h : CstateOk initial c) :
    c.avgTime = c.duration / c.nrdata := by
  have hmean : c.avgTime = (ofList initial (durations c)).mean :=
    congrArg Running.mean h.summary
  have htotal : c.duration = (ofList initial (durations c)).total :=
    congrArg Running.total h.summary
  have hcount : c.nrdata = (ofList initial (durations c)).count :=
    congrArg Running.count h.summary
  rw [hmean, htotal, hcount, ofList_mean, ofList_total, ofList_count]

theorem RecordShown.rows (h : RecordShown start r) (hok : RecordOk top r)
    {history : History ℚ Int} (htracks : CstateAccounting.Tracks history r) :
    (shownCstates r).map (columns ∘ cstateShown) =
      ((List.finRange maxcstate).filter fun i : Fin maxcstate =>
        positiveCount history (i : Int) ≠ 0).map fun i =>
          expectedRow (start.cstate i).name history i := by
  have hrow : ∀ i, columns (cstateShown (r.cstate i)) =
      expectedRow (start.cstate i).name history i := by
    intro i
    have hduration := htracks.accounted.duration i
    have hnrdata := htracks.accounted.nrdata i
    simp only [columns, cstateShown, expectedRow, avgTime_eq (hok.cstate i), hduration, hnrdata,
      h.names i]
  have hcount : ∀ i : Fin maxcstate, (r.cstate i).nrdata = positiveCount history (i : Int) :=
    htracks.accounted.nrdata
  rw [h.shownCstates_eq, List.map_map]
  simp only [hcount]
  exact List.map_congr_left fun i _ => hrow i

end Records

section Run

variable {nrcpus : Int} {start datas datas' : CpuidleDatas} {topo : CpuTopology}
  {past : List TraceEvent} {event : TraceEvent}

theorem powerEvents_concat (past : List TraceEvent) (event : TraceEvent) :
    powerEvents (past ++ [event]) = powerEvents past ++ (powerOf event).toList := by
  rw [powerEvents, List.filterMap_append]
  cases event <;> rfl

structure ReportInv (start : CpuidleDatas) (past : List TraceEvent) (datas : CpuidleDatas) :
    Prop where
  ready : ReadyOn start.topo start.nrcpus datas
  accounted : AccountedAll start.topo (powerEvents past) datas
  shown : ∀ ref, RecordShown (start.cstates ref) (datas.cstates ref)

theorem reportInv_start (h : Loaded start) : ReportInv start [] start where
  ready := readyOn_of_loaded h
  accounted := accountedAll_start h.started
  shown := fun ref => {
    within := fun i _ => (h.started.cstates ref).nrdata i
    names := fun _ => rfl
    irqs := by simp [(h.started.cstates ref).wakeinfo] }

theorem attributeIrq_states (r : CpuidleCstates) (irqid : Int) (irqname : List Char) :
    (attributeIrq r irqid irqname).currentCstate = r.currentCstate ∧
      (attributeIrq r irqid irqname).cstate = r.cstate := by
  unfold attributeIrq
  split
  · exact ⟨rfl, rfl⟩
  · exact ⟨rfl, rfl⟩

theorem tracks_of_states {history : History ℚ Int} {r r' : CpuidleCstates}
    (h : CstateAccounting.Tracks history r)
    (hstates : r'.currentCstate = r.currentCstate ∧ r'.cstate = r.cstate) :
    CstateAccounting.Tracks history r' := by
  obtain ⟨hcurrent, hcstate⟩ := hstates
  refine ⟨⟨hcurrent.trans h.accounted.current, ?_, ?_⟩, ?_⟩
  · rw [hcstate]
    exact h.accounted.duration
  · rw [hcstate]
    exact h.accounted.nrdata
  · intro i hi
    have hopened := h.opened i (hcurrent ▸ hi)
    simpa only [openBegin, hcstate] using hopened

theorem accountedAll_irq {events : List PowerEvent} (h : AccountedAll topo events datas)
    (cpu irqid : Int) (irqname : List Char) :
    AccountedAll topo events (datas.setCstates (.percpu cpu)
      (attributeIrq (datas.cstates (.percpu cpu)) irqid irqname)) := by
  have hstates : ∀ ref,
      ((datas.setCstates (.percpu cpu) (attributeIrq (datas.cstates (.percpu cpu)) irqid
        irqname)).cstates ref).currentCstate = (datas.cstates ref).currentCstate ∧
      ((datas.setCstates (.percpu cpu) (attributeIrq (datas.cstates (.percpu cpu)) irqid
        irqname)).cstates ref).cstate = (datas.cstates ref).cstate := by
    intro ref
    by_cases hcpu : ref = .percpu cpu
    · subst hcpu
      simpa [CpuidleDatas.setCstates] using attributeIrq_states _ irqid irqname
    · simp [CpuidleDatas.setCstates, hcpu]
  refine ⟨?_, fun node hnode => tracks_of_states (h.records node hnode) (hstates node.1)⟩
  intro c hc
  rw [← h.cpus c hc]
  exact (hstates (.percpu c)).1

theorem ReportInv.irq (h : ReportInv start past datas) {cpu irqid : Int} {irqname : List Char}
    (hname : IsField irqname) :
    ReportInv start (past ++ [.storeIrq cpu irqid irqname])
      (datas.setCstates (.percpu cpu)
        (attributeIrq (datas.cstates (.percpu cpu)) irqid irqname)) := by
  have hpast : powerEvents (past ++ [.storeIrq cpu irqid irqname]) = powerEvents past := by
    rw [powerEvents_concat]
    exact List.append_nil _
  refine ⟨storeIrq_ready h.ready, ?_, ?_⟩
  · rw [hpast]
    exact accountedAll_irq h.accounted cpu irqid irqname
  · intro ref
    by_cases hcpu : ref = .percpu cpu
    · subst hcpu
      simpa [CpuidleDatas.setCstates] using (h.shown (.percpu cpu)).attribute hname
    · simpa [CpuidleDatas.setCstates, hcpu] using h.shown ref

theorem ReportInv.power (h : ReportInv start past datas) {event : PowerEvent}
    (hvalid : ValidEvent start.topo event)
    (htime : ∀ earlier ∈ powerEvents past, earlier.time ≤ event.time) :
    ∃ datas', step datas event = .ok datas' ∧
      ReportInv start (past ++ [.power event]) datas' := by
  have hm : Mapped start.nrcpus start.topo :=
    h.ready.nrcpus ▸ h.ready.topo ▸ h.ready.ready.mapped
  obtain ⟨phy, core, datas', hl, hstep, hready, heffect⟩ := h.ready.next hvalid
  have haccounted := h.accounted.next hm h.ready.ready hvalid htime hl heffect
  refine ⟨datas', hstep, hready, ?_, ?_⟩
  · rw [powerEvents_concat]
    exact haccounted
  · intro ref
    cases heffect with
    | ignored => exact h.shown ref
    | changed => exact h.shown ref
    | @stored time state cpu next hnot hstored =>
      have hrecord : ∀ {ref : RecordRef} {state : Int}, ValidState state →
          recordCstateEvent (datas.cstates ref) time state = .ok (datas'.cstates ref) →
          RecordShown (start.cstates ref) (datas'.cstates ref) := by
        intro ref state hstate hrecord
        obtain ⟨top, hok⟩ := h.ready.ready.cstates ref
        exact (h.shown ref).record hok hstate hrecord
      have hleast : ∀ {members : List Int}, members ≠ [] →
          ValidState (least (currentCstates datas') members) := fun hne =>
        least_valid hne fun c _ => currentCstates_valid hready.ready.cstates c
      by_cases hcpu : ref = .percpu cpu
      · rw [hcpu]
        exact hrecord hvalid.1 hstored.atCpu
      · by_cases hcore : ref = coreRef phy core
        · rw [hcore]
          exact hrecord (hleast (hm.group_inhabited hl.core_group)) hstored.atCore
        · by_cases hcluster : ref = clusterRef phy
          · rw [hcluster]
            exact hrecord (hleast (hm.group_inhabited hl.cluster_group)) hstored.atCluster
          · rw [hstored.others ref hcpu hcore hcluster]
            exact h.shown ref

theorem report_run (h : Loaded start) {events : List TraceEvent}
    (hevents : Reportable start.topo events) :
    ∃ final, Runs.run traceStep start events = .ok final ∧ ReportInv start events final := by
  apply Runs.run_invariant (ReportInv start) (reportInv_start h)
  intro past event rest datas hsplit hinv
  have hvalid := hevents.valid event (by simp [hsplit])
  have hname := hevents.names event (by simp [hsplit])
  cases event with
  | storeIrq cpu irqid irqname => exact ⟨_, storeIrq_eq hinv.ready hvalid, hinv.irq hname⟩
  | power event =>
    have htimes := hevents.times
    rw [hsplit, powerEvents, List.filterMap_append] at htimes
    exact hinv.power hvalid fun earlier hearlier =>
      (List.pairwise_append.mp htimes).2.2 earlier hearlier event (by simp [powerOf])

/-! ## The report -/

theorem members_eq (hm : Mapped nrcpus topo) {ref : RecordRef} {cpus : List Int}
    (hnode : (ref, cpus) ∈ nodes topo) : members topo ref = cpus := by
  have hunique : ∀ cpus', (ref, cpus') ∈ nodes topo → cpus' = cpus := by
    intro cpus' hnode'
    rcases mem_nodes.mp hnode with ⟨cpu, -, rfl, rfl⟩ | hgroup
    · rcases mem_nodes.mp hnode' with ⟨cpu', -, href, rfl⟩ | hgroup'
      · rw [RecordRef.percpu.inj href]
      · exact absurd hgroup' percpu_not_group
    · rcases mem_nodes.mp hnode' with ⟨cpu', -, rfl, rfl⟩ | hgroup'
      · exact absurd hgroup percpu_not_group
      · exact hm.group_unique hgroup' hgroup
  have hsome : ((nodes topo).find? fun node => node.1 = ref).isSome = true :=
    List.find?_isSome.mpr ⟨(ref, cpus), hnode, by simp⟩
  obtain ⟨⟨ref', cpus'⟩, hfind⟩ := Option.isSome_iff_exists.mp hsome
  obtain rfl : ref' = ref := by simpa using List.find?_some hfind
  rw [members, hfind]
  exact hunique cpus' (List.mem_of_find?_eq_some hfind)

theorem mem_nodes_of_report {node : ReportNode} (h : node ∈ reportNodes topo) :
    ∃ cpus, (node.ref, cpus) ∈ nodes topo := by
  rcases mem_reportNodes h with ⟨phy, hphy, rfl⟩ | ⟨phy, hphy, core, hcore, rfl⟩ | ⟨cpu, hcpu, rfl⟩
  · exact ⟨_, mem_nodes.mpr (.inr (mem_groups.mpr ⟨phy, hphy, .inl ⟨rfl, rfl⟩⟩))⟩
  · exact ⟨_, mem_nodes.mpr (.inr (mem_groups.mpr ⟨phy, hphy, .inr ⟨core, hcore, rfl, rfl⟩⟩))⟩
  · exact ⟨_, mem_nodes.mpr (.inl ⟨cpu, hcpu, rfl, rfl⟩)⟩

theorem ReportInv.clearReport (h : ReportInv start past datas) (hclear : ClearStart start) :
    ClearReport datas where
  clusters := by
    rw [h.ready.topo]
    exact hclear.clusters
  cstates := by
    intro node hnode c hc
    rw [h.ready.topo] at hnode
    rw [(h.shown node.ref).shownCstates_eq] at hc
    obtain ⟨i, -, rfl⟩ := List.mem_map.mp hc
    rw [(h.shown node.ref).names i]
    exact hclear.cstates node hnode i
  irqs := fun node _ irqinfo hirq => (h.shown node.ref).irqs _ (List.mem_map_of_mem hirq)

theorem ReportInv.rows (h : ReportInv start past datas) {node : ReportNode}
    (hnode : node ∈ reportNodes start.topo) :
    (shownCstates (datas.cstates node.ref)).map (columns ∘ cstateShown) =
      expectedRows start (powerEvents past) node.ref := by
  have hm : Mapped start.nrcpus start.topo :=
    h.ready.nrcpus ▸ h.ready.topo ▸ h.ready.ready.mapped
  obtain ⟨cpus, hcpus⟩ := mem_nodes_of_report hnode
  obtain ⟨top, hok⟩ := h.ready.ready.cstates node.ref
  rw [expectedRows, members_eq hm hcpus]
  exact (h.shown node.ref).rows hok (h.accounted.records _ hcpus)

theorem ReportInv.table (h : ReportInv start past datas) :
    (shownTable datas.topo (fun ref => shownCstates (datas.cstates ref)) cstateShown).map
        (fun group => (group.1, group.2.map columns)) =
      expectedTable start (powerEvents past) := by
  have hgroup : ∀ node ∈ reportNodes start.topo,
      ((node.depth, node.name), (shownCstates (datas.cstates node.ref)).map
        (columns ∘ cstateShown)) =
      ((node.depth, node.name), expectedRows start (powerEvents past) node.ref) :=
    fun node hnode => by rw [h.rows hnode]
  rw [h.ready.topo, shownTable, shownNodes, expectedTable, ← List.map_congr_left hgroup,
    List.map_map]
  simp only [List.filter_map, List.map_map, Function.comp_def, List.isEmpty_map]

/-- The report of a run shows, of every node and state, the stretches that the
events of the run say the node has spent in it. -/
theorem reported_run (h : Loaded start) (hclear : ClearStart start)
    (events : List TraceEvent) (hevents : Reportable start.topo events) (display : Display)
    (hidle : display.idle = true) :
    ∃ final text table, Runs.run traceStep start events = .ok final ∧
      displayTables csvReportOps display (unpaired final) [] = .ok text ∧
      readTable "C-State Table" readCstate text = some table ∧
      table.map (fun group => (group.1, group.2.map columns)) =
        expectedTable start (powerEvents events) := by
  obtain ⟨final, hrun, hinv⟩ := report_run h hevents
  exact ⟨final, _, _, hrun, displayTables_print hinv.ready.ready display,
    read_cstateTable (hinv.clearReport hclear) hidle, hinv.table⟩

end Run

/-- Both CPUs idle, the second longer than the trace. -/
def pairTrace : List TraceEvent :=
  [.power (.storeData 0 1 0), .power (.storeData 1 2 1), .storeIrq 0 5 ['t'],
    .power (.storeData 3 (-1) 0)]

def pairRow (seconds : ℚ) : CstateColumns :=
  { name := printString none, avgTime := seconds * 1000000, duration := seconds * 1000000
    nrdata := 1 }

theorem pairTrace_reportable : Reportable pairDatas.topo pairTrace where
  valid := by
    simp [pairTrace, ValidCall, ValidEvent, cpuIds_pairDatas, ValidState, maxcstate]
  times := by decide +kernel
  names := by decide +kernel

theorem reported_run_pair :
    expectedTable pairDatas (powerEvents pairTrace) =
      [((.cluster, "clusterA".toList), [pairRow 2]), ((.core, "core0".toList), [pairRow 2]),
        ((.cpu, "cpu0".toList), [pairRow 3])] ∧
      ∃ final text table, Runs.run traceStep pairDatas pairTrace = .ok final ∧
        displayTables csvReportOps ⟨true, true, true⟩ (unpaired final) [] = .ok text ∧
        readTable "C-State Table" readCstate text = some table ∧
        table.map (fun group => (group.1, group.2.map columns)) =
          expectedTable pairDatas (powerEvents pairTrace) :=
  have hclear : ClearStart pairDatas := ⟨by decide +kernel, by decide +kernel⟩
  ⟨by decide +kernel,
    reported_run pairDatas_loaded hclear pairTrace pairTrace_reportable ⟨true, true, true⟩ rfl⟩

end Idlestat.Theory.ReportedRuns
