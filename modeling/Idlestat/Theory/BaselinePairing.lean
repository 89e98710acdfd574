import Idlestat.Theory.BaselineMerge

/-! The baseline of each node. The walk pairs by position, so every node gets
the records of the node with its own ids exactly when the ids of the main tree
are, level by level, the first ones of the baseline's. -/
namespace Idlestat.Theory.BaselinePairing

open Idlestat.Library Idlestat.Library.SortedKeys Idlestat.Library.ParallelWalk
  Idlestat.Model.Topology Idlestat.Model.Recorder Idlestat.Model.Baseline
  Idlestat.Model.TraceFiles Idlestat.Theory.Setup Idlestat.Theory.RecordMapping
  Idlestat.Theory.LoadedRecords Idlestat.Theory.LoadedTraces Idlestat.Theory.BaselineMerge

/-! ## Pairing by ids -/

def recordsOf {α : Type} (records : α → BaseRefs) (node : Option α) : BaseRefs :=
  (node.map records).getD {}

def sameCpu (base : Option CpuCore) (cpu : CpuCpu) : CpuPair :=
  { cpu := cpu
    base := recordsOf cpuRecords (base.bind fun core =>
      lookup CpuCpu.cpuId cpu.cpuId core.cpuHead) }

def sameCore (base : Option CpuPhysical) (core : CpuCore) : CorePair :=
  let baseCore := base.bind fun phy => lookup CpuCore.coreId core.coreId phy.coreHead
  { core := core
    base := recordsOf coreRecords baseCore
    cpus := core.cpuHead.map (sameCpu baseCore) }

/-- A cluster with the records of the baseline objects that have the same ids. -/
def sameCluster (base : CpuTopology) (phy : CpuPhysical) : ClusterPair :=
  let basePhy := lookup CpuPhysical.physicalId phy.physicalId base.physicalHead
  { phy := phy
    base := recordsOf clusterRecords basePhy
    cores := phy.coreHead.map (sameCore basePhy) }

def samePairs (topo base : CpuTopology) : List ClusterPair :=
  topo.physicalHead.map (sameCluster base)

/-! ## Trees in step -/

/-- The CPUs have the same id, or no CPU in question has records: neither the one
that is paired nor one with the id of `cpu`. -/
def CpuInStep (baseCore : CpuCore) (cpu base : CpuCpu) : Prop :=
  cpu.cpuId = base.cpuId ∨
    base.cstates = none ∧ ∀ other ∈ baseCore.cpuHead, other.cpuId = cpu.cpuId → other.cstates = none

def CoreInStep (core base : CpuCore) : Prop :=
  core.coreId = base.coreId ∧ Along (CpuInStep base) core.cpuHead base.cpuHead

def ClusterInStep (phy base : CpuPhysical) : Prop :=
  phy.physicalId = base.physicalId ∧ Along CoreInStep phy.coreHead base.coreHead

/-- At every position of the main tree, level by level, the baseline has the node
with the same id. -/
def InStep (topo base : CpuTopology) : Prop :=
  Along ClusterInStep topo.physicalHead base.physicalHead

section InStep

variable {base : CpuTopology} {basePhy : CpuPhysical} {baseCore : CpuCore} {baseCpu : CpuCpu}

theorem records_eq_iff {α : Type} {key : α → Int} {records : α → BaseRefs} {l : List α} {node : α}
    (hsorted : Increasing key l) (hnode : node ∈ l) (hne : ∀ x ∈ l, records x ≠ {})
    (hinj : ∀ x ∈ l, ∀ y ∈ l, records x = records y → key x = key y) (id : Int) :
    records node = recordsOf records (lookup key id l) ↔ id = key node := by
  constructor
  · intro hrecords
    cases hlookup : lookup key id l with
    | none =>
      rw [hlookup] at hrecords
      exact absurd hrecords (hne node hnode)
    | some found =>
      rw [hlookup] at hrecords
      obtain ⟨hfound, hid⟩ := lookup_some hlookup
      rw [hinj node hnode found hfound hrecords, hid]
  · intro hid
    rw [hid, lookup_mem hsorted hnode]
    rfl

theorem assignCpu_iff (hsorted : Increasing CpuCpu.cpuId baseCore.cpuHead)
    (hown : ∀ cpu ∈ baseCore.cpuHead, OwnOrNone cpu) (hbase : baseCpu ∈ baseCore.cpuHead)
    (cpu : CpuCpu) :
    assignCpu cpu baseCpu = .ok (sameCpu (some baseCore) cpu) ↔
      CpuInStep baseCore cpu baseCpu := by
  have hsame : assignCpu cpu baseCpu = .ok (sameCpu (some baseCore) cpu) ↔
      cpuRecords baseCpu =
        recordsOf cpuRecords (lookup CpuCpu.cpuId cpu.cpuId baseCore.cpuHead) := by
    simp [assignCpu, sameCpu]
  rw [hsame]
  constructor
  · intro hrecords
    cases hlookup : lookup CpuCpu.cpuId cpu.cpuId baseCore.cpuHead with
    | none =>
      rw [hlookup] at hrecords
      have hcstates : baseCpu.cstates = none := congrArg BaseRefs.cstates hrecords
      exact .inr ⟨hcstates, fun other hother hid =>
        absurd hid (lookup_none.mp hlookup other hother)⟩
    | some found =>
      rw [hlookup] at hrecords
      obtain ⟨hfound, hid⟩ := lookup_some hlookup
      have hcstates : baseCpu.cstates = found.cstates := congrArg BaseRefs.cstates hrecords
      rcases hown baseCpu hbase with hnone | hrec
      · refine .inr ⟨hnone.1, fun other hother hotherId => ?_⟩
        rw [hsorted.eq_of_key hother hfound (hotherId.trans hid.symm), ← hcstates, hnone.1]
      · rcases hown found hfound with hnone' | hrec'
        · rw [hrec.1, hnone'.1] at hcstates
          cases hcstates
        · rw [hrec.1, hrec'.1] at hcstates
          have heq := RecordRef.percpu.inj (Option.some.inj hcstates)
          exact .inl (hid.symm.trans heq.symm)
  · intro hstep
    rcases hstep with hid | ⟨hnone, hothers⟩
    · rw [hid, lookup_mem hsorted hbase]
      rfl
    · have hempty : cpuRecords baseCpu = {} := by
        rcases hown baseCpu hbase with hboth | hrec
        · simp [cpuRecords, hboth.1, hboth.2]
        · rw [hrec.1] at hnone
          cases hnone
      rw [hempty]
      cases hlookup : lookup CpuCpu.cpuId cpu.cpuId baseCore.cpuHead with
      | none => rfl
      | some found =>
        obtain ⟨hfound, hid⟩ := lookup_some hlookup
        have hnoneFound := hothers found hfound hid
        rcases hown found hfound with hboth | hrec
        · simp [recordsOf, cpuRecords, hboth.1, hboth.2]
        · rw [hrec.1] at hnoneFound
          cases hnoneFound

theorem coreRecords_eq_iff (h : Pointed base) (hphy : basePhy ∈ base.physicalHead)
    (hcore : baseCore ∈ basePhy.coreHead) (id : Int) :
    coreRecords baseCore = recordsOf coreRecords (lookup CpuCore.coreId id basePhy.coreHead) ↔
      id = baseCore.coreId := by
  have hcstates : ∀ core ∈ basePhy.coreHead,
      (coreRecords core).cstates = some (.core basePhy.physicalId core.coreId) := fun core hmem =>
    (h.core basePhy hphy core hmem).1
  apply records_eq_iff (h.cores basePhy hphy) hcore
  · intro core hmem hempty
    have hnone := hcstates core hmem
    rw [hempty] at hnone
    cases hnone
  · intro x hx y hy hrecords
    have hrefs := congrArg BaseRefs.cstates hrecords
    rw [hcstates x hx, hcstates y hy] at hrefs
    exact (RecordRef.core.inj (Option.some.inj hrefs)).2

theorem clusterRecords_eq_iff (h : Pointed base) (hphy : basePhy ∈ base.physicalHead) (id : Int) :
    clusterRecords basePhy =
        recordsOf clusterRecords (lookup CpuPhysical.physicalId id base.physicalHead) ↔
      id = basePhy.physicalId := by
  have hcstates : ∀ phy ∈ base.physicalHead,
      (clusterRecords phy).cstates = some (.cluster phy.physicalId) := fun phy hmem =>
    (h.cluster phy hmem).1
  apply records_eq_iff h.clusters hphy
  · intro phy hmem hempty
    have hnone := hcstates phy hmem
    rw [hempty] at hnone
    cases hnone
  · intro x hx y hy hrecords
    have hrefs := congrArg BaseRefs.cstates hrecords
    rw [hcstates x hx, hcstates y hy] at hrefs
    exact RecordRef.cluster.inj (Option.some.inj hrefs)

theorem assignCore_iff (h : Pointed base) (hphy : basePhy ∈ base.physicalHead)
    (hcore : baseCore ∈ basePhy.coreHead) (core : CpuCore) :
    assignCore core baseCore = .ok (sameCore (some basePhy) core) ↔
      CoreInStep core baseCore := by
  have hcpus : walk .outOfBounds assignCpu core.cpuHead baseCore.cpuHead =
        .ok (core.cpuHead.map (sameCpu (some baseCore))) ↔
      Along (CpuInStep baseCore) core.cpuHead baseCore.cpuHead := by
    rw [walk_eq_ok_map]
    apply along_congr
    intro cpu _ baseCpu hcpu
    apply assignCpu_iff (h.cpus basePhy hphy baseCore hcore) _ hcpu
    intro other hother
    exact h.cpu other (mem_cpuNodes.mpr ⟨basePhy, hphy, baseCore, hcore, hother⟩)
  have hid := coreRecords_eq_iff h hphy hcore core.coreId
  rw [CoreInStep, ← hcpus]
  constructor
  · intro hassign
    obtain ⟨cpus, hwalk, hassign⟩ := Runs.bind_eq_ok hassign
    have hpair := Except.ok.inj hassign
    have hsame : core.coreId = baseCore.coreId := hid.mp (congrArg CorePair.base hpair)
    have hlookup : lookup CpuCore.coreId core.coreId basePhy.coreHead = some baseCore := by
      rw [hsame]
      exact lookup_mem (h.cores basePhy hphy) hcore
    have hlist : cpus = core.cpuHead.map (sameCpu (some baseCore)) := by
      rw [← hlookup]
      exact congrArg CorePair.cpus hpair
    exact ⟨hsame, hwalk.trans (congrArg Except.ok hlist)⟩
  · intro hstep
    obtain ⟨hsame, hwalk⟩ := hstep
    have hlookup : lookup CpuCore.coreId core.coreId basePhy.coreHead = some baseCore := by
      rw [hsame]
      exact lookup_mem (h.cores basePhy hphy) hcore
    simp only [assignCore, hwalk, bind, Except.bind, sameCore, Option.bind_some, hlookup]
    rfl

theorem assignCluster_iff (h : Pointed base) (hphy : basePhy ∈ base.physicalHead)
    (phy : CpuPhysical) :
    assignCluster phy basePhy = .ok (sameCluster base phy) ↔ ClusterInStep phy basePhy := by
  have hcores : walk .outOfBounds assignCore phy.coreHead basePhy.coreHead =
        .ok (phy.coreHead.map (sameCore (some basePhy))) ↔
      Along CoreInStep phy.coreHead basePhy.coreHead := by
    rw [walk_eq_ok_map]
    apply along_congr
    intro core _ baseCore hcore
    exact assignCore_iff h hphy hcore core
  have hid := clusterRecords_eq_iff h hphy phy.physicalId
  rw [ClusterInStep, ← hcores]
  constructor
  · intro hassign
    obtain ⟨cores, hwalk, hassign⟩ := Runs.bind_eq_ok hassign
    have hpair := Except.ok.inj hassign
    have hsame : phy.physicalId = basePhy.physicalId := hid.mp (congrArg ClusterPair.base hpair)
    have hlookup : lookup CpuPhysical.physicalId phy.physicalId base.physicalHead =
        some basePhy := by
      rw [hsame]
      exact lookup_mem h.clusters hphy
    have hlist : cores = phy.coreHead.map (sameCore (some basePhy)) := by
      rw [← hlookup]
      exact congrArg ClusterPair.cores hpair
    exact ⟨hsame, hwalk.trans (congrArg Except.ok hlist)⟩
  · intro hstep
    obtain ⟨hsame, hwalk⟩ := hstep
    have hlookup : lookup CpuPhysical.physicalId phy.physicalId base.physicalHead =
        some basePhy := by
      rw [hsame]
      exact lookup_mem h.clusters hphy
    simp only [assignCluster, hwalk, bind, Except.bind, sameCluster, hlookup]
    rfl

theorem assignBaselineInTopo_iff (h : Pointed base) (topo : CpuTopology) :
    assignBaselineInTopo topo (some base) = .ok (samePairs topo base) ↔ InStep topo base := by
  simp only [assignBaselineInTopo, samePairs]
  rw [walk_eq_ok_map]
  apply along_congr
  intro phy _ basePhy hphy
  exact assignCluster_iff h hphy phy

end InStep

section Pair

variable {datas baseline : CpuidleDatas}

theorem pairBaseline_eq (hnonneg : 0 ≤ datas.nrcpus) (hle : datas.nrcpus ≤ baseline.nrcpus)
    {topo : List ClusterPair}
    (hassign : assignBaselineInTopo datas.topo (some baseline.topo) = .ok topo) :
    pairBaseline datas baseline =
      .ok { datas := (mergeBelow datas.nrcpus datas baseline).1
            baseline := (mergeBelow datas.nrcpus datas baseline).2
            topo := topo } := by
  have hassign' : assignBaselineInTopo (mergeBelow datas.nrcpus datas baseline).1.topo
      (some (mergeBelow datas.nrcpus datas baseline).2.topo) = .ok topo := hassign
  simp only [pairBaseline, mergePstates_eq hnonneg hle, hassign', bind, Except.bind]

theorem pairBaseline_ok (hnonneg : 0 ≤ datas.nrcpus) (hbase : 0 ≤ baseline.nrcpus) {paired : Paired}
    (hpair : pairBaseline datas baseline = .ok paired) :
    datas.nrcpus ≤ baseline.nrcpus ∧
      assignBaselineInTopo datas.topo (some baseline.topo) = .ok paired.topo := by
  obtain ⟨both, hmerge, hpair⟩ := Runs.bind_eq_ok hpair
  have hle := le_of_mergePstates hbase hmerge
  obtain rfl := Except.ok.inj ((mergePstates_eq hnonneg hle).symm.trans hmerge)
  obtain ⟨topo, hassign, hpair⟩ := Runs.bind_eq_ok hpair
  obtain rfl := Except.ok.inj hpair
  exact ⟨hle, hassign⟩

end Pair

/-- For any two traces that have been loaded, merging and pairing succeeds and
gives every cluster, core and CPU of the main tree the records of the baseline
object with its ids, or none, exactly when the main trace has no more CPUs than
the baseline and the trees are in step. -/
theorem baseline_paired (env baseEnv : Env) (ops baseOps : TraceOps) (text baseText : List Char)
    (datas baseline : CpuidleDatas) (hload : traceLoad env ops text = .ok (some datas))
    (hbase : traceLoad baseEnv baseOps baseText = .ok (some baseline)) :
    (∃ paired, pairBaseline datas baseline = .ok paired ∧
        paired.topo = samePairs datas.topo baseline.topo) ↔
      datas.nrcpus ≤ baseline.nrcpus ∧ InStep datas.topo baseline.topo := by
  have hmain := traceLoad_loaded hload
  have hother := traceLoad_loaded hbase
  rw [← assignBaselineInTopo_iff hother.pointed]
  constructor
  · intro h
    obtain ⟨paired, hpair, htopo⟩ := h
    obtain ⟨hle, hassign⟩ := pairBaseline_ok hmain.nrcpus hother.nrcpus hpair
    exact ⟨hle, hassign.trans (congrArg Except.ok htopo)⟩
  · intro h
    obtain ⟨hle, hassign⟩ := h
    exact ⟨_, pairBaseline_eq hmain.nrcpus hle hassign, rfl⟩

def hostEnv (infos : List TopologyInfo) : Env :=
  { pairEnv with host := some infos }

def fullInfos : List TopologyInfo :=
  [{ physicalId := 0, coreId := 0, cpuId := 0 }, { physicalId := 0, coreId := 1, cpuId := 1 },
    { physicalId := 0, coreId := 2, cpuId := 2 }]

/-- The same machine with the second CPU offline. -/
def holeInfos : List TopologyInfo :=
  [{ physicalId := 0, coreId := 0, cpuId := 0 }, { physicalId := 0, coreId := 2, cpuId := 2 }]

def emptyTrace : List Char :=
  "# tracer: nop #P:3\nx\n".toList

def hostTopo (infos : List TopologyInfo) : CpuTopology :=
  ((freshDatas .sysfs 3 pairEnv.info infos).toOption.map CpuidleDatas.topo).getD allocCpuTopoInfo

theorem load_full : ∃ datas, traceLoad (hostEnv fullInfos) .ftrace emptyTrace = .ok (some datas) ∧
    datas.topo = hostTopo fullInfos :=
  exists_of_load CpuidleDatas.topo (by decide +kernel)

theorem load_hole : ∃ datas, traceLoad (hostEnv holeInfos) .ftrace emptyTrace = .ok (some datas) ∧
    datas.topo = hostTopo holeInfos :=
  exists_of_load CpuidleDatas.topo (by decide +kernel)

theorem baseline_paired_full :
    ∃ datas, traceLoad (hostEnv fullInfos) .ftrace emptyTrace = .ok (some datas) ∧
      ((∃ paired, pairBaseline datas datas = .ok paired ∧
          paired.topo = samePairs datas.topo datas.topo) ↔
        datas.nrcpus ≤ datas.nrcpus ∧ InStep datas.topo datas.topo) := by
  obtain ⟨datas, hload, -⟩ := load_full
  exact ⟨datas, hload, baseline_paired _ _ _ _ _ _ datas datas hload hload⟩

/-- The trace with the hole against the full baseline: CPU 2 gets the records of
CPU 1. -/
theorem baseline_mispaired :
    ∃ datas baseline, traceLoad (hostEnv holeInfos) .ftrace emptyTrace = .ok (some datas) ∧
      traceLoad (hostEnv fullInfos) .ftrace emptyTrace = .ok (some baseline) ∧
      ¬ ∃ paired, pairBaseline datas baseline = .ok paired ∧
        paired.topo = samePairs datas.topo baseline.topo := by
  obtain ⟨datas, hload, htopo⟩ := load_hole
  obtain ⟨baseline, hbase, hbaseTopo⟩ := load_full
  refine ⟨datas, baseline, hload, hbase, ?_⟩
  intro h
  obtain ⟨paired, hpair, hsame⟩ := h
  obtain ⟨-, hassign⟩ := pairBaseline_ok (traceLoad_loaded hload).nrcpus
    (traceLoad_loaded hbase).nrcpus hpair
  have hwrong : assignBaselineInTopo (hostTopo holeInfos) (some (hostTopo fullInfos)) ≠
      .ok (samePairs (hostTopo holeInfos) (hostTopo fullInfos)) := by decide +kernel
  apply hwrong
  rw [← htopo, ← hbaseTopo, ← hsame]
  exact hassign

end Idlestat.Theory.BaselinePairing
