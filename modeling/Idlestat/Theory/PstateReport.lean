import Idlestat.Model.TopologyDump
import Idlestat.Theory.BaselinePairing
import Idlestat.Theory.PstateComparison

/-! The P-state report of two traces with the same topology. The merge aligns the
tables of the CPUs and of nothing else, so the report compares like with like
exactly when the tables of the clusters and of the hyper-threaded cores happen
to be aligned. -/
namespace Idlestat.Theory.PstateReport

open Idlestat.Library Idlestat.Library.SortedKeys Idlestat.Library.ParallelWalk
  Idlestat.Model.Topology Idlestat.Model.Pstates Idlestat.Model.Recorder Idlestat.Model.Report
  Idlestat.Model.Baseline Idlestat.Model.TraceFiles Idlestat.Model.TopologyDump
  Idlestat.Theory.Nodes Idlestat.Theory.ComparisonReport Idlestat.Theory.PstateRecord
  Idlestat.Theory.RecordMapping Idlestat.Theory.LoadedRecords Idlestat.Theory.LoadedTraces
  Idlestat.Theory.BaselineMerge Idlestat.Theory.BaselinePairing Idlestat.Theory.PstateComparison

/-! ## Trees with the same ids -/

def coreTree (core : CpuCore) : Int × List Int :=
  (core.coreId, core.cpuHead.map CpuCpu.cpuId)

def clusterTree (phy : CpuPhysical) : Int × List (Int × List Int) :=
  (phy.physicalId, phy.coreHead.map coreTree)

/-- All ids of a topology, in their places. -/
def idTree (topo : CpuTopology) : List (Int × List (Int × List Int)) :=
  topo.physicalHead.map clusterTree

section SameTree

variable {topo base : CpuTopology}

theorem cpuIds_eq_idTree (topo : CpuTopology) :
    cpuIds topo = (idTree topo).flatMap fun phy => phy.2.flatMap Prod.snd := by
  simp only [cpuIds, idTree, clusterTree, List.flatMap_map]
  rfl

theorem inStep_of_idTree (h : idTree topo = idTree base) : InStep topo base := by
  apply along_of_keys _ h
  intro phy _ basePhy _ hphy
  obtain ⟨hid, hcores⟩ := Prod.mk.inj hphy
  refine ⟨hid, along_of_keys ?_ hcores⟩
  intro core _ baseCore _ hcore
  obtain ⟨hid, hcpus⟩ := Prod.mk.inj hcore
  refine ⟨hid, along_of_keys ?_ hcpus⟩
  intro cpu _ baseCpu _ hcpu
  exact .inl hcpu

theorem lookup_of_map {α κ : Type} {key : α → Int} {tree : α → κ} (hkey : ∀ x y, tree x = tree y →
    key x = key y) {l l' : List α} (h : l.map tree = l'.map tree) (hsorted : Increasing key l')
    {x : α} (hx : x ∈ l) : ∃ y ∈ l', lookup key (key x) l' = some y ∧ tree x = tree y := by
  have hmem : tree x ∈ l'.map tree := h ▸ List.mem_map_of_mem hx
  obtain ⟨y, hy, htree⟩ := List.mem_map.mp hmem
  refine ⟨y, hy, ?_, htree.symm⟩
  rw [← hkey y x htree]
  exact lookup_mem hsorted hy

theorem sameCluster_base (hbase : Pointed base) (h : idTree topo = idTree base) {phy : CpuPhysical}
    (hphy : phy ∈ topo.physicalHead) :
    ∃ basePhy ∈ base.physicalHead,
      sameCluster base phy =
        { phy := phy, base := clusterRecords basePhy
          cores := phy.coreHead.map (sameCore (some basePhy)) } ∧
      clusterTree phy = clusterTree basePhy := by
  have hkey : ∀ x y, clusterTree x = clusterTree y → x.physicalId = y.physicalId := fun _ _ htree =>
    congrArg Prod.fst htree
  obtain ⟨basePhy, hmem, hlookup, htree⟩ := lookup_of_map hkey h hbase.clusters hphy
  refine ⟨basePhy, hmem, ?_, htree⟩
  simp only [sameCluster, hlookup]
  rfl

theorem sameCore_base {phy basePhy : CpuPhysical}
    (hbase : Increasing CpuCore.coreId basePhy.coreHead)
    (h : clusterTree phy = clusterTree basePhy) {core : CpuCore} (hcore : core ∈ phy.coreHead) :
    ∃ baseCore ∈ basePhy.coreHead,
      sameCore (some basePhy) core =
        { core := core, base := coreRecords baseCore
          cpus := core.cpuHead.map (sameCpu (some baseCore)) } ∧
      coreTree core = coreTree baseCore := by
  have hkey : ∀ x y, coreTree x = coreTree y → x.coreId = y.coreId := fun _ _ htree =>
    congrArg Prod.fst htree
  obtain ⟨baseCore, hmem, hlookup, htree⟩ :=
    lookup_of_map hkey (congrArg Prod.snd h) hbase hcore
  refine ⟨baseCore, hmem, ?_, htree⟩
  simp only [sameCore, Option.bind_some, hlookup]
  rfl

theorem sameCpu_base {core baseCore : CpuCore} (hbase : Increasing CpuCpu.cpuId baseCore.cpuHead)
    (h : coreTree core = coreTree baseCore) {cpu : CpuCpu} (hcpu : cpu ∈ core.cpuHead) :
    ∃ baseCpu ∈ baseCore.cpuHead,
      sameCpu (some baseCore) cpu = { cpu := cpu, base := cpuRecords baseCpu } ∧
      cpu.cpuId = baseCpu.cpuId := by
  obtain ⟨baseCpu, hmem, hlookup, hid⟩ :=
    lookup_of_map (fun _ _ hid => hid) (congrArg Prod.snd h) hbase hcpu
  refine ⟨baseCpu, hmem, ?_, hid⟩
  simp only [sameCpu, Option.bind_some, hlookup]
  rfl

end SameTree

/-! ## The calls -/

theorem forall_dumpCalls {P : DumpCall → Prop} {cstate : Bool} {topo : List ClusterPair} :
    (∀ call ∈ dumpCalls cstate topo, P call) ↔
      ∀ cluster ∈ topo, P (clusterCall cstate cluster) ∧ ∀ core ∈ cluster.cores,
        (core.core.isHt = true → P (coreCall cstate core)) ∧
          ∀ cpu ∈ core.cpus, P (cpuCall cstate cpu) := by
  have hcore : ∀ core : CorePair, (∀ call ∈ coreCalls cstate core, P call) ↔
      (core.core.isHt = true → P (coreCall cstate core)) ∧
        ∀ cpu ∈ core.cpus, P (cpuCall cstate cpu) := by
    intro core
    cases hht : core.core.isHt <;> simp [coreCalls, hht]
  simp only [dumpCalls, clusterCalls, List.mem_flatMap, List.mem_cons, ← hcore]
  constructor
  · intro h cluster hcluster
    exact ⟨h _ ⟨cluster, hcluster, .inl rfl⟩, fun core hmem call hcall =>
      h call ⟨cluster, hcluster, .inr ⟨core, hmem, hcall⟩⟩⟩
  · intro h call hcall
    obtain ⟨cluster, hcluster, hhead | ⟨core, hmem, hcall⟩⟩ := hcall
    · exact hhead ▸ (h cluster hcluster).1
    · exact (h cluster hcluster).2 core hmem call hcall

def ownCall (ref : RecordRef) (cpu : List Char) : DumpCall :=
  { arg := some ref, baseline := some ref, cpu := cpu }

section SameCalls

variable {topo base : CpuTopology} {phy : CpuPhysical} {core : CpuCore} {cpu : CpuCpu}

theorem mem_sameCores (base : CpuTopology) (hcore : core ∈ phy.coreHead) :
    sameCore (lookup CpuPhysical.physicalId phy.physicalId base.physicalHead) core ∈
      (sameCluster base phy).cores :=
  List.mem_map_of_mem hcore

theorem clusterCall_same (hmain : Pointed topo) (hbase : Pointed base)
    (htree : idTree topo = idTree base) (hphy : phy ∈ topo.physicalHead) :
    clusterCall false (sameCluster base phy) =
      ownCall (.cluster phy.physicalId) (clusterName phy.physicalId) := by
  obtain ⟨basePhy, hmem, hsame, hcluster⟩ := sameCluster_base hbase htree hphy
  have hid : phy.physicalId = basePhy.physicalId := congrArg Prod.fst hcluster
  have hbaseRef := (hbase.cluster basePhy hmem).2
  simp [hsame, clusterCall, clusterRecords, ownCall, (hmain.cluster phy hphy).2, hbaseRef, hid]

theorem coreCall_same (hmain : Pointed topo) (hbase : Pointed base)
    (htree : idTree topo = idTree base) (hphy : phy ∈ topo.physicalHead)
    {pair : CorePair} (hpair : pair ∈ (sameCluster base phy).cores) :
    coreCall false pair =
      ownCall (.core phy.physicalId pair.core.coreId) (coreName pair.core.coreId) := by
  obtain ⟨basePhy, hmem, hsame, hcluster⟩ := sameCluster_base hbase htree hphy
  rw [hsame] at hpair
  obtain ⟨core, hcore, rfl⟩ := List.mem_map.mp hpair
  obtain ⟨baseCore, hmem', hsame', hcoreTree⟩ :=
    sameCore_base (hbase.cores basePhy hmem) hcluster hcore
  have hid : phy.physicalId = basePhy.physicalId := congrArg Prod.fst hcluster
  have hid' : core.coreId = baseCore.coreId := congrArg Prod.fst hcoreTree
  have hbaseRef := (hbase.core basePhy hmem baseCore hmem').2
  simp [hsame', coreCall, coreRecords, ownCall, (hmain.core phy hphy core hcore).2, hbaseRef, hid,
    hid']

theorem cpuCall_same (hbase : Pointed base) (htree : idTree topo = idTree base)
    (hphy : phy ∈ topo.physicalHead) {pair : CorePair}
    (hpair : pair ∈ (sameCluster base phy).cores) {cpuPair : CpuPair}
    (hcpuPair : cpuPair ∈ pair.cpus) :
    cpuPair.cpu ∈ pair.core.cpuHead ∧ pair.core ∈ phy.coreHead ∧
      ∃ baseCpu ∈ cpuNodes base, baseCpu.cpuId = cpuPair.cpu.cpuId ∧
        cpuCall false cpuPair =
          { arg := cpuPair.cpu.pstates, baseline := baseCpu.pstates
            cpu := cpuName cpuPair.cpu.cpuId } := by
  obtain ⟨basePhy, hmem, hsame, hcluster⟩ := sameCluster_base hbase htree hphy
  rw [hsame] at hpair
  obtain ⟨core, hcore, rfl⟩ := List.mem_map.mp hpair
  obtain ⟨baseCore, hmem', hsame', hcoreTree⟩ :=
    sameCore_base (hbase.cores basePhy hmem) hcluster hcore
  rw [hsame'] at hcpuPair ⊢
  obtain ⟨cpu, hcpu, rfl⟩ := List.mem_map.mp hcpuPair
  obtain ⟨baseCpu, hmem'', hsame'', hid⟩ :=
    sameCpu_base (hbase.cpus basePhy hmem baseCore hmem') hcoreTree hcpu
  rw [hsame'']
  exact ⟨hcpu, hcore, baseCpu, mem_cpuNodes.mpr ⟨basePhy, hmem, baseCore, hmem', hmem''⟩,
    hid.symm, rfl⟩

end SameCalls

/-- The node has records, and the rows about them compare like with like. -/
def CallCompared (paired : Paired) (call : DumpCall) : Prop :=
  ∃ pstates, call.arg = some pstates ∧
    PstatesCompared (paired.datas.pstates pstates) (call.baseline.map paired.baseline.pstates)
      call.cpu

def comparedPairs (paired : Paired) (call : DumpCall) : List (CpufreqPstate × CpufreqPstate) :=
  match dumpPstates pairOps paired call ⟨none, []⟩ with
  | .ok rdata => rowsOf rdata.printed
  | .error _ => []

section Dump

variable {paired : Paired} {call : DumpCall}

theorem CallCompared.rows (h : CallCompared paired call) (printed : List (ReportLine PstateRow)) :
    dumpPstates comparisonPstateOps paired call ⟨none, printed⟩ =
      .ok ⟨none, printed ++ objectLines call.cpu
        ((comparedPairs paired call).map fun pair => pstateRow pair.1 pair.2)⟩ := by
  obtain ⟨pstates, harg, hcompared⟩ := h
  obtain ⟨pairs, hpairs, hdisplay, -⟩ := hcompared printed
  have hsame : comparedPairs paired call = pairs := by
    simp only [comparedPairs, dumpPstates, harg, deref, bind, Except.bind, hpairs]
    exact rowsOf_objectLines pairs
  rw [hsame]
  simp only [dumpPstates, harg, deref, bind, Except.bind, hdisplay]

theorem dump_compared (h : ∀ call ∈ dumpCalls false paired.topo, CallCompared paired call) :
    dumpCpuTopoInfo (dumpPstates comparisonPstateOps paired) compareAllocData paired.topo false =
      .ok ⟨none, (dumpCalls false paired.topo).flatMap fun call =>
        objectLines call.cpu
          ((comparedPairs paired call).map fun pair => pstateRow pair.1 pair.2)⟩ :=
  dumpCpuTopoInfo_eq fun call hcall => (h call hcall).rows

end Dump

/-! ## Both traces -/

/-- Nothing merges the tables of the clusters and cores. -/
def GroupsAligned (datas baseline : CpuidleDatas) : Prop :=
  ∀ phy ∈ datas.topo.physicalHead,
    Aligned (datas.pstates (.cluster phy.physicalId))
      (baseline.pstates (.cluster phy.physicalId)) ∧
    ∀ core ∈ phy.coreHead, core.isHt = true →
      Aligned (datas.pstates (.core phy.physicalId core.coreId))
        (baseline.pstates (.core phy.physicalId core.coreId))

section Report

variable {datas baseline : CpuidleDatas}

/-- The traces once they are merged and paired. -/
def samePaired (datas baseline : CpuidleDatas) : Paired :=
  { datas := (mergeBelow datas.nrcpus datas baseline).1
    baseline := (mergeBelow datas.nrcpus datas baseline).2
    topo := samePairs datas.topo baseline.topo }

theorem pairBaseline_sameTree (hmain : LoadedTrace datas) (hother : LoadedTrace baseline)
    (htree : idTree datas.topo = idTree baseline.topo) {paired : Paired} :
    pairBaseline datas baseline = .ok paired ↔
      datas.nrcpus ≤ baseline.nrcpus ∧ paired = samePaired datas baseline := by
  have hassign : assignBaselineInTopo datas.topo (some baseline.topo) =
      .ok (samePairs datas.topo baseline.topo) :=
    (assignBaselineInTopo_iff hother.pointed datas.topo).mpr (inStep_of_idTree htree)
  constructor
  · intro hpair
    obtain ⟨hle, -⟩ := pairBaseline_ok hmain.nrcpus hother.nrcpus hpair
    have hsame := pairBaseline_eq hmain.nrcpus hle hassign
    exact ⟨hle, Except.ok.inj (hpair.symm.trans hsame)⟩
  · intro h
    obtain ⟨hle, rfl⟩ := h
    exact pairBaseline_eq hmain.nrcpus hle hassign

/-- The display of a cluster or of a core is about the tables as they were loaded. -/
theorem groupCompared_iff (hmain : TablesOk datas) (hother : TablesOk baseline) {ref : RecordRef}
    (href : ∀ cpu, ref ≠ .percpu cpu) (cpu : List Char) :
    CallCompared (samePaired datas baseline) (ownCall ref cpu) ↔
      Aligned (datas.pstates ref) (baseline.pstates ref) := by
  have hloaded : ∀ merged old, below datas.nrcpus merged old ref = old ref := by
    intro merged old
    cases ref with
    | percpu cpu => exact absurd rfl (href cpu)
    | core physicalId coreId => rfl
    | cluster physicalId => rfl
  rw [← pstatesCompared_iff (hmain ref) (hother ref) cpu]
  simp only [CallCompared, ownCall, samePaired, mergeBelow, Option.some.injEq, exists_eq_left',
    Option.map_some, hloaded]

theorem cpuCompared (hmain : TablesOk datas) (hother : TablesOk baseline) {cpu : Int}
    (hrange : 0 ≤ cpu ∧ cpu < datas.nrcpus) (name : List Char) :
    CallCompared (samePaired datas baseline) (ownCall (.percpu cpu) name) := by
  have hmerged : ∀ merged old, below datas.nrcpus merged old (.percpu cpu) =
      merged (.percpu cpu) := fun _ _ => below_percpu hrange
  obtain ⟨hok, hbaseOk⟩ := mergeBelow_tables datas.nrcpus hmain hother
  refine ⟨.percpu cpu, rfl, ?_⟩
  apply (pstatesCompared_iff (hok _) (hbaseOk _) name).mpr
  apply aligned_of_freqs
  simp only [mergeBelow, hmerged]
  exact freqs_mergePstatesCpu (hmain _) (hother _)

theorem separate_of_sameTree (htree : idTree datas.topo = idTree baseline.topo)
    (hle : datas.nrcpus ≤ baseline.nrcpus) (h : Separate datas) : Separate baseline := by
  have hids : cpuIds baseline.topo = cpuIds datas.topo := by
    rw [cpuIds_eq_idTree, cpuIds_eq_idTree, htree]
  refine ⟨hids ▸ h.once, fun cpu hcpu => ?_⟩
  have hlt := h.below cpu (hids ▸ hcpu)
  omega

theorem mem_samePairs {pair : ClusterPair} (h : pair ∈ samePairs datas.topo baseline.topo) :
    ∃ phy ∈ datas.topo.physicalHead, pair = sameCluster baseline.topo phy := by
  obtain ⟨phy, hphy, rfl⟩ := List.mem_map.mp h
  exact ⟨phy, hphy, rfl⟩

theorem aligned_of_compared (hmain : LoadedTrace datas) (hother : LoadedTrace baseline)
    (htree : idTree datas.topo = idTree baseline.topo)
    (h : ∀ call ∈ dumpCalls false (samePaired datas baseline).topo,
      CallCompared (samePaired datas baseline) call) :
    Separate datas ∧ GroupsAligned datas baseline := by
  have hall := forall_dumpCalls.mp h
  have hpair : ∀ phy ∈ datas.topo.physicalHead,
      sameCluster baseline.topo phy ∈ (samePaired datas baseline).topo := fun phy hphy =>
    List.mem_map_of_mem hphy
  constructor
  · apply separate_of_mappedBelow hmain.mapped
    intro cpu hmem
    obtain ⟨phy, hphy, core, hcore, hcpu⟩ := mem_cpuNodes.mp hmem
    obtain ⟨-, hcores⟩ := hall _ (hpair phy hphy)
    obtain ⟨-, hcpus⟩ := hcores _ (mem_sameCores baseline.topo hcore)
    obtain ⟨pstates, harg, -⟩ := hcpus _ (List.mem_map_of_mem hcpu)
    have harg : cpu.pstates = some pstates := harg
    cases hmain.pointed.cpu cpu hmem with
    | inl hnone =>
      rw [hnone.2] at harg
      cases harg
    | inr hown => simp [hown.1]
  · intro phy hphy
    obtain ⟨hcluster, hcores⟩ := hall _ (hpair phy hphy)
    rw [clusterCall_same hmain.pointed hother.pointed htree hphy] at hcluster
    constructor
    · exact (groupCompared_iff hmain.tables hother.tables (by simp) _).mp hcluster
    · intro core hcore hht
      have hcorePair := mem_sameCores baseline.topo hcore
      obtain ⟨hcompared, -⟩ := hcores _ hcorePair
      have hcompared := hcompared hht
      rw [coreCall_same hmain.pointed hother.pointed htree hphy hcorePair] at hcompared
      exact (groupCompared_iff hmain.tables hother.tables (by simp) _).mp hcompared

theorem compared_of_aligned (hmain : LoadedTrace datas) (hother : LoadedTrace baseline)
    (htree : idTree datas.topo = idTree baseline.topo) (hown : OwnRecords datas)
    (hbaseOwn : OwnRecords baseline) (haligned : GroupsAligned datas baseline) :
    ∀ call ∈ dumpCalls false (samePaired datas baseline).topo,
      CallCompared (samePaired datas baseline) call := by
  rw [forall_dumpCalls]
  intro pair hmem
  obtain ⟨phy, hphy, rfl⟩ := mem_samePairs hmem
  obtain ⟨hcluster, hcores⟩ := haligned phy hphy
  constructor
  · rw [clusterCall_same hmain.pointed hother.pointed htree hphy]
    exact (groupCompared_iff hmain.tables hother.tables (by simp) _).mpr hcluster
  · intro corePair hcorePair
    constructor
    · intro hht
      obtain ⟨core, hcore, hcoreSame⟩ := List.mem_map.mp hcorePair
      rw [coreCall_same hmain.pointed hother.pointed htree hphy hcorePair]
      apply (groupCompared_iff hmain.tables hother.tables (by simp) _).mpr
      rw [← hcoreSame] at hht ⊢
      exact hcores core hcore hht
    · intro cpuPair hcpuPair
      obtain ⟨hcpu, hcore, baseCpu, hbaseCpu, hid, hcall⟩ :=
        cpuCall_same hother.pointed htree hphy hcorePair hcpuPair
      obtain ⟨basePhy, hbasePhy, baseCore, hbaseCore, hbaseMem⟩ := mem_cpuNodes.mp hbaseCpu
      obtain ⟨-, hrecord, hrange⟩ := hown.cpu phy hphy _ hcore _ hcpu
      obtain ⟨-, hbaseRecord, -⟩ := hbaseOwn.cpu basePhy hbasePhy baseCore hbaseCore _ hbaseMem
      rw [hcall, hrecord, hbaseRecord, hid]
      exact cpuCompared hmain.tables hother.tables hrange _

end Report

/-- For any two loaded traces with the same topology, pairing succeeds and the
report compares like with like for every object exactly when the baseline has
the CPUs of the main trace, every CPU has records, and the tables of every
cluster and hyper-threaded core are aligned. -/
theorem pstates_compared (env baseEnv : Env) (ops baseOps : TraceOps) (text baseText : List Char)
    (datas baseline : CpuidleDatas) (hload : traceLoad env ops text = .ok (some datas))
    (hbase : traceLoad baseEnv baseOps baseText = .ok (some baseline))
    (htree : idTree datas.topo = idTree baseline.topo) :
    (∃ paired, pairBaseline datas baseline = .ok paired ∧
        ∀ call ∈ dumpCalls false paired.topo, CallCompared paired call) ↔
      datas.nrcpus ≤ baseline.nrcpus ∧ Separate datas ∧ GroupsAligned datas baseline := by
  have hmain := traceLoad_loaded hload
  have hother := traceLoad_loaded hbase
  constructor
  · intro h
    obtain ⟨paired, hpair, hcompared⟩ := h
    obtain ⟨hle, rfl⟩ := (pairBaseline_sameTree hmain hother htree).mp hpair
    exact ⟨hle, aligned_of_compared hmain hother htree hcompared⟩
  · intro h
    obtain ⟨hle, hseparate, haligned⟩ := h
    have hown := traceLoad_ownRecords hload hseparate
    have hbaseOwn := traceLoad_ownRecords hbase (separate_of_sameTree htree hle hseparate)
    exact ⟨samePaired datas baseline,
      (pairBaseline_sameTree hmain hother htree).mpr ⟨hle, rfl⟩,
      compared_of_aligned hmain hother htree hown hbaseOwn haligned⟩

def soloInfos : List TopologyInfo :=
  [{ physicalId := 0, coreId := 0, cpuId := 0 }]

/-- A host of one CPU. The times of the traces below are whole seconds. -/
def soloEnv : Env :=
  { hostEnv soloInfos with
    strtod := fun text => (text.takeWhile Char.isDigit).foldl
      (fun n c => 10 * n + ((c.toNat - '0'.toNat : Nat) : ℚ)) 0 }

def slowTrace : List Char :=
  ("# tracer: nop #P:1\n" ++
    "sh-1 [000] d..2 1.000000: cpu_frequency: state=100000 cpu_id=0\n" ++
    "sh-1 [000] d..2 2.000000: cpu_frequency: state=300000 cpu_id=0\n").toList

def fastTrace : List Char :=
  ("# tracer: nop #P:1\n" ++
    "sh-1 [000] d..2 1.000000: cpu_frequency: state=200000 cpu_id=0\n" ++
    "sh-1 [000] d..2 2.000000: cpu_frequency: state=300000 cpu_id=0\n").toList

def clusterCounts (datas : CpuidleDatas) : List (Nat × Nat) :=
  (datas.pstates (.cluster 0)).pstate.map fun p => (p.freq, p.count)

def topoAndCounts (datas : CpuidleDatas) : CpuTopology × List (Nat × Nat) :=
  (datas.topo, clusterCounts datas)

theorem load_slow : ∃ datas, traceLoad soloEnv .ftrace slowTrace = .ok (some datas) ∧
    topoAndCounts datas = (hostTopo soloInfos, [(100000, 1), (300000, 0)]) :=
  exists_of_load topoAndCounts (by decide +kernel)

theorem load_fast : ∃ datas, traceLoad soloEnv .ftrace fastTrace = .ok (some datas) ∧
    topoAndCounts datas = (hostTopo soloInfos, [(200000, 1), (300000, 0)]) :=
  exists_of_load topoAndCounts (by decide +kernel)

theorem pstates_compared_solo :
    ∃ datas baseline, traceLoad soloEnv .ftrace slowTrace = .ok (some datas) ∧
      traceLoad soloEnv .ftrace fastTrace = .ok (some baseline) ∧
      ((∃ paired, pairBaseline datas baseline = .ok paired ∧
          ∀ call ∈ dumpCalls false paired.topo, CallCompared paired call) ↔
        datas.nrcpus ≤ baseline.nrcpus ∧ Separate datas ∧ GroupsAligned datas baseline) := by
  obtain ⟨datas, hload, hmain⟩ := load_slow
  obtain ⟨baseline, hbase, hother⟩ := load_fast
  have htree : idTree datas.topo = idTree baseline.topo :=
    congrArg idTree ((Prod.mk.inj hmain).1.trans (Prod.mk.inj hother).1.symm)
  exact ⟨datas, baseline, hload, hbase,
    pstates_compared _ _ _ _ _ _ datas baseline hload hbase htree⟩

/-- The cluster's 100 MHz are compared with 200 MHz. -/
theorem pstates_compared_wrong :
    ∃ datas baseline, traceLoad soloEnv .ftrace slowTrace = .ok (some datas) ∧
      traceLoad soloEnv .ftrace fastTrace = .ok (some baseline) ∧
      idTree datas.topo = idTree baseline.topo ∧
      ¬ ∃ paired, pairBaseline datas baseline = .ok paired ∧
        ∀ call ∈ dumpCalls false paired.topo, CallCompared paired call := by
  obtain ⟨datas, hload, hslow⟩ := load_slow
  obtain ⟨baseline, hbase, hfast⟩ := load_fast
  obtain ⟨htopo, hcounts⟩ := Prod.mk.inj hslow
  obtain ⟨hbaseTopo, hbaseCounts⟩ := Prod.mk.inj hfast
  have htree : idTree datas.topo = idTree baseline.topo := by rw [htopo, hbaseTopo]
  refine ⟨datas, baseline, hload, hbase, htree, ?_⟩
  intro h
  obtain ⟨paired, hpair, hcompared⟩ := h
  have hmain := traceLoad_loaded hload
  have hother := traceLoad_loaded hbase
  obtain ⟨-, rfl⟩ := (pairBaseline_sameTree hmain hother htree).mp hpair
  obtain ⟨-, haligned⟩ := aligned_of_compared hmain hother htree hcompared
  have hcluster : ∃ phy ∈ datas.topo.physicalHead, phy.physicalId = 0 := by
    rw [htopo]
    decide +kernel
  obtain ⟨phy, hphy, hid⟩ := hcluster
  obtain ⟨hsame, -⟩ := haligned phy hphy
  rw [hid] at hsame
  have hfirst : (clusterCounts datas)[0]? = some (100000, 1) := by rw [hcounts]; rfl
  have hbaseFirst : (clusterCounts baseline)[0]? = some (200000, 1) := by rw [hbaseCounts]; rfl
  simp only [clusterCounts, List.getElem?_map] at hfirst hbaseFirst
  obtain ⟨p, hp, hpCounts⟩ := Option.map_eq_some_iff.mp hfirst
  obtain ⟨q, hq, hqCounts⟩ := Option.map_eq_some_iff.mp hbaseFirst
  have hpCount : p.count = 1 := congrArg Prod.snd hpCounts
  obtain ⟨q', hq', hfreq⟩ := hsame.same 0 p hp (.inl (hpCount ▸ Nat.one_ne_zero))
  obtain rfl : q = q' := Option.some.inj (hq.symm.trans hq')
  have hpFreq : p.freq = 100000 := congrArg Prod.fst hpCounts
  have hqFreq : q.freq = 200000 := congrArg Prod.fst hqCounts
  omega

end Idlestat.Theory.PstateReport
