import Idlestat.Model.TraceFiles
import Idlestat.Theory.RecordMapping
import Idlestat.Theory.TopologyRoundTrip

/-! Every CPU of a loaded topology with records of its own. No loader compares
the number of CPUs with the topology, so this holds of an accepted file exactly
when the ids of the topology are distinct and below `nrcpus`. -/
namespace Idlestat.Theory.LoadedRecords

open Idlestat.Library Idlestat.Library.SortedKeys Idlestat.Library.TextFile
  Idlestat.Model.Topology Idlestat.Model.Cstates Idlestat.Model.Pstates Idlestat.Model.Recorder
  Idlestat.Model.TopologyFile Idlestat.Model.CstateFile Idlestat.Model.TraceFiles
  Idlestat.Theory.TopologyTree Idlestat.Theory.TopologyCanonical Idlestat.Theory.Nodes
  Idlestat.Theory.Setup Idlestat.Theory.RecordMapping Idlestat.Theory.TopologyRoundTrip
open Idlestat.Model.Loaders hiding loadAndBuildCstateInfo

section Accepted

variable {env : Env} {topo : CpuTopology}

theorem foldlM_addTopoInfo_wf {infos : List TopologyInfo}
    (h : infos.foldlM addTopoInfo allocCpuTopoInfo = .ok topo) : TopoWf topo := by
  rw [Runs.foldlM_eq_run] at h
  have hkept : Runs.Always addTopoInfo (fun _ => TopoWf) allocCpuTopoInfo infos :=
    Runs.always_of_preserved TopoWf allocCpuTopoInfo_wf fun info topo topo' hadd hwf =>
      (addTopoInfo_ok hwf hadd).1
  exact hkept infos [] topo (by simp) h

theorem readSysfsCpuTopo_wf {host : Option (List TopologyInfo)}
    (h : readSysfsCpuTopo host = .ok (some topo)) : TopoWf topo := by
  cases host with
  | none => cases h
  | some infos =>
    obtain ⟨topo', hfold, h⟩ := Runs.bind_eq_ok h
    obtain rfl := Option.some.inj (Except.ok.inj h)
    exact foldlM_addTopoInfo_wf hfold

theorem loadCpu_fresh {uninit : Nat → Uninit} {cpu : Int} {input input' : Input}
    {cstates : CpuidleCstates}
    (h : loadCpu uninit topo cpu input = .ok (some (cstates, input'))) : Fresh cstates := by
  obtain ⟨online, -, h⟩ := Runs.bind_eq_ok h
  split at h
  · obtain ⟨rfl, -⟩ := Prod.mk.inj (Option.some.inj (Except.ok.inj h))
    exact emptyCstates_fresh
  · split at h
    · cases h
    · obtain ⟨states, -, h⟩ := Runs.bind_eq_ok h
      obtain ⟨rfl, -⟩ := Prod.mk.inj (Option.some.inj (Except.ok.inj h))
      exact buildCstateInfo_fresh _

theorem loadCpus_fresh {uninit : Int → Nat → Uninit} {cpus : List Int} {input input' : Input}
    {array : List CpuidleCstates}
    (h : loadCpus uninit topo cpus input = .ok (some (array, input'))) :
    ∀ cstates ∈ array, Fresh cstates := by
  induction cpus generalizing input array with
  | nil =>
    obtain ⟨rfl, -⟩ := Prod.mk.inj (Option.some.inj (Except.ok.inj h))
    simp
  | cons cpu rest ih =>
    obtain ⟨loaded, hcpu, h⟩ := Runs.bind_eq_ok h
    cases loaded with
    | none => cases h
    | some loaded =>
      obtain ⟨tail, hrest, h⟩ := Runs.bind_eq_ok h
      cases tail with
      | none => cases h
      | some tail =>
        obtain ⟨rfl, rfl⟩ := Prod.mk.inj (Option.some.inj (Except.ok.inj h))
        exact List.forall_mem_cons.mpr ⟨loadCpu_fresh hcpu, ih hrest⟩

theorem loadAndBuild_fresh {uninit : Int → Nat → Uninit} {nrcpus : Int} {input input' : Input}
    {array : List CpuidleCstates}
    (h : loadAndBuildCstateInfo uninit input nrcpus topo = .ok (some (array, input'))) :
    ∀ cstates ∈ array, Fresh cstates := by
  rw [loadAndBuildCstateInfo] at h
  split at h
  · cases h
  · exact loadCpus_fresh h

theorem getD_fresh {array : List CpuidleCstates} (h : ∀ cstates ∈ array, Fresh cstates)
    (i : Nat) : Fresh (array.getD i emptyCstates) := by
  by_cases hi : i < array.length
  · rw [List.getD_eq_getElem _ _ hi]
    exact h _ (List.getElem_mem hi)
  · rw [List.getD_eq_default _ _ (by omega)]
    exact emptyCstates_fresh

structure Prepared (datas : CpuidleDatas) : Prop where
  wf : TopoWf datas.topo
  nrcpus : 0 ≤ datas.nrcpus
  cstates : ∀ ref, Fresh (datas.cstates ref)
  pstates : ∀ ref, datas.pstates ref = buildPstateInfo

theorem checkNrcpus_nonneg {cpus : Nat} {nrcpus : Int} (h : checkNrcpus cpus = some nrcpus) :
    0 ≤ nrcpus := by
  unfold checkNrcpus at h
  split at h
  · cases h
  · rw [← Option.some.inj h]
    omega

theorem sysfsDatas_prepared {start : Option (Nat × Input)} {load : Load}
    (h : sysfsDatas env start = .ok (some load)) : Prepared load.datas := by
  simp only [sysfsDatas] at h
  split at h
  · cases h
  · split at h
    · cases h
    · next nrcpus hcheck =>
      obtain ⟨topo, htopo, h⟩ := Runs.bind_eq_ok h
      cases topo with
      | none => cases h
      | some topo =>
        obtain rfl := Option.some.inj (Except.ok.inj h)
        refine ⟨readSysfsCpuTopo_wf htopo, checkNrcpus_nonneg hcheck, fun ref => ?_, fun _ => rfl⟩
        cases ref with
        | percpu cpu => exact cpuRecord_fresh .sysfs topo env.info cpu
        | core physicalId coreId => exact emptyCstates_fresh
        | cluster physicalId => exact emptyCstates_fresh

theorem nativeDatas_prepared {nrcpus : Int} {cstates : List CpuidleCstates} (hwf : TopoWf topo)
    (hnrcpus : 0 ≤ nrcpus) (hfresh : ∀ record ∈ cstates, Fresh record) :
    Prepared (nativeDatas nrcpus topo cstates) := by
  refine ⟨hwf, hnrcpus, fun ref => ?_, fun _ => rfl⟩
  cases ref with
  | percpu cpu => exact getD_fresh hfresh cpu.toNat
  | core physicalId coreId => exact emptyCstates_fresh
  | cluster physicalId => exact emptyCstates_fresh

theorem idlestatDatas_prepared {text : List Char} {load : Load}
    (h : idlestatDatas env text = .ok (some load)) : Prepared load.datas := by
  simp only [idlestatDatas] at h
  split at h
  · cases h
  · split at h
    · cases h
    · next nrcpus hcheck =>
      obtain ⟨read, hread, h⟩ := Runs.bind_eq_ok h
      cases read with
      | none => cases h
      | some read =>
        obtain ⟨loaded, hloaded, h⟩ := Runs.bind_eq_ok h
        cases loaded with
        | none => cases h
        | some loaded =>
          obtain rfl := Option.some.inj (Except.ok.inj h)
          exact nativeDatas_prepared (readCpuTopoInfo_lettered hread).1
            (checkNrcpus_nonneg hcheck) (loadAndBuild_fresh hloaded)

theorem loadDatas_prepared {ops : TraceOps} {text : List Char} {load : Load}
    (h : loadDatas env text ops = .ok (some load)) : Prepared load.datas := by
  cases ops with
  | ftrace => exact sysfsDatas_prepared h
  | tracecmd => exact sysfsDatas_prepared h
  | idlestat => exact idlestatDatas_prepared h

end Accepted

/-! ## Own records -/

/-- Every CPU points to its own element of the two per-CPU arrays, inside them,
and every core and cluster points to records. -/
structure OwnRecords (datas : CpuidleDatas) : Prop where
  cpu : ∀ phy ∈ datas.topo.physicalHead, ∀ core ∈ phy.coreHead, ∀ cpu ∈ core.cpuHead,
    cpu.cstates = some (.percpu cpu.cpuId) ∧ cpu.pstates = some (.percpu cpu.cpuId) ∧
      0 ≤ cpu.cpuId ∧ cpu.cpuId < datas.nrcpus
  core : ∀ phy ∈ datas.topo.physicalHead, ∀ core ∈ phy.coreHead,
    core.cstates.isSome ∧ core.pstates.isSome
  cluster : ∀ phy ∈ datas.topo.physicalHead, phy.cstates.isSome ∧ phy.pstates.isSome

/-- The ids of the topology's CPUs are distinct and below `nrcpus`. -/
structure Separate (datas : CpuidleDatas) : Prop where
  once : (cpuIds datas.topo).Nodup
  below : ∀ cpu ∈ cpuIds datas.topo, cpu < datas.nrcpus

section Own

variable {datas datas' : CpuidleDatas}

theorem ownRecords_of_mapped (h : Mapped datas.nrcpus datas.topo) : OwnRecords datas where
  cpu := by
    intro phy hphy core hcore cpu hcpu
    obtain ⟨hcstates, hpstates⟩ := h.cpu phy hphy core hcore cpu hcpu
    exact ⟨hcstates, hpstates, h.range _ (cpuId_mem_cpuIds hphy hcore hcpu)⟩
  core := by
    intro phy hphy core hcore
    simp [h.core phy hphy core hcore]
  cluster := by
    intro phy hphy
    simp [h.cluster phy hphy]

theorem separate_of_mappedBelow (h : MappedBelow datas.nrcpus (cpuNodes datas.topo))
    (hall : ∀ cpu ∈ cpuNodes datas.topo, cpu.cstates.isSome) : Separate datas := by
  constructor
  · rw [← map_cpuNodes]
    apply List.pairwise_map.mpr
    apply h.once.imp_of_mem
    intro a b ha hb hne
    exact hne (hall a ha) (hall b hb)
  · intro cpu hmem
    rw [← map_cpuNodes] at hmem
    obtain ⟨node, hnode, rfl⟩ := List.mem_map.mp hmem
    exact h.below node hnode (hall node hnode)

theorem separate_of_ownRecords (hprepared : Prepared datas)
    (hsetup : setupTopoStates datas = .ok datas') (hown : OwnRecords datas') :
    Separate datas := by
  obtain ⟨-, hmapped, hids, hnrcpus, -⟩ := setupTopoStates_ok hprepared.wf hsetup
  have hsize : ((datas.nrcpus.toNat : Nat) : Int) = datas'.nrcpus := by
    rw [hnrcpus, Int.toNat_of_nonneg hprepared.nrcpus]
  have hseparate : Separate datas' := by
    apply separate_of_mappedBelow (hsize ▸ hmapped)
    intro cpu hmem
    obtain ⟨phy, hphy, core, hcore, hcpu⟩ := mem_cpuNodes.mp hmem
    simp [(hown.cpu phy hphy core hcore cpu hcpu).1]
  exact ⟨hids ▸ hseparate.once, fun cpu hmem => hnrcpus ▸ hseparate.below cpu (hids ▸ hmem)⟩

theorem setup_ownRecords (hprepared : Prepared datas) (h : Separate datas) :
    ∃ datas', setupTopoStates datas = .ok datas' ∧ OwnRecords datas' := by
  have hwf := hprepared.wf
  have hrange : ∀ cpu ∈ cpuIds datas.topo, 0 ≤ cpu ∧ cpu < datas.nrcpus := by
    intro cpu hcpu
    obtain ⟨info, hhas, rfl⟩ := mem_cpuIds_iff_topoHas.mp hcpu
    exact ⟨hwf.ids info hhas, h.below _ hcpu⟩
  obtain ⟨datas', hsetup, htopo, halloc⟩ :=
    setupTopoStates_spec datas hwf h.once hrange hprepared.cstates
  refine ⟨datas', hsetup, ownRecords_of_mapped ?_⟩
  rw [halloc.nrcpus, htopo]
  exact setPointers_mapped hwf h.once hrange

/-- For any file that a loader accepts, `setup_topo_states` gives every CPU of
the topology its own records exactly when their ids are distinct and below
`nrcpus`. -/
theorem records_established (env : Env) (ops : TraceOps) (text : List Char) (load : Load)
    (hload : loadDatas env text ops = .ok (some load)) :
    (∃ datas, setupTopoStates load.datas = .ok datas ∧ OwnRecords datas) ↔
      Separate load.datas := by
  have hprepared := loadDatas_prepared hload
  constructor
  · intro h
    obtain ⟨datas, hsetup, hown⟩ := h
    exact separate_of_ownRecords hprepared hsetup hown
  · intro h
    exact setup_ownRecords hprepared h

end Own

def pairEnv : Env :=
  { signedChar := true
    cpuInfo := { physicalId := 0, coreId := 0, cpuId := 0 }
    pid := 'A'
    uninit := fun _ _ => { name := [], residency := 0 }
    host := some pairInfos
    info := fun _ _ => noInfo
    strtod := fun _ => 0 }

def pairTopo : CpuTopology :=
  (readSysfsCpuTopo (some pairInfos)).toOption.join.getD allocCpuTopoInfo

def pairLoad (nrcpus : Int) : Load :=
  { datas := loadedDatas .sysfs nrcpus pairTopo pairEnv.info
    input := { buf := ['x', '\n'], file := [] } }

theorem readSysfsCpuTopo_pair : readSysfsCpuTopo pairEnv.host = .ok (some pairTopo) := by
  decide +kernel

theorem loadDatas_two :
    loadDatas pairEnv "# tracer: nop #P:2\nx\n".toList .ftrace = .ok (some (pairLoad 2)) := by
  have hstart : ftraceComments 0 (reads bufsize "# tracer: nop #P:2\nx\n".toList) =
      some (2, (pairLoad 2).input) := by decide +kernel
  have hcheck : checkNrcpus 2 = some 2 := by decide
  simp only [loadDatas, ftraceDatas, sysfsDatas, hstart, hcheck, readSysfsCpuTopo_pair]
  rfl

theorem loadDatas_one :
    loadDatas pairEnv "# tracer: nop #P:1\nx\n".toList .ftrace = .ok (some (pairLoad 1)) := by
  have hstart : ftraceComments 0 (reads bufsize "# tracer: nop #P:1\nx\n".toList) =
      some (1, (pairLoad 1).input) := by decide +kernel
  have hcheck : checkNrcpus 1 = some 1 := by decide
  simp only [loadDatas, ftraceDatas, sysfsDatas, hstart, hcheck, readSysfsCpuTopo_pair]
  rfl

theorem records_established_pair :
    loadDatas pairEnv "# tracer: nop #P:2\nx\n".toList .ftrace = .ok (some (pairLoad 2)) ∧
      ((∃ datas, setupTopoStates (pairLoad 2).datas = .ok datas ∧ OwnRecords datas) ↔
        Separate (pairLoad 2).datas) :=
  ⟨loadDatas_two, records_established pairEnv .ftrace _ _ loadDatas_two⟩

/-- A trace of one CPU, read on that host: the other CPU of the topology gets no
records. -/
theorem records_missing :
    ∃ load, loadDatas pairEnv "# tracer: nop #P:1\nx\n".toList .ftrace = .ok (some load) ∧
      ¬ ∃ datas, setupTopoStates load.datas = .ok datas ∧ OwnRecords datas := by
  refine ⟨pairLoad 1, loadDatas_one, ?_⟩
  intro h
  obtain ⟨datas, hsetup, hown⟩ := h
  have hprepared := loadDatas_prepared loadDatas_one
  have hcpu : 1 ∈ cpuIds (pairLoad 1).datas.topo := by decide +kernel
  exact absurd ((separate_of_ownRecords hprepared hsetup hown).below 1 hcpu) (by decide)

end Idlestat.Theory.LoadedRecords
