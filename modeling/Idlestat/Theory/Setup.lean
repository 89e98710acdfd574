import Idlestat.Model.Loaders
import Idlestat.Theory.CstateRecord
import Idlestat.Theory.Nodes
import Idlestat.Theory.TopologyCanonical

/-! The state in which every run starts. `setup_topo_states` succeeds on any
tree of distinct CPUs below `nrcpus`, sets every pointer of the tree, and leaves
every record fresh. -/
namespace Idlestat.Theory.Setup

open Idlestat.Library Idlestat.Model.Topology Idlestat.Model.Cstates Idlestat.Model.Pstates
  Idlestat.Model.Recorder Idlestat.Model.Loaders Idlestat.Theory.TopologyTree
  Idlestat.Theory.TopologyLookup Idlestat.Theory.TopologyCanonical Idlestat.Theory.CstateRecord
  Idlestat.Theory.Nodes

/-! ## Rewriting the CPU nodes of a tree -/

def mapCore (f : CpuCpu → CpuCpu) (core : CpuCore) : CpuCore :=
  { core with cpuHead := core.cpuHead.map f }

def mapCluster (f : CpuCpu → CpuCpu) (phy : CpuPhysical) : CpuPhysical :=
  { phy with coreHead := phy.coreHead.map (mapCore f) }

def mapTopo (f : CpuCpu → CpuCpu) (topo : CpuTopology) : CpuTopology :=
  { topo with physicalHead := topo.physicalHead.map (mapCluster f) }

def mapAt (i : Int) (cpu : CpuCpu) : CpuCpu :=
  if cpu.cpuId = i then mapCpuNode i cpu else cpu

def mapBelow (n : Int) (cpu : CpuCpu) : CpuCpu :=
  if cpu.cpuId < n then mapCpuNode cpu.cpuId cpu else cpu

@[simp] theorem cpuId_mapCpuNode (i : Int) (cpu : CpuCpu) :
    (mapCpuNode i cpu).cpuId = cpu.cpuId := rfl

@[simp] theorem cpuId_mapBelow (n : Int) (cpu : CpuCpu) :
    (mapBelow n cpu).cpuId = cpu.cpuId := by
  unfold mapBelow
  split <;> rfl

section MapTopo

variable {f : CpuCpu → CpuCpu} {topo : CpuTopology}

theorem coreIds_mapCore (hf : ∀ cpu, (f cpu).cpuId = cpu.cpuId) (core : CpuCore) :
    coreIds (mapCore f core) = coreIds core := by
  simp [coreIds, mapCore, Function.comp_def, hf]

theorem clusterIds_mapCluster (hf : ∀ cpu, (f cpu).cpuId = cpu.cpuId) (phy : CpuPhysical) :
    clusterIds (mapCluster f phy) = clusterIds phy := by
  simp [clusterIds, mapCluster, List.flatMap_map, coreIds_mapCore hf]

theorem cpuIds_mapTopo (hf : ∀ cpu, (f cpu).cpuId = cpu.cpuId) :
    cpuIds (mapTopo f topo) = cpuIds topo := by
  simp [cpuIds, mapTopo, List.flatMap_map, clusterIds_mapCluster hf]

theorem mapTopo_congr {f g : CpuCpu → CpuCpu}
    (h : ∀ phy ∈ topo.physicalHead, ∀ core ∈ phy.coreHead, ∀ cpu ∈ core.cpuHead,
      f cpu = g cpu) : mapTopo f topo = mapTopo g topo := by
  have hphys : topo.physicalHead.map (mapCluster f) = topo.physicalHead.map (mapCluster g) := by
    apply List.map_congr_left
    intro phy hphy
    have hcores : phy.coreHead.map (mapCore f) = phy.coreHead.map (mapCore g) := by
      apply List.map_congr_left
      intro core hcore
      simp only [mapCore, List.map_congr_left (h phy hphy core hcore)]
    simp only [mapCluster, hcores]
  simp only [mapTopo, hphys]

theorem mapTopo_mapTopo (f g : CpuCpu → CpuCpu) :
    mapTopo f (mapTopo g topo) = mapTopo (f ∘ g) topo := by
  simp [mapTopo, mapCluster, mapCore, Function.comp_def]

private theorem modifyFirst_eq_map_of {α : Type} {ids : α → List Int} {p : α → Bool}
    {f g : α → α} {l : List α} (i : Int) (hp : ∀ x, p x = true ↔ i ∈ ids x)
    (hunique : (l.flatMap ids).Nodup) (hf : ∀ x ∈ l, f x = g x)
    (hg : ∀ x ∈ l, i ∉ ids x → g x = x) : SortedKeys.modifyFirst p f l = l.map g := by
  have hone : l.Pairwise fun a b => ¬ (p a = true ∧ p b = true) := by
    refine (List.nodup_flatMap.mp hunique).2.imp fun {a b} hdisjoint => ?_
    rw [hp, hp]
    intro hboth
    exact hdisjoint hboth.1 hboth.2
  rw [SortedKeys.modifyFirst_eq_map f hone]
  apply List.map_congr_left
  intro x hx
  cases hpx : p x with
  | true => exact hf x hx
  | false =>
    have hnot : i ∉ ids x := by simp [← hp, hpx]
    exact (hg x hx hnot).symm

theorem mapCore_of_not_mem {core : CpuCore} {i : Int} (hi : i ∉ coreIds core) :
    mapCore (mapAt i) core = core := by
  have hsame : core.cpuHead.map (mapAt i) = core.cpuHead.map id := by
    apply List.map_congr_left
    intro cpu hcpu
    have hne : cpu.cpuId ≠ i := fun heq => hi (heq ▸ List.mem_map_of_mem hcpu)
    simp [mapAt, hne]
  simp [mapCore, hsame]

theorem mapCluster_of_not_mem {phy : CpuPhysical} {i : Int} (hi : i ∉ clusterIds phy) :
    mapCluster (mapAt i) phy = phy := by
  have hsame : phy.coreHead.map (mapCore (mapAt i)) = phy.coreHead.map id := by
    apply List.map_congr_left
    intro core hcore
    exact mapCore_of_not_mem fun hmem => hi (List.mem_flatMap.mpr ⟨core, hcore, hmem⟩)
  simp [mapCluster, hsame]

theorem mapCpuInCore_eq {core : CpuCore} (hunique : (coreIds core).Nodup) (i : Int) :
    mapCpuInCore i core = mapCore (mapAt i) core := by
  have hcpus : SortedKeys.modifyFirst (fun cpu => cpu.cpuId = i) (mapCpuNode i) core.cpuHead =
      core.cpuHead.map fun cpu => if cpu.cpuId = i then mapCpuNode i cpu else cpu := by
    rw [SortedKeys.modifyFirst_eq_map]
    · simp
    · refine (List.pairwise_map.mp hunique).imp fun {a b} hne => ?_
      simp only [decide_eq_true_eq]
      intro hboth
      exact hne (hboth.1.trans hboth.2.symm)
  simp only [mapCpuInCore, hcpus]
  rfl

theorem mapCpuInCluster_eq {phy : CpuPhysical} (hunique : (clusterIds phy).Nodup) (i : Int) :
    mapCpuInCluster i phy = mapCluster (mapAt i) phy := by
  have hcores : SortedKeys.modifyFirst (coreContains i) (mapCpuInCore i) phy.coreHead =
      phy.coreHead.map (mapCore (mapAt i)) := by
    apply modifyFirst_eq_map_of i (fun core => coreContains_iff.trans mem_coreIds.symm) hunique
    · intro core hcore
      exact mapCpuInCore_eq ((List.nodup_flatMap.mp hunique).1 core hcore) i
    · intro core _
      exact mapCore_of_not_mem
  simp only [mapCpuInCluster, hcores, mapCluster]

theorem mapCpuPoint_eq (hunique : (cpuIds topo).Nodup) (i : Int) :
    mapCpuPoint i topo = mapTopo (mapAt i) topo := by
  have hphys : SortedKeys.modifyFirst (fun phy => phy.coreHead.any (coreContains i))
      (mapCpuInCluster i) topo.physicalHead = topo.physicalHead.map (mapCluster (mapAt i)) := by
    refine modifyFirst_eq_map_of i (fun phy => ?_) hunique ?_ ?_
    · simp only [List.any_eq_true, coreContains_iff, mem_clusterIds]
      rfl
    · intro phy hphy
      exact mapCpuInCluster_eq ((List.nodup_flatMap.mp hunique).1 phy hphy) i
    · intro phy _
      exact mapCluster_of_not_mem
  simp only [mapCpuPoint, hphys, mapTopo]

end MapTopo

section Mapping

variable {nrcpus : Nat} {topo : CpuTopology}

/-- The flags of a tree say which CPU numbers it holds. -/
def OnlineExact (topo : CpuTopology) : Prop :=
  ∀ i : Int, 0 ≤ i → ∃ online, cpuIsOnline topo i = .ok online ∧
    (online = true ↔ i ∈ cpuIds topo)

theorem mem_cpuIds_iff_topoHas {cpu : Int} :
    cpu ∈ cpuIds topo ↔ ∃ info, TopoHas topo info ∧ info.cpuId = cpu := by
  rw [mem_cpuIds]
  simp only [mem_clusterIds, ClusterHas, TopoHas, PhyHas]
  constructor
  · rintro ⟨phy, hphy, core, hcore, hcpu⟩
    exact ⟨⟨phy.physicalId, core.coreId, cpu⟩, ⟨phy, hphy, rfl, core, hcore, rfl, hcpu⟩, rfl⟩
  · rintro ⟨info, ⟨phy, hphy, -, core, hcore, -, hcpu⟩, rfl⟩
    exact ⟨phy, hphy, core, hcore, hcpu⟩

theorem onlineExact_of_wf (h : TopoWf topo) : OnlineExact topo := fun i hi => by
  simpa only [mem_cpuIds_iff_topoHas] using cpuIsOnline_spec h.online hi

theorem cpuId_mem_cpuIds {phy : CpuPhysical} (hphy : phy ∈ topo.physicalHead) {core : CpuCore}
    (hcore : core ∈ phy.coreHead) {cpu : CpuCpu} (hcpu : cpu ∈ core.cpuHead) :
    cpu.cpuId ∈ cpuIds topo :=
  mem_cpuIds.mpr ⟨phy, hphy, List.mem_flatMap.mpr ⟨core, hcore, List.mem_map_of_mem hcpu⟩⟩

@[simp] theorem mapTopo_id : mapTopo id topo = topo := by
  have hcore : mapCore id = id := by
    funext core
    simp [mapCore]
  have hcluster : mapCluster id = id := by
    funext phy
    simp [mapCluster, hcore]
  simp [mapTopo, hcluster]

theorem mapAt_mapBelow (n : Int) (cpu : CpuCpu) :
    mapAt n (mapBelow n cpu) = mapBelow (n + 1) cpu := by
  rcases lt_trichotomy cpu.cpuId n with hlt | heq | hgt
  · have hne : cpu.cpuId ≠ n := hlt.ne
    have hlt' : cpu.cpuId < n + 1 := by omega
    simp [mapAt, mapBelow, hlt, hlt', hne]
  · simp [mapAt, mapBelow, heq]
  · have hne : cpu.cpuId ≠ n := hgt.ne'
    have hnot : ¬ cpu.cpuId < n := by omega
    have hnot' : ¬ cpu.cpuId < n + 1 := by omega
    simp [mapAt, mapBelow, hnot, hnot', hne]

theorem mapBelow_succ_of_ne {n : Int} {cpu : CpuCpu} (hne : cpu.cpuId ≠ n) :
    mapBelow (n + 1) cpu = mapBelow n cpu := by
  rw [← mapAt_mapBelow]
  simp [mapAt, hne]

theorem mapCpuStates_eq (hunique : (cpuIds topo).Nodup) (honline : OnlineExact topo)
    (hnonneg : ∀ cpu ∈ cpuIds topo, 0 ≤ cpu) (n : Nat) :
    mapCpuStates topo n = .ok (mapTopo (mapBelow n) topo) := by
  unfold mapCpuStates
  induction n with
  | zero =>
    have hnone : mapTopo (mapBelow (0 : Nat)) topo = mapTopo id topo := by
      apply mapTopo_congr
      intro phy hphy core hcore cpu hcpu
      have hnot : ¬ cpu.cpuId < 0 := not_lt.mpr (hnonneg _ (cpuId_mem_cpuIds hphy hcore hcpu))
      simp [mapBelow, hnot]
    rw [hnone, mapTopo_id]
    rfl
  | succ n ih =>
    have hids : cpuIds (mapTopo (mapBelow n) topo) = cpuIds topo :=
      cpuIds_mapTopo (cpuId_mapBelow n)
    obtain ⟨online, hcall, hiff⟩ := honline n (by omega)
    have hcall' : cpuIsOnline (mapTopo (mapBelow n) topo) n = .ok online := hcall
    rw [List.range_succ, List.foldlM_append, ih]
    simp only [bind, Except.bind, List.foldlM_cons, List.foldlM_nil, hcall', pure, Except.pure]
    congr 1
    cases online with
    | true =>
      rw [if_pos rfl, mapCpuPoint_eq (hids ▸ hunique), mapTopo_mapTopo]
      apply mapTopo_congr
      intro phy _ core _ cpu _
      simpa using mapAt_mapBelow n cpu
    | false =>
      rw [if_neg Bool.false_ne_true]
      apply mapTopo_congr
      intro phy hphy core hcore cpu hcpu
      have hne : cpu.cpuId ≠ n := by
        intro heq
        have hmem := cpuId_mem_cpuIds hphy hcore hcpu
        rw [heq, ← hiff] at hmem
        cases hmem
      simpa using (mapBelow_succ_of_ne hne).symm

end Mapping

/-! ## The group records -/

/-- A record in which nothing has happened yet. -/
structure Fresh (r : CpuidleCstates) : Prop where
  current : r.currentCstate = -1
  cstateMax : r.cstateMax = -1
  duration : ∀ i, (r.cstate i).duration = 0
  nrdata : ∀ i, (r.cstate i).nrdata = 0
  wakeinfo : r.wakeinfo = []
  ok : ∃ top, RecordOk top r

theorem emptyCstates_fresh : Fresh emptyCstates where
  current := rfl
  cstateMax := rfl
  duration := fun _ => rfl
  nrdata := fun _ => rfl
  wakeinfo := rfl
  ok := ⟨_, emptyCstates_ok⟩

theorem buildCstateInfo_fresh (info : Fin maxcstate → CstateInfo) :
    Fresh (buildCstateInfo info) where
  current := rfl
  cstateMax := rfl
  duration := fun _ => rfl
  nrdata := fun _ => rfl
  wakeinfo := rfl
  ok := ⟨_, buildCstateInfo_ok info⟩

theorem cpuRecord_fresh (loader : Loader) (topo : CpuTopology)
    (info : Int → Fin maxcstate → CstateInfo) (cpu : Int) :
    Fresh (cpuRecord loader topo info cpu) := by
  cases loader with
  | native =>
    simp only [cpuRecord]
    cases (cpuIsOnline topo cpu).toOption.getD false with
    | true => exact buildCstateInfo_fresh _
    | false => exact emptyCstates_fresh
  | sysfs => exact buildCstateInfo_fresh _

private theorem createStates_cstate (source : Fin maxcstate → CpuidleCstate)
    (i : Fin maxcstate) :
    ((createStates source).cstate i).duration = 0 ∧ ((createStates source).cstate i).nrdata = 0 ∧
      CstateOk (((createStates source).cstate i).minTime) ((createStates source).cstate i) := by
  unfold createStates
  cases hname : (source i).name with
  | none =>
    simp only [hname]
    exact ⟨rfl, rfl, callocCstate_ok⟩
  | some name =>
    simp only [hname]
    exact ⟨rfl, rfl, {
      slots := le_refl 0
      intervals := by simp [callocCstate]
      summary := rfl
      wakings := le_refl 0 }⟩

theorem createStates_fresh (source : Fin maxcstate → CpuidleCstate) :
    Fresh (createStates source) where
  current := rfl
  cstateMax := rfl
  duration := fun i => (createStates_cstate source i).1
  nrdata := fun i => (createStates_cstate source i).2.1
  wakeinfo := rfl
  ok := ⟨fun i => ((createStates source).cstate i).minTime, {
    cstate := fun i => (createStates_cstate source i).2.2
    current := ⟨le_refl _, le_refl _⟩
    cstateMax := show (-1 : Int) < maxcstate by decide
    slot := fun i hi => by
      simp only [createStates, emptyCstates] at hi
      omega }⟩

/-! ## The allocation of the group records -/

def setCorePointer (physicalId : Int) (core : CpuCore) : CpuCore :=
  { core with cstates := some (.core physicalId core.coreId) }

def setClusterPointers (phy : CpuPhysical) : CpuPhysical :=
  { phy with
    coreHead := phy.coreHead.map (setCorePointer phy.physicalId)
    cstates := some (.cluster phy.physicalId) }

def setPointers (nrcpus : Int) (topo : CpuTopology) : CpuTopology :=
  { mapTopo (mapBelow nrcpus) topo with
    physicalHead := (mapTopo (mapBelow nrcpus) topo).physicalHead.map setClusterPointers }

structure Allocated (datas datas' : CpuidleDatas) : Prop where
  nrcpus : datas'.nrcpus = datas.nrcpus
  pstates : datas'.pstates = datas.pstates
  fresh : ∀ ref, Fresh (datas'.cstates ref)

section Allocation

theorem update_all {α : Type} (P : α → Prop) {table : RecordRef → α} (ref : RecordRef) {new : α}
    (h : ∀ ref, P (table ref)) (hnew : P new) (ref' : RecordRef) :
    P (Function.update table ref new ref') := by
  apply (Function.forall_update_iff table fun _ => P).mpr
  exact ⟨hnew, fun other _ => h other⟩

theorem fresh_setCstates {datas : CpuidleDatas} (h : ∀ ref, Fresh (datas.cstates ref))
    (ref : RecordRef) {r : CpuidleCstates} (hr : Fresh r) (ref' : RecordRef) :
    Fresh ((datas.setCstates ref r).cstates ref') :=
  update_all Fresh ref h hr ref'

theorem createCoreStates_fresh (datas : CpuidleDatas) {core : CpuCore} (hne : core.cpuHead ≠ [])
    (hcpu : ∀ cpu ∈ core.cpuHead, cpu.cstates.isSome) :
    ∃ r, createCoreStates datas core = .ok r ∧ Fresh r := by
  obtain ⟨cpu, rest, hhead⟩ := List.exists_cons_of_ne_nil hne
  obtain ⟨ref, href⟩ := Option.isSome_iff_exists.mp (hcpu cpu (by simp [hhead]))
  refine ⟨_, ?_, createStates_fresh (datas.cstates ref).cstate⟩
  simp only [createCoreStates, hhead, href]
  rfl

theorem createClusterStates_fresh (datas : CpuidleDatas) {phy : CpuPhysical}
    (hne : phy.coreHead ≠ []) (hcore : ∀ core ∈ phy.coreHead, core.cstates.isSome) :
    ∃ r, createClusterStates datas phy = .ok r ∧ Fresh r := by
  obtain ⟨core, rest, hhead⟩ := List.exists_cons_of_ne_nil hne
  obtain ⟨ref, href⟩ := Option.isSome_iff_exists.mp (hcore core (by simp [hhead]))
  refine ⟨_, ?_, createStates_fresh (datas.cstates ref).cstate⟩
  simp only [createClusterStates, hhead, href]
  rfl

theorem setupCores_spec (datas : CpuidleDatas) (physicalId : Int) {cores : List CpuCore}
    (hfresh : ∀ ref, Fresh (datas.cstates ref)) (hne : ∀ core ∈ cores, core.cpuHead ≠ [])
    (hcpu : ∀ core ∈ cores, ∀ cpu ∈ core.cpuHead, cpu.cstates.isSome) :
    ∃ datas', setupCores physicalId datas cores =
        .ok (datas', cores.map (setCorePointer physicalId)) ∧ Allocated datas datas' := by
  induction cores generalizing datas with
  | nil => exact ⟨datas, rfl, rfl, rfl, hfresh⟩
  | cons core rest ih =>
    obtain ⟨r, hcreate, hr⟩ := createCoreStates_fresh datas (hne core (by simp))
      (hcpu core (by simp))
    obtain ⟨datas', hrest, halloc⟩ := ih
      (datas.setCstates (.core physicalId core.coreId) r) (fresh_setCstates hfresh _ hr)
      (fun c hc => hne c (by simp [hc])) (fun c hc => hcpu c (by simp [hc]))
    refine ⟨datas', ?_, halloc.nrcpus, halloc.pstates, halloc.fresh⟩
    simp only [setupCores, hcreate, hrest, bind, Except.bind, List.map_cons]
    rfl

theorem setupClusters_spec (datas : CpuidleDatas) {phys : List CpuPhysical}
    (hfresh : ∀ ref, Fresh (datas.cstates ref))
    (hphy : ∀ phy ∈ phys, phy.coreHead ≠ [])
    (hne : ∀ phy ∈ phys, ∀ core ∈ phy.coreHead, core.cpuHead ≠ [])
    (hcpu : ∀ phy ∈ phys, ∀ core ∈ phy.coreHead, ∀ cpu ∈ core.cpuHead, cpu.cstates.isSome) :
    ∃ datas', setupClusters datas phys = .ok (datas', phys.map setClusterPointers) ∧
      Allocated datas datas' := by
  induction phys generalizing datas with
  | nil => exact ⟨datas, rfl, rfl, rfl, hfresh⟩
  | cons phy rest ih =>
    obtain ⟨datas₁, hcores, halloc₁⟩ := setupCores_spec datas phy.physicalId hfresh
      (hne phy (by simp)) (hcpu phy (by simp))
    have hset : ∀ core ∈ phy.coreHead.map (setCorePointer phy.physicalId),
        core.cstates.isSome := by
      intro core hcore
      obtain ⟨core', -, rfl⟩ := List.mem_map.mp hcore
      rfl
    obtain ⟨r, hcreate, hr⟩ : ∃ r, createClusterStates datas₁
        { phy with coreHead := phy.coreHead.map (setCorePointer phy.physicalId) } = .ok r ∧
          Fresh r :=
      createClusterStates_fresh datas₁ (by simpa using hphy phy (by simp)) hset
    obtain ⟨datas₂, hrest, halloc₂⟩ := ih (datas₁.setCstates (.cluster phy.physicalId) r)
      (fresh_setCstates halloc₁.fresh _ hr) (fun p hp => hphy p (by simp [hp]))
      (fun p hp => hne p (by simp [hp])) (fun p hp => hcpu p (by simp [hp]))
    refine ⟨datas₂, ?_, halloc₂.nrcpus.trans halloc₁.nrcpus,
      halloc₂.pstates.trans halloc₁.pstates, halloc₂.fresh⟩
    simp only [setupClusters, hcores, hcreate, hrest, bind, Except.bind, List.map_cons]
    rfl

end Allocation

/-! ## `setup_topo_states` -/

/-- A state in which no event has been processed. -/
structure Started (datas : CpuidleDatas) : Prop where
  mapped : Mapped datas.nrcpus datas.topo
  cstates : ∀ ref, Fresh (datas.cstates ref)
  pstates : ∀ ref, datas.pstates ref = buildPstateInfo

/-- The CPUs of a machine: each once, numbered below `nrcpus`. -/
structure Machine (nrcpus : Int) (infos : List TopologyInfo) : Prop where
  nonNegative : ∀ info ∈ infos, NonNegative info
  below : ∀ info ∈ infos, info.cpuId < nrcpus
  once : ∀ info ∈ infos, ∀ info' ∈ infos, info.cpuId = info'.cpuId → info = info'

def freshDatas (loader : Loader) (nrcpus : Int) (info : Int → Fin maxcstate → CstateInfo)
    (infos : List TopologyInfo) : Except Fault CpuidleDatas := do
  let topo ← addTopoInfos infos
  setupTopoStates (loadedDatas loader nrcpus topo info)

/-- The states events start from, for any machine, either loader and any table
of C-state names and residencies. -/
def Loaded (start : CpuidleDatas) : Prop :=
  ∃ infos loader info, Machine start.nrcpus infos ∧
    freshDatas loader start.nrcpus info infos = .ok start

section Start

variable {nrcpus : Int} {infos : List TopologyInfo} {topo : CpuTopology}

theorem Machine.unique (h : Machine nrcpus infos) (hwf : TopoWf topo)
    (hhas : ∀ info, TopoHas topo info ↔ info ∈ infos) : (cpuIds topo).Nodup := by
  have hids : cpuIds topo = (triples topo).map TopologyInfo.cpuId := by
    simp only [cpuIds, triples, links, List.map_flatMap, List.map_map]
    rfl
  rw [hids]
  apply List.Nodup.map_on _ (triples_nodup (TopoWf.shape hwf))
  intro x hx y hy hxy
  exact h.once x ((hhas x).mp (mem_triples.mp hx)) y ((hhas y).mp (mem_triples.mp hy)) hxy

theorem Machine.range (h : Machine nrcpus infos)
    (hhas : ∀ info, TopoHas topo info ↔ info ∈ infos) :
    ∀ cpu ∈ cpuIds topo, 0 ≤ cpu ∧ cpu < nrcpus := by
  intro cpu hcpu
  obtain ⟨info, hinfo, rfl⟩ := mem_cpuIds_iff_topoHas.mp hcpu
  have hmem := (hhas info).mp hinfo
  exact ⟨(h.nonNegative info hmem).2.2, h.below info hmem⟩

private def finalCluster (nrcpus : Int) (phy : CpuPhysical) : CpuPhysical :=
  setClusterPointers (mapCluster (mapBelow nrcpus) phy)

private def finalCore (nrcpus physicalId : Int) (core : CpuCore) : CpuCore :=
  setCorePointer physicalId (mapCore (mapBelow nrcpus) core)

private theorem finalCluster_coreHead (phy : CpuPhysical) :
    (finalCluster nrcpus phy).coreHead =
      phy.coreHead.map (finalCore nrcpus phy.physicalId) := by
  simp only [finalCluster, setClusterPointers, mapCluster, List.map_map]
  rfl

private theorem setPointers_physicalHead :
    (setPointers nrcpus topo).physicalHead = topo.physicalHead.map (finalCluster nrcpus) := by
  simp only [setPointers, mapTopo, List.map_map]
  rfl

private theorem forall_cluster {P : CpuPhysical → Prop} :
    (∀ phy ∈ (setPointers nrcpus topo).physicalHead, P phy) ↔
      ∀ phy ∈ topo.physicalHead, P (finalCluster nrcpus phy) := by
  simp only [setPointers_physicalHead, List.forall_mem_map]

private theorem forall_core {phy : CpuPhysical} {P : CpuCore → Prop} :
    (∀ core ∈ (finalCluster nrcpus phy).coreHead, P core) ↔
      ∀ core ∈ phy.coreHead, P (finalCore nrcpus phy.physicalId core) := by
  simp only [finalCluster_coreHead, List.forall_mem_map]

private theorem coreIds_finalCore (physicalId : Int) (core : CpuCore) :
    coreIds (finalCore nrcpus physicalId core) = coreIds core :=
  coreIds_mapCore (cpuId_mapBelow nrcpus) core

private theorem clusterIds_finalCluster (phy : CpuPhysical) :
    clusterIds (finalCluster nrcpus phy) = clusterIds phy := by
  simp only [clusterIds, finalCluster_coreHead, List.flatMap_map, coreIds_finalCore]

private theorem links_eq (phy : CpuPhysical) :
    links phy = phy.coreHead.flatMap fun core => (coreIds core).map (CpuRef.mk core.coreId) := by
  simp only [links, coreIds, List.map_map]
  rfl

private theorem links_finalCluster (phy : CpuPhysical) :
    links (finalCluster nrcpus phy) = links phy := by
  simp only [links_eq, finalCluster_coreHead, List.flatMap_map, coreIds_finalCore]
  rfl

theorem cpuIds_setPointers : cpuIds (setPointers nrcpus topo) = cpuIds topo := by
  simp only [cpuIds, setPointers_physicalHead, List.flatMap_map, clusterIds_finalCluster]

theorem setPointers_shape (h : TopoShape topo) : TopoShape (setPointers nrcpus topo) where
  clusters := by
    rw [setPointers_physicalHead, List.map_map]
    exact h.clusters
  cores := by
    refine forall_cluster.mpr fun phy hphy => ?_
    rw [finalCluster_coreHead, List.map_map]
    exact h.cores phy hphy
  cpus := by
    refine forall_cluster.mpr fun phy hphy => forall_core.mpr fun core hcore => ?_
    change (coreIds (finalCore nrcpus phy.physicalId core)).Nodup
    rw [coreIds_finalCore]
    exact h.cpus phy hphy core hcore
  enum := by
    refine forall_cluster.mpr fun phy hphy => ?_
    rw [links_finalCluster]
    exact h.enum phy hphy
  coresInhabited := by
    refine forall_cluster.mpr fun phy hphy => forall_core.mpr fun core hcore => ?_
    simpa [finalCore, setCorePointer, mapCore] using h.coresInhabited phy hphy core hcore
  clustersInhabited := by
    refine forall_cluster.mpr fun phy hphy => ?_
    simpa [finalCluster_coreHead] using h.clustersInhabited phy hphy

theorem setPointers_mapped (hwf : TopoWf topo) (hunique : (cpuIds topo).Nodup)
    (hrange : ∀ cpu ∈ cpuIds topo, 0 ≤ cpu ∧ cpu < nrcpus) :
    Mapped nrcpus (setPointers nrcpus topo) where
  shape := setPointers_shape (TopoWf.shape hwf)
  unique := cpuIds_setPointers.symm ▸ hunique
  range := cpuIds_setPointers.symm ▸ hrange
  cpu := by
    refine forall_cluster.mpr fun phy hphy => forall_core.mpr fun core hcore => ?_
    refine List.forall_mem_map.mpr fun cpu hcpu => ?_
    have hbelow := (hrange _ (cpuId_mem_cpuIds hphy hcore hcpu)).2
    simp [mapBelow, hbelow, mapCpuNode]
  core := by
    refine forall_cluster.mpr fun phy hphy => forall_core.mpr fun core hcore => ?_
    exact ⟨rfl, ((hwf.phy phy hphy).core core hcore).pstates⟩
  cluster := by
    refine forall_cluster.mpr fun phy hphy => ?_
    exact ⟨rfl, (hwf.phy phy hphy).pstates⟩

private theorem mapTopo_ready (hwf : TopoWf topo)
    (hrange : ∀ cpu ∈ cpuIds topo, 0 ≤ cpu ∧ cpu < nrcpus) :
    (∀ phy ∈ (mapTopo (mapBelow nrcpus) topo).physicalHead, phy.coreHead ≠ []) ∧
    (∀ phy ∈ (mapTopo (mapBelow nrcpus) topo).physicalHead, ∀ core ∈ phy.coreHead,
      core.cpuHead ≠ []) ∧
    ∀ phy ∈ (mapTopo (mapBelow nrcpus) topo).physicalHead, ∀ core ∈ phy.coreHead,
      ∀ cpu ∈ core.cpuHead, cpu.cstates.isSome := by
  simp only [mapTopo, mapCluster, mapCore, List.forall_mem_map, ne_eq, List.map_eq_nil_iff]
  refine ⟨hwf.inhabited, fun phy hphy => (hwf.phy phy hphy).inhabited, ?_⟩
  intro phy hphy core hcore cpu hcpu
  have hbelow := (hrange _ (cpuId_mem_cpuIds hphy hcore hcpu)).2
  simp [mapBelow, hbelow, mapCpuNode]

/-- On a tree of distinct CPUs below `nrcpus` the mapping loop reaches them all. -/
theorem mapCpuStates_below (hwf : TopoWf topo) (hunique : (cpuIds topo).Nodup)
    (hrange : ∀ cpu ∈ cpuIds topo, 0 ≤ cpu ∧ cpu < nrcpus) :
    mapCpuStates topo nrcpus.toNat = .ok (mapTopo (mapBelow nrcpus) topo) := by
  rw [mapCpuStates_eq hunique (onlineExact_of_wf hwf) fun cpu hcpu => (hrange cpu hcpu).1]
  congr 1
  apply mapTopo_congr
  intro phy hphy core hcore cpu hcpu
  have hid := hrange _ (cpuId_mem_cpuIds hphy hcore hcpu)
  have htoNat : cpu.cpuId < nrcpus.toNat ↔ cpu.cpuId < nrcpus := by omega
  simp only [mapBelow, htoNat]

theorem setupTopoStates_spec (datas : CpuidleDatas) (hwf : TopoWf datas.topo)
    (hunique : (cpuIds datas.topo).Nodup)
    (hrange : ∀ cpu ∈ cpuIds datas.topo, 0 ≤ cpu ∧ cpu < datas.nrcpus)
    (hfresh : ∀ ref, Fresh (datas.cstates ref)) :
    ∃ datas', setupTopoStates datas = .ok datas' ∧
      datas'.topo = setPointers datas.nrcpus datas.topo ∧ Allocated datas datas' := by
  have hmapped : mapCpuStates datas.topo datas.nrcpus.toNat =
      .ok (mapTopo (mapBelow datas.nrcpus) datas.topo) := mapCpuStates_below hwf hunique hrange
  obtain ⟨hcores, hcpus, hpointers⟩ := mapTopo_ready hwf hrange
  obtain ⟨datas', hclusters, halloc⟩ : ∃ datas', setupClusters
      { datas with topo := mapTopo (mapBelow datas.nrcpus) datas.topo }
      (mapTopo (mapBelow datas.nrcpus) datas.topo).physicalHead = .ok (datas', _) ∧
        Allocated _ datas' :=
    setupClusters_spec _ hfresh hcores hcpus hpointers
  refine ⟨{ datas' with topo := setPointers datas.nrcpus datas.topo }, ?_, rfl,
    halloc.nrcpus, halloc.pstates, halloc.fresh⟩
  simp only [setupTopoStates, hmapped, hclusters, bind, Except.bind]
  rfl

theorem freshDatas_spec (loader : Loader) (info : Int → Fin maxcstate → CstateInfo)
    (h : Machine nrcpus infos) :
    ∃ start, freshDatas loader nrcpus info infos = .ok start ∧ start.nrcpus = nrcpus ∧
      Started start ∧ ∀ cpu, cpu ∈ cpuIds start.topo ↔ ∃ info ∈ infos, info.cpuId = cpu := by
  obtain ⟨topo', hbuilt, hwf, hhas⟩ := addTopoInfos_spec h.nonNegative
  have hunique := h.unique hwf hhas
  have hrange := h.range hhas
  have hfresh : ∀ ref, Fresh ((loadedDatas loader nrcpus topo' info).cstates ref) := by
    intro ref
    cases ref with
    | percpu cpu => exact cpuRecord_fresh loader topo' info cpu
    | core physicalId coreId => exact emptyCstates_fresh
    | cluster physicalId => exact emptyCstates_fresh
  obtain ⟨start, hsetup, htopo, halloc⟩ :=
    setupTopoStates_spec (loadedDatas loader nrcpus topo' info) hwf hunique hrange hfresh
  have hnrcpus : start.nrcpus = nrcpus := halloc.nrcpus
  refine ⟨start, ?_, hnrcpus, ?_, fun cpu => ?_⟩
  · simp only [freshDatas, hbuilt, bind, Except.bind]
    exact hsetup
  · exact {
      mapped := by
        rw [hnrcpus, htopo]
        exact setPointers_mapped hwf hunique hrange
      cstates := halloc.fresh
      pstates := fun ref => congrFun halloc.pstates ref }
  · rw [htopo, cpuIds_setPointers, mem_cpuIds_iff_topoHas]
    simp only [loadedDatas, hhas]

theorem Loaded.started {start : CpuidleDatas} (h : Loaded start) : Started start := by
  obtain ⟨infos, loader, info, hmachine, hfresh⟩ := h
  obtain ⟨start', hfresh', -, hstarted, -⟩ := freshDatas_spec loader info hmachine
  obtain rfl : start' = start := Except.ok.inj (hfresh'.symm.trans hfresh)
  exact hstarted

theorem exists_loaded (loader : Loader) (info : Int → Fin maxcstate → CstateInfo)
    (h : Machine nrcpus infos) :
    ∃ start, freshDatas loader nrcpus info infos = .ok start ∧ Loaded start ∧
      ∀ cpu, cpu ∈ cpuIds start.topo ↔ ∃ info ∈ infos, info.cpuId = cpu := by
  obtain ⟨start, hfresh, rfl, -, hids⟩ := freshDatas_spec loader info h
  exact ⟨start, hfresh, ⟨infos, loader, info, h, hfresh⟩, hids⟩

def machineDatas (loader : Loader) (nrcpus : Int) (info : Int → Fin maxcstate → CstateInfo)
    (infos : List TopologyInfo) : CpuidleDatas :=
  (freshDatas loader nrcpus info infos).toOption.getD
    (loadedDatas loader nrcpus allocCpuTopoInfo info)

theorem machineDatas_loaded (loader : Loader) (info : Int → Fin maxcstate → CstateInfo)
    (h : Machine nrcpus infos) : Loaded (machineDatas loader nrcpus info infos) := by
  obtain ⟨start, hfresh, hloaded, -⟩ := exists_loaded loader info h
  have hstart : machineDatas loader nrcpus info infos = start := by
    simp [machineDatas, hfresh, Except.toOption]
  rwa [hstart]

end Start

def pairInfos : List TopologyInfo :=
  [{ physicalId := 0, coreId := 0, cpuId := 0 }, { physicalId := 0, coreId := 0, cpuId := 1 }]

def pairDatas : CpuidleDatas :=
  (freshDatas .sysfs 2 (fun _ _ => { name := none, targetResidency := 0 }) pairInfos).toOption.getD
    (loadedDatas .sysfs 2 allocCpuTopoInfo fun _ _ => { name := none, targetResidency := 0 })

theorem pairInfos_machine : Machine 2 pairInfos where
  nonNegative := by simp [pairInfos, NonNegative]
  below := by simp [pairInfos]
  once := by simp [pairInfos]

theorem pairDatas_loaded : Loaded pairDatas := by
  obtain ⟨start, hfresh, hloaded, -⟩ := exists_loaded .sysfs
    (fun _ _ => { name := none, targetResidency := 0 }) pairInfos_machine
  have hstart : pairDatas = start := by
    simp [pairDatas, hfresh, Except.toOption]
  rwa [hstart]

theorem cpuIds_pairDatas : cpuIds pairDatas.topo = [0, 1] := by
  decide +kernel

end Idlestat.Theory.Setup
