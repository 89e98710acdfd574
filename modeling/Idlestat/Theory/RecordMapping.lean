import Idlestat.Theory.Setup

/-! What `setup_topo_states` leaves on any tree, whatever its CPU ids are. Only
the first node with an id gets the records of that id, and only if the id is
below `nrcpus`. -/
namespace Idlestat.Theory.RecordMapping

open Idlestat.Library Idlestat.Library.SortedKeys Idlestat.Model.Topology
  Idlestat.Model.Recorder Idlestat.Model.Loaders Idlestat.Theory.TopologyTree
  Idlestat.Theory.TopologyLookup Idlestat.Theory.Nodes Idlestat.Theory.Setup

/-! ## The CPU nodes in tree order -/

def cpuNodes (topo : CpuTopology) : List CpuCpu :=
  topo.physicalHead.flatMap fun phy => phy.coreHead.flatMap CpuCore.cpuHead

/-- A node as `add_topo_info` leaves it. -/
def bareCpu (cpu : CpuCpu) : CpuCpu :=
  { cpuId := cpu.cpuId }

section CpuNodes

variable {topo : CpuTopology}

theorem mem_cpuNodes {cpu : CpuCpu} :
    cpu ∈ cpuNodes topo ↔
      ∃ phy ∈ topo.physicalHead, ∃ core ∈ phy.coreHead, cpu ∈ core.cpuHead := by
  simp [cpuNodes]

theorem map_cpuNodes (topo : CpuTopology) :
    (cpuNodes topo).map CpuCpu.cpuId = cpuIds topo := by
  simp only [cpuNodes, cpuIds, List.map_flatMap]
  rfl

theorem cpuNodes_mapCpuPoint (i : Int) (topo : CpuTopology) :
    cpuNodes (mapCpuPoint i topo) =
      modifyFirst (fun cpu => cpu.cpuId = i) (mapCpuNode i) (cpuNodes topo) := by
  have hcore : ∀ core, (mapCpuInCore i core).cpuHead =
      modifyFirst (fun cpu => cpu.cpuId = i) (mapCpuNode i) core.cpuHead := fun _ => rfl
  have hcluster : ∀ phy, (mapCpuInCluster i phy).coreHead.flatMap CpuCore.cpuHead =
      modifyFirst (fun cpu => cpu.cpuId = i) (mapCpuNode i)
        (phy.coreHead.flatMap CpuCore.cpuHead) := fun phy =>
    flatMap_modifyFirst hcore phy.coreHead
  have hcontains : (fun phy : CpuPhysical => phy.coreHead.any (coreContains i)) =
      fun phy => (phy.coreHead.flatMap CpuCore.cpuHead).any fun cpu => cpu.cpuId = i := by
    funext phy
    rw [List.any_flatMap]
    rfl
  unfold cpuNodes mapCpuPoint
  rw [hcontains]
  exact flatMap_modifyFirst hcluster topo.physicalHead

theorem bare_mapCpuPoint (i : Int) (topo : CpuTopology) :
    mapTopo bareCpu (mapCpuPoint i topo) = mapTopo bareCpu topo := by
  have hnode : ∀ cpu, bareCpu (mapCpuNode i cpu) = bareCpu cpu := fun _ => rfl
  have hcore : ∀ core, mapCore bareCpu (mapCpuInCore i core) = mapCore bareCpu core := by
    intro core
    have hcpus : (modifyFirst (fun cpu => decide (cpu.cpuId = i)) (mapCpuNode i)
        core.cpuHead).map bareCpu = core.cpuHead.map bareCpu :=
      map_modifyFirst hnode _ core.cpuHead
    simp only [mapCore, mapCpuInCore, hcpus]
  have hcluster : ∀ phy, mapCluster bareCpu (mapCpuInCluster i phy) = mapCluster bareCpu phy := by
    intro phy
    have hcores := map_modifyFirst hcore (coreContains i) phy.coreHead
    simp only [mapCluster, mapCpuInCluster, hcores]
  have hphys := map_modifyFirst hcluster (fun phy => phy.coreHead.any (coreContains i))
    topo.physicalHead
  simp only [mapTopo, mapCpuPoint, hphys]

theorem bare_of_wf (h : TopoWf topo) : mapTopo bareCpu topo = topo := by
  have hsame : mapTopo bareCpu topo = mapTopo id topo := by
    apply mapTopo_congr
    intro phy hphy core hcore cpu hcpu
    exact (((h.phy phy hphy).core core hcore).fresh cpu hcpu).symm
  rw [hsame, mapTopo_id]

end CpuNodes

/-! ## The mapping loop -/

/-- A node has its own records, or none. -/
def OwnOrNone (cpu : CpuCpu) : Prop :=
  (cpu.cstates = none ∧ cpu.pstates = none) ∨
    (cpu.cstates = some (.percpu cpu.cpuId) ∧ cpu.pstates = some (.percpu cpu.cpuId))

/-- The nodes after `n` rounds: those mapped are below `n` and differ in their ids. -/
structure MappedBelow (n : Int) (nodes : List CpuCpu) : Prop where
  own : ∀ cpu ∈ nodes, OwnOrNone cpu
  below : ∀ cpu ∈ nodes, cpu.cstates.isSome → cpu.cpuId < n
  once : nodes.Pairwise fun a b => a.cstates.isSome → b.cstates.isSome → a.cpuId ≠ b.cpuId

section MapCpuStates

variable {topo : CpuTopology} {nodes : List CpuCpu}

theorem MappedBelow.mono {m n : Int} (h : MappedBelow m nodes) (hmn : m ≤ n) :
    MappedBelow n nodes where
  own := h.own
  below := fun cpu hcpu hsome => lt_of_lt_of_le (h.below cpu hcpu hsome) hmn
  once := h.once

theorem MappedBelow.mapNode {n : Int} (h : MappedBelow n nodes) :
    MappedBelow (n + 1) (modifyFirst (fun cpu => cpu.cpuId = n) (mapCpuNode n) nodes) where
  own := by
    intro cpu hcpu
    cases mem_modifyFirst hcpu with
    | inl hold => exact h.own cpu hold
    | inr hnew =>
      obtain ⟨old, -, hid, rfl⟩ := hnew
      have hid : old.cpuId = n := by simpa using hid
      exact .inr ⟨by simp [mapCpuNode, hid], by simp [mapCpuNode, hid]⟩
  below := by
    intro cpu hcpu hsome
    cases mem_modifyFirst hcpu with
    | inl hold =>
      have hlt := h.below cpu hold hsome
      omega
    | inr hnew =>
      obtain ⟨old, -, hid, rfl⟩ := hnew
      have hid : old.cpuId = n := by simpa using hid
      rw [cpuId_mapCpuNode]
      omega
  once := by
    apply pairwise_modifyFirst h.once
    intro old hold hid cpu hcpu
    have hid : old.cpuId = n := by simpa using hid
    have hother : cpu.cstates.isSome → cpu.cpuId ≠ n := fun hsome =>
      (h.below cpu hcpu hsome).ne
    rw [cpuId_mapCpuNode, hid]
    exact ⟨fun _ hsome => (hother hsome).symm, fun hsome _ => hother hsome⟩

theorem mapCpuStates_spec (hwf : TopoWf topo) (n : Nat) :
    ∃ topo', mapCpuStates topo n = .ok topo' ∧ mapTopo bareCpu topo' = topo ∧
      MappedBelow n (cpuNodes topo') := by
  unfold mapCpuStates
  induction n with
  | zero =>
    have hnone : ∀ cpu ∈ cpuNodes topo, cpu = bareCpu cpu := by
      intro cpu hcpu
      obtain ⟨phy, hphy, core, hcore, hmem⟩ := mem_cpuNodes.mp hcpu
      exact ((hwf.phy phy hphy).core core hcore).fresh cpu hmem
    have hcstates : ∀ cpu ∈ cpuNodes topo, cpu.cstates = none ∧ cpu.pstates = none := by
      intro cpu hcpu
      rw [hnone cpu hcpu]
      exact ⟨rfl, rfl⟩
    refine ⟨topo, rfl, bare_of_wf hwf, fun cpu hcpu => .inl (hcstates cpu hcpu), ?_, ?_⟩
    · intro cpu hcpu hsome
      rw [(hcstates cpu hcpu).1] at hsome
      cases hsome
    · apply List.Pairwise.imp_of_mem _ (List.pairwise_of_forall (fun _ _ => trivial))
      intro a b ha _ _ hsome
      rw [(hcstates a ha).1] at hsome
      cases hsome
  | succ n ih =>
    obtain ⟨topo', hrun, hbare, hmapped⟩ := ih
    obtain ⟨online, hcall, -⟩ := onlineExact_of_wf hwf n (by omega)
    have hcall' : cpuIsOnline topo' n = .ok online := by
      rw [← hbare] at hcall
      exact hcall
    rw [List.range_succ, List.foldlM_append, hrun]
    simp only [bind, Except.bind, List.foldlM_cons, List.foldlM_nil, hcall', pure, Except.pure]
    cases online with
    | true =>
      refine ⟨_, rfl, (bare_mapCpuPoint n topo').trans hbare, ?_⟩
      rw [if_pos rfl, cpuNodes_mapCpuPoint]
      exact_mod_cast hmapped.mapNode
    | false =>
      refine ⟨topo', rfl, hbare, ?_⟩
      exact hmapped.mono (by omega)

end MapCpuStates

section Groups

variable {datas datas' : CpuidleDatas}

theorem setupCores_ok {physicalId : Int} {cores cores' : List CpuCore}
    (h : setupCores physicalId datas cores = .ok (datas', cores')) :
    cores' = cores.map (setCorePointer physicalId) ∧ datas'.nrcpus = datas.nrcpus ∧
      datas'.pstates = datas.pstates := by
  induction cores generalizing datas datas' cores' with
  | nil =>
    obtain ⟨rfl, rfl⟩ := Prod.mk.inj (Except.ok.inj h)
    exact ⟨rfl, rfl, rfl⟩
  | cons core rest ih =>
    rw [setupCores] at h
    obtain ⟨states, -, h⟩ := Runs.bind_eq_ok h
    obtain ⟨result, hrest, h⟩ := Runs.bind_eq_ok h
    obtain ⟨rfl, rfl⟩ := Prod.mk.inj (Except.ok.inj h)
    obtain ⟨hcores, hnrcpus, hpstates⟩ := ih hrest
    exact ⟨congrArg (setCorePointer physicalId core :: ·) hcores, hnrcpus, hpstates⟩

theorem setupClusters_ok {phys phys' : List CpuPhysical}
    (h : setupClusters datas phys = .ok (datas', phys')) :
    phys' = phys.map setClusterPointers ∧ datas'.nrcpus = datas.nrcpus ∧
      datas'.pstates = datas.pstates := by
  induction phys generalizing datas datas' phys' with
  | nil =>
    obtain ⟨rfl, rfl⟩ := Prod.mk.inj (Except.ok.inj h)
    exact ⟨rfl, rfl, rfl⟩
  | cons phy rest ih =>
    rw [setupClusters] at h
    obtain ⟨cores, hcores, h⟩ := Runs.bind_eq_ok h
    obtain ⟨states, -, h⟩ := Runs.bind_eq_ok h
    obtain ⟨result, hrest, h⟩ := Runs.bind_eq_ok h
    obtain ⟨rfl, rfl⟩ := Prod.mk.inj (Except.ok.inj h)
    obtain ⟨hnodes, hnrcpus, hpstates⟩ := setupCores_ok hcores
    obtain ⟨hphys, hnrcpus', hpstates'⟩ := ih hrest
    refine ⟨?_, hnrcpus'.trans hnrcpus, hpstates'.trans hpstates⟩
    rw [List.map_cons, hphys, hnodes]
    rfl

end Groups

/-! ## The tree that is left -/

/-- A sorted tree whose groups have their own records and whose CPUs have their
own or none. -/
structure Pointed (topo : CpuTopology) : Prop where
  clusters : Increasing CpuPhysical.physicalId topo.physicalHead
  cores : ∀ phy ∈ topo.physicalHead, Increasing CpuCore.coreId phy.coreHead
  cpus : ∀ phy ∈ topo.physicalHead, ∀ core ∈ phy.coreHead, Increasing CpuCpu.cpuId core.cpuHead
  cpusNonNeg : ∀ cpu ∈ cpuIds topo, 0 ≤ cpu
  cluster : ∀ phy ∈ topo.physicalHead,
    phy.cstates = some (.cluster phy.physicalId) ∧ phy.pstates = some (.cluster phy.physicalId)
  core : ∀ phy ∈ topo.physicalHead, ∀ core ∈ phy.coreHead,
    core.cstates = some (.core phy.physicalId core.coreId) ∧
      core.pstates = some (.core phy.physicalId core.coreId)
  cpu : ∀ cpu ∈ cpuNodes topo, OwnOrNone cpu

section SetUp

variable {datas datas' : CpuidleDatas} {topo : CpuTopology}

def pointedTopo (topo : CpuTopology) : CpuTopology :=
  { topo with physicalHead := topo.physicalHead.map setClusterPointers }

theorem cpuNodes_pointedTopo (topo : CpuTopology) :
    cpuNodes (pointedTopo topo) = cpuNodes topo := by
  simp only [cpuNodes, pointedTopo, setClusterPointers, List.flatMap_map]
  rfl

theorem cpuIds_pointedTopo (topo : CpuTopology) : cpuIds (pointedTopo topo) = cpuIds topo := by
  rw [← map_cpuNodes, cpuNodes_pointedTopo, map_cpuNodes]

theorem cpuIds_bare (topo : CpuTopology) : cpuIds (mapTopo bareCpu topo) = cpuIds topo := by
  have hid : ∀ cpu, (bareCpu cpu).cpuId = cpu.cpuId := fun _ => rfl
  exact cpuIds_mapTopo hid

theorem pointed_of_bare (hwf : TopoWf (mapTopo bareCpu topo))
    (hown : ∀ cpu ∈ cpuNodes topo, OwnOrNone cpu) : Pointed (pointedTopo topo) where
  clusters := by
    have hbare : Increasing CpuPhysical.physicalId (topo.physicalHead.map (mapCluster bareCpu)) :=
      hwf.clusters
    have hkeys := increasing_map.mp hbare
    exact increasing_map.mpr hkeys
  cores := by
    simp only [pointedTopo, List.forall_mem_map]
    intro phy hphy
    have hcores : Increasing CpuCore.coreId (phy.coreHead.map (mapCore bareCpu)) :=
      (hwf.phy _ (List.mem_map_of_mem hphy)).cores
    have hkeys := increasing_map.mp hcores
    exact increasing_map.mpr hkeys
  cpus := by
    simp only [pointedTopo, setClusterPointers, List.forall_mem_map]
    intro phy hphy core hcore
    have hcpus : Increasing CpuCpu.cpuId (core.cpuHead.map bareCpu) :=
      ((hwf.phy _ (List.mem_map_of_mem hphy)).core _ (List.mem_map_of_mem hcore)).cpus
    have hkeys := increasing_map.mp hcpus
    exact hkeys
  cpusNonNeg := by
    intro cpu hcpu
    rw [cpuIds_pointedTopo, ← cpuIds_bare] at hcpu
    obtain ⟨info, hhas, rfl⟩ := mem_cpuIds_iff_topoHas.mp hcpu
    exact hwf.ids info hhas
  cluster := by
    simp only [pointedTopo, List.forall_mem_map]
    intro phy hphy
    exact ⟨rfl, (hwf.phy _ (List.mem_map_of_mem hphy)).pstates⟩
  core := by
    simp only [pointedTopo, setClusterPointers, List.forall_mem_map]
    intro phy hphy core hcore
    exact ⟨rfl, ((hwf.phy _ (List.mem_map_of_mem hphy)).core _ (List.mem_map_of_mem hcore)).pstates⟩
  cpu := by
    rw [cpuNodes_pointedTopo]
    exact hown

theorem shape_of_bare (h : TopoShape (mapTopo bareCpu topo)) : TopoShape (pointedTopo topo) where
  clusters := by
    have hkeys := h.clusters
    simp only [mapTopo, List.map_map] at hkeys
    simp only [pointedTopo, List.map_map]
    exact hkeys
  cores := by
    simp only [pointedTopo, List.forall_mem_map]
    intro phy hphy
    have hkeys := h.cores _ (List.mem_map_of_mem hphy)
    simp only [mapCluster, List.map_map] at hkeys
    simp only [setClusterPointers, List.map_map]
    exact hkeys
  cpus := by
    simp only [pointedTopo, setClusterPointers, List.forall_mem_map]
    intro phy hphy core hcore
    have hkeys := h.cpus _ (List.mem_map_of_mem hphy) _ (List.mem_map_of_mem hcore)
    simp only [mapCore, List.map_map] at hkeys
    exact hkeys
  enum := by
    simp only [pointedTopo, List.forall_mem_map]
    intro phy hphy
    have hperm := h.enum _ (List.mem_map_of_mem hphy)
    simp only [links, mapCluster, mapCore, List.flatMap_map, List.map_map] at hperm
    simp only [links, setClusterPointers, List.flatMap_map]
    exact hperm
  coresInhabited := by
    simp only [pointedTopo, setClusterPointers, List.forall_mem_map]
    intro phy hphy core hcore
    have hne := h.coresInhabited _ (List.mem_map_of_mem hphy) _ (List.mem_map_of_mem hcore)
    simp only [mapCore, ne_eq, List.map_eq_nil_iff] at hne
    exact hne
  clustersInhabited := by
    simp only [pointedTopo, List.forall_mem_map]
    intro phy hphy
    have hne := h.clustersInhabited _ (List.mem_map_of_mem hphy)
    simp only [mapCluster, ne_eq, List.map_eq_nil_iff] at hne
    simp only [setClusterPointers, ne_eq, List.map_eq_nil_iff]
    exact hne

theorem setupTopoStates_built (hwf : TopoWf datas.topo)
    (h : setupTopoStates datas = .ok datas') :
    ∃ topo mid phys, mapTopo bareCpu topo = datas.topo ∧
      MappedBelow datas.nrcpus.toNat (cpuNodes topo) ∧
      setupClusters { datas with topo := topo } topo.physicalHead = .ok (mid, phys) ∧
      datas' = { mid with topo := pointedTopo topo } := by
  obtain ⟨topo, hmap, hbare, hmapped⟩ := mapCpuStates_spec hwf datas.nrcpus.toNat
  obtain ⟨mapped, hmap', h⟩ := Runs.bind_eq_ok h
  obtain rfl : topo = mapped := Except.ok.inj (hmap.symm.trans hmap')
  obtain ⟨⟨mid, phys⟩, hclusters, h⟩ := Runs.bind_eq_ok h
  obtain ⟨hphys, -, -⟩ := setupClusters_ok hclusters
  have htopo : { topo with physicalHead := phys } = pointedTopo topo := by
    rw [hphys]
    rfl
  exact ⟨topo, mid, phys, hbare, hmapped, hclusters, by rw [← Except.ok.inj h, htopo]⟩

theorem setupTopoStates_ok (hwf : TopoWf datas.topo) (h : setupTopoStates datas = .ok datas') :
    Pointed datas'.topo ∧ MappedBelow datas.nrcpus.toNat (cpuNodes datas'.topo) ∧
      cpuIds datas'.topo = cpuIds datas.topo ∧ datas'.nrcpus = datas.nrcpus ∧
      datas'.pstates = datas.pstates := by
  obtain ⟨topo, mid, phys, hbare, hmapped, hclusters, rfl⟩ := setupTopoStates_built hwf h
  obtain ⟨-, hnrcpus, hpstates⟩ := setupClusters_ok hclusters
  simp only [cpuIds_pointedTopo, cpuNodes_pointedTopo]
  rw [← hbare, cpuIds_bare]
  exact ⟨pointed_of_bare (hbare.symm ▸ hwf) hmapped.own, hmapped, rfl, hnrcpus, hpstates⟩

end SetUp

end Idlestat.Theory.RecordMapping
