import Idlestat.Model.EnergyModel
import Idlestat.Theory.PstateReport

/-! The energy model template against its parser. Before the line of the first
cluster the template has a heading, which the parser refuses there, so no
template with a cluster can be filled in. -/
namespace Idlestat.Theory.EnergyTemplate

open Idlestat.Library Idlestat.Library.Scan Idlestat.Library.TextFile Idlestat.Model.Topology
  Idlestat.Model.Cstates Idlestat.Model.Pstates Idlestat.Model.Recorder
  Idlestat.Model.TopologyFile Idlestat.Model.TraceLine Idlestat.Model.TraceFiles
  Idlestat.Model.EnergyModel Idlestat.Theory.RecordMapping Idlestat.Theory.LoadedRecords
  Idlestat.Theory.LoadedTraces Idlestat.Theory.TopologyRoundTrip
  Idlestat.Theory.BaselinePairing Idlestat.Theory.PstateReport

/-! ## A usable template -/

def clusterCpus (phy : CpuPhysical) : List CpuCpu :=
  phy.coreHead.flatMap CpuCore.cpuHead

def clusterCstates (phy : CpuPhysical) : List RecordRef :=
  phy.cstates.toList ++ (clusterCpus phy).filterMap CpuCpu.cstates

def stateNames (cstates : CpuidleCstates) : List (Option (List Char)) :=
  ((List.finRange maxcstate).filter fun i : Fin maxcstate => (i : Int) ≤ cstates.cstateMax).map
    fun i => (cstates.cstate i).name

/-- The lookups of `calculate_energy_consumption` that should succeed: the names
of all C-states in the records of a cluster and its CPUs, and all frequencies
with hits on its CPUs. -/
structure Covers (datas : CpuidleDatas) (model : EnergyParse) : Prop where
  cstates : ∀ phy ∈ datas.topo.physicalHead, ∀ ref ∈ clusterCstates phy,
    ∀ name, some name ∈ stateNames (datas.cstates ref) →
      ∃ info, model.findCstateEnergyInfo phy.physicalId name = .ok (some info)
  pstates : ∀ phy ∈ datas.topo.physicalHead,
    ∀ ref ∈ (clusterCpus phy).filterMap CpuCpu.pstates, ∀ p ∈ (datas.pstates ref).pstate,
    p.freq ≠ 0 → 0 < p.count →
      ∃ info, model.findPstateEnergyInfo phy.physicalId (p.freq / 1000) = .ok (some info)

/-- However its `?` fields are replaced, the template is accepted and covers the trace. -/
def TemplateUsable (env : ParseEnv) (datas : CpuidleDatas) : Prop :=
  ∃ template, makeEnergyModelTemplate datas = .ok template ∧
    ∀ file, Filled template file →
      ∃ model, parseEnergyModel env file = .ok (some model) ∧ Covers datas model

/-- Every cluster has CPUs, all of them with records, and the C-states have
names that fit the parser's arrays. -/
structure Named (datas : CpuidleDatas) : Prop where
  cpus : ∀ phy ∈ datas.topo.physicalHead, phy.coreHead ≠ [] ∧ ∀ core ∈ phy.coreHead,
    core.cpuHead ≠ [] ∧ ∀ cpu ∈ core.cpuHead, cpu.cstates.isSome ∧ cpu.pstates.isSome
  names : ∀ phy ∈ datas.topo.physicalHead, ∀ ref ∈ clusterCstates phy,
    ∀ name ∈ stateNames (datas.cstates ref), ∃ text, name = some text ∧ text ≠ [] ∧
      text.length < namelen ∧ ∀ c ∈ text, isSpace c = false

section Fill

variable {text : List Char} {rest template : List Piece} {file : List Char}

theorem exists_filled (template : List Piece) : ∃ file, Filled template file := by
  induction template with
  | nil => exact ⟨[], .nil⟩
  | cons piece rest ih =>
    obtain ⟨file, hfile⟩ := ih
    cases piece with
    | text text => exact ⟨_, .text hfile⟩
    | unknown => exact ⟨_, .unknown 0 (by decide) hfile⟩

theorem filled_text (h : Filled (.text text :: rest) file) :
    ∃ file', Filled rest file' ∧ file = text ++ file' := by
  cases h with
  | text h => exact ⟨_, h, rfl⟩

theorem filled_known (h : Filled template file) (hknown : Piece.unknown ∉ template) :
    file = templateText template := by
  induction h with
  | nil => rfl
  | text _ ih =>
    rw [ih fun hmem => hknown (List.mem_cons_of_mem _ hmem)]
    rfl
  | unknown => exact absurd List.mem_cons_self hknown

end Fill

section Lines

variable {env : ParseEnv} {model : EnergyParse} {buffer : List Char}

def commentLines : List (List Char) :=
  ["# This is a energy model template generated by idlestat\n".toList,
    "# Lines starting with # or which are blank are ignored\n".toList,
    "# Replace ? with correct values\n".toList]

theorem templateHeader_eq : templateHeader = commentLines.flatten := by
  have hflatten (a b c : List Char) : [a, b, c].flatten = a ++ b ++ c := by simp
  unfold templateHeader commentLines
  exact (hflatten _ _ _).symm

theorem parseLine_comment (h : buffer.head? = some '#') :
    model.parseLine env buffer = .ok (some model) := by
  rw [EnergyParse.parseLine, if_pos h]

theorem clustersText_eq (count : Nat) :
    clustersText count = "clusters".toList ++ ' ' :: (printUint count ++ ['\n']) := by
  have hword : "clusters ".toList = "clusters".toList ++ [' '] := by decide +kernel
  unfold clustersText
  rw [hword, List.append_assoc, List.append_assoc]
  rfl

theorem parseLine_clusters (count : Nat) :
    model.parseLine env (clustersText count) =
      .ok (model.parseClusters env (clustersText count)) := by
  have hword : "clusters".toList = 'c' :: "lusters".toList := by decide +kernel
  have hhead : (clustersText count).head? ≠ some '#' := by
    rw [clustersText_eq, hword, List.cons_append, List.head?_cons]
    decide
  have hlength : (clustersText count).length ≠ 1 := by
    rw [clustersText_eq, hword, List.cons_append, List.length_cons, List.length_append,
      List.length_cons]
    omega
  have hfound : strstr (clustersText count) "clusters" = true := by
    rw [clustersText_eq]
    exact decide_eq_true (List.prefix_append _ _).isInfix
  rw [EnergyParse.parseLine, if_neg hhead, if_neg hlength, if_pos hfound]

theorem parseLine_heading (h : model.currentCluster = -1) :
    model.parseLine env "C-states:\n".toList = .ok none := by
  have hhead : "C-states:\n".toList.head? ≠ some '#' := by decide +kernel
  have hlength : "C-states:\n".toList.length ≠ 1 := by decide +kernel
  have hclusters : ¬ strstr "C-states:\n".toList "clusters" = true := by decide +kernel
  have hcluster : ¬ (strstr "C-states:\n".toList "cluster" = true ∧
      ¬ strstr "C-states:\n".toList "cluster-" = true) := by decide +kernel
  have hpstates : ¬ strstr "C-states:\n".toList "P-states" = true := by decide +kernel
  have hcstates : strstr "C-states:\n".toList "C-states" = true := by decide +kernel
  rw [EnergyParse.parseLine, if_neg hhead, if_neg hlength, if_neg hclusters, if_neg hcluster,
    if_neg hpstates, if_pos hcstates, EnergyParse.parseCstates, EnergyParse.parseHeading, if_pos h]
  rfl

theorem parseLine_blank : model.parseLine env ['\n'] = .ok (some model) := by
  have hlength : ['\n'].length = 1 := rfl
  rw [EnergyParse.parseLine, if_neg (by decide), if_pos hlength]

theorem parseClusters_start (count : Nat) :
    ∃ model, (startModel env).parseClusters env (clustersText count) = some model ∧
      model.currentCluster = -1 := by
  rw [EnergyParse.parseClusters, if_neg (by simp [startModel])]
  exact ⟨_, rfl, rfl⟩

theorem parseLines_comments {lines rest : List (List Char)}
    (h : ∀ line ∈ lines, line.head? = some '#') :
    parseLines env (lines ++ rest) model = parseLines env rest model := by
  induction lines with
  | nil => rfl
  | cons line lines ih =>
    have hskip : model.parseLine env line = .ok (some model) :=
      parseLine_comment (h line List.mem_cons_self)
    rw [List.cons_append, parseLines, hskip]
    exact ih fun line hline => h line (List.mem_cons_of_mem _ hline)

theorem wholeLine_comments : ∀ line ∈ commentLines, WholeLine bufsize line := by
  have hplain : ∀ line ∈ commentLines, Plain line.dropLast ∧ line.dropLast.length ≤ 200 ∧
      line = line.dropLast ++ ['\n'] := by
    decide +kernel
  intro line hline
  obtain ⟨hbody, hlen, heq⟩ := hplain line hline
  rw [heq]
  exact wholeLine_of_plain hbody hlen

theorem wholeLine_clusters (count : Nat) : WholeLine bufsize (clustersText count) := by
  apply wholeLine_of_plain
  · exact Plain.append (by decide +kernel) (plain_toDigits _)
  · have hlen : (printUint count).length ≤ 10 := length_toDigits (Nat.mod_lt _ (by decide))
    have hword : "clusters ".toList.length = 9 := by decide +kernel
    rw [List.length_append, hword]
    omega

/-- Every file of the template starts with the comments and the number of clusters. -/
theorem parse_start (env : ParseEnv) (count : Nat) :
    ∃ model, model.currentCluster = -1 ∧ ∀ rest, parseEnergyModel env
      (templateHeader ++ (clustersText count ++ rest)) =
        parseLines env (buffers bufsize rest) model := by
  obtain ⟨model, hclusters, hcluster⟩ := parseClusters_start count
  refine ⟨model, hcluster, fun rest => ?_⟩
  have hwhole : ∀ line ∈ commentLines ++ [clustersText count], WholeLine bufsize line := by
    intro line hline
    cases List.mem_append.mp hline with
    | inl hcomment => exact wholeLine_comments line hcomment
    | inr hclusters =>
      rw [List.mem_singleton.mp hclusters]
      exact wholeLine_clusters count
  have hlines : buffers bufsize (commentLines.flatten ++ (clustersText count ++ rest)) =
      commentLines ++ clustersText count :: buffers bufsize rest := by
    have hread : buffers bufsize ((commentLines ++ [clustersText count]).flatten ++ rest) =
        commentLines ++ [clustersText count] ++ buffers bufsize rest := buffers_flatten hwhole
    simpa using hread
  have hskip : ∀ line ∈ commentLines, line.head? = some '#' := by
    decide +kernel
  rw [parseEnergyModel, templateHeader_eq, hlines, parseLines_comments hskip, parseLines,
    parseLine_clusters, hclusters]
  rfl

theorem buffers_heading (rest : List Char) :
    buffers bufsize ("\nC-states:\n".toList ++ rest) =
      ['\n'] :: "C-states:\n".toList :: buffers bufsize rest := by
  have hblank : WholeLine bufsize ['\n'] := ⟨[], rfl, by decide, by decide, by decide⟩
  have hheading : WholeLine bufsize "C-states:\n".toList :=
    ⟨"C-states:".toList, by decide +kernel, by decide +kernel, by decide +kernel,
      by decide +kernel⟩
  have hwhole : ∀ line ∈ [['\n'], "C-states:\n".toList], WholeLine bufsize line := by
    simp only [List.forall_mem_cons, List.not_mem_nil, false_implies, implies_true, and_true]
    exact ⟨hblank, hheading⟩
  have htext : "\nC-states:\n".toList = [['\n'], "C-states:\n".toList].flatten := by
    decide +kernel
  rw [htext]
  exact buffers_flatten hwhole

end Lines

section Verdict

variable {env : ParseEnv} {datas : CpuidleDatas} {template : List Piece} {file : List Char}

theorem clustersPieces_cons {phy : CpuPhysical} {rest : List CpuPhysical} {number : Nat}
    {pieces : List Piece} (h : clustersPieces datas number (phy :: rest) = .ok pieces) :
    ∃ more, pieces = .text "\nC-states:\n".toList :: more := by
  obtain ⟨first, hfirst, h⟩ := Runs.bind_eq_ok h
  obtain ⟨others, -, h⟩ := Runs.bind_eq_ok h
  obtain ⟨cpu, -, hfirst⟩ := Runs.bind_eq_ok hfirst
  obtain ⟨cstates, -, hfirst⟩ := Runs.bind_eq_ok hfirst
  obtain ⟨pstates, -, hfirst⟩ := Runs.bind_eq_ok hfirst
  obtain ⟨entries, -, hfirst⟩ := Runs.bind_eq_ok hfirst
  obtain ⟨states, -, hfirst⟩ := Runs.bind_eq_ok hfirst
  rw [← Except.ok.inj h, ← Except.ok.inj hfirst]
  exact ⟨_, rfl⟩

/-- However it is filled in, a template with a cluster is refused. -/
theorem template_refused (htemplate : makeEnergyModelTemplate datas = .ok template)
    (hclusters : datas.topo.physicalHead ≠ []) (hfilled : Filled template file) :
    parseEnergyModel env file = .ok none := by
  obtain ⟨clusters, hpieces, htemplate⟩ := Runs.bind_eq_ok htemplate
  obtain rfl := Except.ok.inj htemplate
  obtain ⟨phy, rest, hphys⟩ := List.exists_cons_of_ne_nil hclusters
  rw [hphys] at hpieces
  obtain ⟨more, rfl⟩ := clustersPieces_cons hpieces
  obtain ⟨afterHeader, hfilled, hfile⟩ := filled_text hfilled
  obtain ⟨afterCount, hfilled, hafterHeader⟩ := filled_text hfilled
  obtain ⟨afterHeading, -, hafterCount⟩ := filled_text hfilled
  obtain ⟨model, hcluster, hparse⟩ := parse_start env datas.topo.physicalHead.length
  rw [hfile, hafterHeader, hparse, hafterCount, buffers_heading, parseLines, parseLine_blank]
  change parseLines env _ model = _
  rw [parseLines, parseLine_heading hcluster]
  rfl

theorem template_accepted (hclusters : datas.topo.physicalHead = []) :
    TemplateUsable env datas := by
  have htemplate : makeEnergyModelTemplate datas =
      .ok [.text templateHeader, .text (clustersText 0)] := by
    simp only [makeEnergyModelTemplate, hclusters, clustersPieces, bind, Except.bind,
      List.length_nil]
  refine ⟨_, htemplate, fun file hfilled => ?_⟩
  have hfile : file = templateHeader ++ (clustersText 0 ++ []) := by
    rw [filled_known hfilled (by simp)]
    rfl
  obtain ⟨model, -, hparse⟩ := parse_start env 0
  rw [hfile, hparse]
  refine ⟨model, rfl, ?_, ?_⟩
  · simp [hclusters]
  · simp [hclusters]

theorem not_usable (hclusters : datas.topo.physicalHead ≠ []) : ¬ TemplateUsable env datas := by
  intro h
  obtain ⟨template, htemplate, hfiles⟩ := h
  obtain ⟨file, hfilled⟩ := exists_filled template
  obtain ⟨model, haccepted, -⟩ := hfiles file hfilled
  rw [template_refused htemplate hclusters hfilled] at haccepted
  cases haccepted

end Verdict

/-- For every trace, the template is usable exactly when there is no cluster. -/
theorem template_usable (env : ParseEnv) (datas : CpuidleDatas) :
    TemplateUsable env datas ↔ datas.topo.physicalHead = [] := by
  constructor
  · intro h
    by_contra hclusters
    exact not_usable hclusters h
  · exact template_accepted

def namedEnv : Env :=
  { soloEnv with info := fun _ _ => { name := some ['C', '1'], targetResidency := 1 } }

def idleTrace : List Char :=
  "# tracer: nop #P:1\n".toList ++
    "sh-1 [000] d..2 1.000000: cpu_frequency: state=100000 cpu_id=0\n".toList ++
    "<idle>-0 [000] d..2 2.000000: cpu_idle: state=0 cpu_id=0\n".toList ++
    "<idle>-0 [000] d..2 3.000000: cpu_idle: state=4294967295 cpu_id=0\n".toList

def topoAndNames (datas : CpuidleDatas) :
    CpuTopology × List (Option (List Char)) × List (Option (List Char)) :=
  (datas.topo, stateNames (datas.cstates (.cluster 0)), stateNames (datas.cstates (.percpu 0)))

theorem load_idle : ∃ datas, traceLoad namedEnv .ftrace idleTrace = .ok (some datas) ∧
    topoAndNames datas = (hostTopo soloInfos, [some ['C', '1']], [some ['C', '1']]) :=
  exists_of_load topoAndNames (by decide +kernel)

/-- One cluster of one CPU, with a frequency and a named C-state. -/
theorem template_not_usable :
    ∃ datas, traceLoad namedEnv .ftrace idleTrace = .ok (some datas) ∧ Named datas ∧
      ∀ env : ParseEnv, ¬ TemplateUsable env datas := by
  obtain ⟨datas, hload, hshown⟩ := load_idle
  obtain ⟨htopo, hnames⟩ := Prod.mk.inj hshown
  obtain ⟨hcluster, hcpu⟩ := Prod.mk.inj hnames
  refine ⟨datas, hload, ⟨?_, ?_⟩, fun env => not_usable ?_⟩
  · rw [htopo]
    decide +kernel
  · have hrefs : ∀ phy ∈ (hostTopo soloInfos).physicalHead,
        clusterCstates phy = [.cluster 0, .percpu 0] := by decide +kernel
    intro phy hphy ref href name hname
    rw [hrefs phy (htopo ▸ hphy)] at href
    have hnames : stateNames (datas.cstates ref) = [some ['C', '1']] := by
      cases List.mem_cons.mp href with
      | inl hfirst => rw [hfirst, hcluster]
      | inr hrest => rw [List.mem_singleton.mp hrest, hcpu]
    rw [hnames, List.mem_singleton] at hname
    exact ⟨['C', '1'], hname, by decide, by decide, by simp [isSpace]⟩
  · rw [htopo]
    decide +kernel

end Idlestat.Theory.EnergyTemplate
