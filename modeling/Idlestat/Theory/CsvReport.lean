import Idlestat.Library.DelimitedText
import Idlestat.Model.CsvReport
import Idlestat.Theory.TraceEvents
import Mathlib.Data.List.FinRange

/-! The CSV report, read again. A reader that splits the file into lines and the
lines into fields gets each table back: the nodes of the tree in order, below
each what is shown of it, counts as they are and times to six decimals. -/
namespace Idlestat.Theory.CsvReport

open Idlestat.Library Idlestat.Library.Scan Idlestat.Library.TextFile Idlestat.Library.Decimal
  Idlestat.Library.DelimitedText Idlestat.Model.Topology Idlestat.Model.Cstates
  Idlestat.Model.Pstates Idlestat.Model.Recorder Idlestat.Model.CstateFile
  Idlestat.Model.TopologyFile Idlestat.Model.TraceLine Idlestat.Model.Report
  Idlestat.Model.Baseline Idlestat.Model.TopologyDump Idlestat.Model.CsvReport
  Idlestat.Theory.Nodes Idlestat.Theory.Setup Idlestat.Theory.RecorderSteps
  Idlestat.Theory.TraceEvents

/-! ## The nodes -/

inductive Depth
  | cluster
  | core
  | cpu
  deriving DecidableEq

structure ReportNode where
  depth : Depth
  name : List Char
  ref : RecordRef
  deriving DecidableEq

def cpuNode (cpu : CpuCpu) : ReportNode :=
  ⟨.cpu, cpuName cpu.cpuId, .percpu cpu.cpuId⟩

def coreNodes (physicalId : Int) (core : CpuCore) : List ReportNode :=
  (if core.isHt then [⟨.core, coreName core.coreId, .core physicalId core.coreId⟩] else []) ++
    core.cpuHead.map cpuNode

def clusterNodes (phy : CpuPhysical) : List ReportNode :=
  ⟨.cluster, clusterName phy.physicalId, .cluster phy.physicalId⟩ ::
    phy.coreHead.flatMap (coreNodes phy.physicalId)

/-- The nodes that a report is about: a core with a single CPU is left out. -/
def reportNodes (topo : CpuTopology) : List ReportNode :=
  topo.physicalHead.flatMap clusterNodes

section Nodes

variable {nrcpus : Int} {topo : CpuTopology}

def nodeCall (node : ReportNode) : DumpCall :=
  { arg := some node.ref, baseline := none, cpu := node.name }

theorem dumpCalls_eq (hm : Mapped nrcpus topo) (cstate : Bool) :
    dumpCalls cstate (topo.physicalHead.map unpairedCluster) =
      (reportNodes topo).map nodeCall := by
  have hcluster : ∀ phy ∈ topo.physicalHead,
      clusterCalls cstate (unpairedCluster phy) = (clusterNodes phy).map nodeCall := by
    intro phy hphy
    have hcore : ∀ core ∈ phy.coreHead,
        coreCalls cstate (unpairedCore core) = (coreNodes phy.physicalId core).map nodeCall := by
      intro core hcore
      have hcpu : ∀ cpu ∈ core.cpuHead,
          cpuCall cstate { cpu := cpu } = nodeCall (cpuNode cpu) := by
        intro cpu hcpu
        obtain ⟨hcstates, hpstates⟩ := hm.cpu phy hphy core hcore cpu hcpu
        cases cstate <;> simp [cpuCall, nodeCall, cpuNode, hcstates, hpstates]
      obtain ⟨hcstates, hpstates⟩ := hm.core phy hphy core hcore
      have hcpus : core.cpuHead.map (cpuCall cstate ∘ fun cpu => { cpu := cpu }) =
          core.cpuHead.map (nodeCall ∘ cpuNode) := List.map_congr_left hcpu
      simp only [coreCalls, unpairedCore, coreNodes, List.map_append, List.map_map, hcpus]
      congr 1
      by_cases hht : core.isHt = true <;> cases cstate <;>
        simp [hht, coreCall, nodeCall, hcstates, hpstates]
    obtain ⟨hcstates, hpstates⟩ := hm.cluster phy hphy
    have hcores : phy.coreHead.flatMap (coreCalls cstate ∘ unpairedCore) =
        phy.coreHead.flatMap fun core => (coreNodes phy.physicalId core).map nodeCall :=
      List.flatMap_congr hcore
    simp only [clusterCalls, unpairedCluster, clusterNodes, List.map_cons, List.flatMap_map,
      List.map_flatMap, Function.comp_def] at hcores ⊢
    rw [hcores]
    congr 1
    cases cstate <;> simp [clusterCall, nodeCall, hcstates, hpstates]
  rw [dumpCalls, reportNodes, List.flatMap_map, List.map_flatMap]
  exact List.flatMap_congr hcluster

/-! ## Names -/

/-- Text that can be a field of a line. -/
def IsField (text : List Char) : Prop :=
  ',' ∉ text ∧ '\n' ∉ text

instance (text : List Char) : Decidable (IsField text) :=
  inferInstanceAs (Decidable (_ ∧ _))

theorem isField_of_all {text : List Char} (h : ∀ c ∈ text, c ≠ ',' ∧ c ≠ '\n') : IsField text :=
  ⟨fun hmem => (h _ hmem).1 rfl, fun hmem => (h _ hmem).2 rfl⟩

theorem ne_of_isDigit {c d : Char} (hc : c.isDigit = true) (hd : d.isDigit = false) : c ≠ d := by
  rintro rfl
  rw [hc] at hd
  cases hd

theorem isField_printInt (n : Int) : IsField (printInt n) := by
  apply isField_of_all
  intro c hc
  cases mem_printInt hc with
  | inl hdigit => exact ⟨ne_of_isDigit hdigit (by decide), ne_of_isDigit hdigit (by decide)⟩
  | inr hsign =>
    subst hsign
    decide

theorem isField_toDigits (n : Nat) : IsField (Nat.toDigits 10 n) := by
  apply isField_of_all
  intro c hc
  have hdigit : c.isDigit = true := isDigit_of_mem_toDigits hc
  exact ⟨ne_of_isDigit hdigit (by decide), ne_of_isDigit hdigit (by decide)⟩

theorem isField_printDouble (x : ℚ) : IsField (printDouble x) := by
  apply isField_of_all
  intro c hc
  rcases mem_printFixed hc with hdigit | rfl | rfl
  · exact ⟨ne_of_isDigit hdigit (by decide), ne_of_isDigit hdigit (by decide)⟩
  · decide
  · decide

theorem IsField.append {first second : List Char} (hfirst : IsField first)
    (hsecond : IsField second) : IsField (first ++ second) :=
  ⟨by simp [hfirst.1, hsecond.1], by simp [hfirst.2, hsecond.2]⟩

theorem strstr_number {word : String} {pre : List Char} {n : Int} {c : Char}
    (hmem : c ∈ word.toList) (hpre : c ∉ pre) (hc : c.isDigit = false) (hsign : c ≠ '-') :
    strstr (pre ++ printInt n) word = false := by
  rw [← Bool.not_eq_true, strstr_iff]
  intro hwithin
  cases List.mem_append.mp (hwithin.subset hmem) with
  | inl hin => exact hpre hin
  | inr hnumber =>
    cases mem_printInt hnumber with
    | inl hdigit => exact ne_of_isDigit hdigit hc rfl
    | inr hminus => exact hsign hminus

theorem clusterName_eq (physicalId : Int) : clusterName physicalId =
    "cluster".toList ++ cString [printChar (physicalId + 65)] := by
  have hword : ∀ c ∈ "cluster".toList, decide (c ≠ '\x00') = true := by decide
  rw [clusterName, cString, List.takeWhile_append_of_pos hword]
  rfl

theorem strstr_clusterName (physicalId : Int) :
    strstr (clusterName physicalId) "cluster" = true := by
  rw [strstr_iff, clusterName_eq]
  exact (List.prefix_append _ _).isInfix

theorem strstr_coreName (coreId : Int) :
    strstr (coreName coreId) "cluster" = false ∧ strstr (coreName coreId) "core" = true := by
  constructor
  · exact strstr_number (show 'l' ∈ "cluster".toList by decide) (by decide) (by decide) (by decide)
  · rw [strstr_iff]
    exact (List.prefix_append _ _).isInfix

theorem strstr_cpuName (cpuId : Int) :
    strstr (cpuName cpuId) "cluster" = false ∧ strstr (cpuName cpuId) "core" = false :=
  ⟨strstr_number (show 'l' ∈ "cluster".toList by decide) (by decide) (by decide) (by decide),
    strstr_number (show 'o' ∈ "core".toList by decide) (by decide) (by decide) (by decide)⟩

theorem mem_reportNodes {node : ReportNode} (h : node ∈ reportNodes topo) :
    (∃ phy ∈ topo.physicalHead,
      node = ⟨.cluster, clusterName phy.physicalId, .cluster phy.physicalId⟩) ∨
    (∃ phy ∈ topo.physicalHead, ∃ core ∈ phy.coreHead,
      node = ⟨.core, coreName core.coreId, .core phy.physicalId core.coreId⟩) ∨
    ∃ cpu ∈ cpuIds topo, node = ⟨.cpu, cpuName cpu, .percpu cpu⟩ := by
  obtain ⟨phy, hphy, hnode⟩ := List.mem_flatMap.mp h
  cases List.mem_cons.mp hnode with
  | inl hcluster => exact .inl ⟨phy, hphy, hcluster⟩
  | inr hbelow =>
    obtain ⟨core, hcore, hnode⟩ := List.mem_flatMap.mp hbelow
    cases List.mem_append.mp hnode with
    | inl hself =>
      split at hself
      · exact .inr (.inl ⟨phy, hphy, core, hcore, List.mem_singleton.mp hself⟩)
      · cases hself
    | inr hcpu =>
      obtain ⟨cpu, hmem, rfl⟩ := List.mem_map.mp hcpu
      refine .inr (.inr ⟨cpu.cpuId, ?_, rfl⟩)
      exact List.mem_flatMap.mpr ⟨phy, hphy, List.mem_flatMap.mpr
        ⟨core, hcore, List.mem_map_of_mem hmem⟩⟩

def headFields (node : ReportNode) : List (List Char) :=
  match node.depth with
  | .cluster => [node.name]
  | .core => [[], node.name]
  | .cpu => [[], [], node.name]

theorem csvCstateCpuHeader_eq {node : ReportNode} (h : node ∈ reportNodes topo) :
    csvCstateCpuHeader node.name = joinFields ',' (headFields node) ++ ['\n'] := by
  rcases mem_reportNodes h with ⟨phy, -, rfl⟩ | ⟨-, -, core, -, rfl⟩ | ⟨cpu, -, rfl⟩
  · simp [csvCstateCpuHeader, strstr_clusterName, headFields, joinFields]
  · simp [csvCstateCpuHeader, strstr_coreName, headFields, joinFields, List.intercalate]
  · simp [csvCstateCpuHeader, strstr_cpuName, headFields, joinFields, List.intercalate]

def ClearNames (topo : CpuTopology) : Prop :=
  ∀ phy ∈ topo.physicalHead, IsField (clusterName phy.physicalId)

instance : Decidable (ClearNames topo) :=
  inferInstanceAs (Decidable (∀ phy ∈ topo.physicalHead, _))

theorem isField_name (hnames : ClearNames topo) {node : ReportNode}
    (h : node ∈ reportNodes topo) : IsField node.name := by
  rcases mem_reportNodes h with ⟨phy, hphy, rfl⟩ | ⟨-, -, core, -, rfl⟩ | ⟨cpu, -, rfl⟩
  · exact hnames phy hphy
  · exact IsField.append (by decide) (isField_printInt core.coreId)
  · exact IsField.append (by decide) (isField_printInt cpu)

theorem head_name {node : ReportNode} (h : node ∈ reportNodes topo) :
    node.name.head? = some 'c' := by
  rcases mem_reportNodes h with ⟨phy, hphy, rfl⟩ | ⟨-, -, core, -, rfl⟩ | ⟨cpu, -, rfl⟩
  · simp only [clusterName_eq]
    rfl
  · rfl
  · rfl

end Nodes

section Print

variable {α : Type} {header : List Char} {single : α → List Char} {hits : α → Nat}

def block (single : α → List Char) (cpu : List Char) (shown : List α) : List Char :=
  if shown = [] then [] else csvCstateCpuHeader cpu ++ shown.flatMap single

theorem displayLoop_print (entries : List α) (cpu out : List Char) (flag : Bool) :
    (entries.map fun entry => (entry, none)).foldlM
        (displayState (printOps header single).toReportOps hits cpu) (out, flag) =
      .ok (out ++ (if flag then (entries.filter (hits · ≠ 0)).flatMap single
          else block single cpu (entries.filter (hits · ≠ 0))),
        flag || !(entries.filter (hits · ≠ 0)).isEmpty) := by
  induction entries generalizing out flag with
  | nil => cases flag <;> simp [block, pure, Except.pure]
  | cons entry rest ih =>
    rw [List.map_cons, List.foldlM_cons]
    by_cases hhit : hits entry = 0
    · have hturn : displayState (printOps header single).toReportOps hits cpu (out, flag)
          (entry, none) = .ok (out, flag) := by
        simp [displayState, hhit]
      rw [hturn]
      change List.foldlM _ _ _ = _
      rw [ih]
      simp [hhit]
    · have hturn : displayState (printOps header single).toReportOps hits cpu (out, flag)
          (entry, none) =
          .ok (out ++ (if flag then [] else csvCstateCpuHeader cpu) ++ single entry, true) := by
        cases flag <;> simp [displayState, hhit, printOps, bind, Except.bind]
      rw [hturn]
      change List.foldlM _ _ _ = _
      rw [ih]
      cases flag <;> simp [hhit, block]

theorem displayStates_print (entries : List α) (cpu out : List Char) :
    displayStates (printOps header single).toReportOps hits
        (entries.map fun entry => (entry, none)) cpu out =
      .ok (out ++ block single cpu (entries.filter (hits · ≠ 0))) := by
  unfold displayStates
  rw [displayLoop_print]
  change (if (false || !(entries.filter (hits · ≠ 0)).isEmpty) = true then _ else _) = _
  split <;> rfl

theorem displayWakeup_print {header : List Char} {single : WakeupIrq → List Char}
    (cstates : CpuidleCstates) (cpu out : List Char) :
    displayWakeup (printOps header single).toReportOps cstates cpu out =
      .ok (out ++ block single cpu cstates.wakeinfo) := by
  have hsame : displayWakeup (printOps header single).toReportOps cstates cpu out =
      displayStates (printOps header single).toReportOps (fun _ => 1)
        (cstates.wakeinfo.map fun entry => (entry, none)) cpu out := by
    rw [displayWakeup, displayStates, List.foldlM_map]
    rfl
  rw [hsame, displayStates_print]
  simp

/-! ## What is shown -/

def reachedStates (cstates : CpuidleCstates) : List (Fin maxcstate) :=
  (List.finRange maxcstate).filter fun i => decide ((i.val : Int) ≤ cstates.cstateMax)

def shownCstates (cstates : CpuidleCstates) : List CpuidleCstate :=
  ((reachedStates cstates).map cstates.cstate).filter (CpuidleCstate.nrdata · ≠ 0)

theorem range_reached (cstates : CpuidleCstates) (hmax : cstates.cstateMax < maxcstate) :
    List.range (cstates.cstateMax + 1).toNat = (reachedStates cstates).map Fin.val := by
  have hsplit : List.range maxcstate = List.range (cstates.cstateMax + 1).toNat ++
      (List.range (maxcstate - (cstates.cstateMax + 1).toNat)).map
        ((cstates.cstateMax + 1).toNat + ·) := by
    rw [← List.range_add]
    congr 1
    omega
  have hlow : ∀ i ∈ List.range (cstates.cstateMax + 1).toNat,
      decide ((i : Int) ≤ cstates.cstateMax) = true := by
    intro i hi
    rw [List.mem_range] at hi
    exact decide_eq_true (by omega)
  have hhigh : ∀ i ∈ (List.range (maxcstate - (cstates.cstateMax + 1).toNat)).map
      ((cstates.cstateMax + 1).toNat + ·), ¬ decide ((i : Int) ≤ cstates.cstateMax) = true := by
    intro i hi
    obtain ⟨k, -, rfl⟩ := List.mem_map.mp hi
    rw [decide_eq_true_eq]
    omega
  have hfilter : (reachedStates cstates).map Fin.val =
      (List.range maxcstate).filter fun i : Nat => decide ((i : Int) ≤ cstates.cstateMax) := by
    rw [← List.map_coe_finRange_eq_range, List.filter_map]
    rfl
  rw [hfilter, hsplit, List.filter_append, List.filter_eq_self.mpr hlow,
    List.filter_eq_nil_iff.mpr hhigh, List.append_nil]

theorem displayCstates_print (cstates : CpuidleCstates) (hmax : cstates.cstateMax < maxcstate)
    (cpu out : List Char) :
    displayCstates csvReportOps.cstate.toReportOps cstates none cpu out =
      .ok (out ++ block csvCstateSingleState cpu (shownCstates cstates)) := by
  have hentries : (List.range (cstates.cstateMax + 1).toNat).mapM (cstatesAt cstates none) =
      .ok (((reachedStates cstates).map cstates.cstate).map fun c => (c, none)) := by
    rw [range_reached cstates hmax, Runs.mapM_eq_ok_iff, List.forall₂_map_left_iff,
      List.map_map, List.forall₂_map_right_iff, List.forall₂_same]
    intro i _
    have hindex : cstateIndex (i.val : Int) = .ok i := by
      have hlt : (0 : Int) ≤ (i.val : Int) ∧ (i.val : Int) < maxcstate := by omega
      rw [cstateIndex, dif_pos hlt]
      rfl
    simp only [cstatesAt, hindex, bind, Except.bind, Function.comp_apply, Option.map_none]
  rw [displayCstates, hentries]
  exact displayStates_print _ cpu out

def shownPstates (pstates : CpufreqPstates) : List CpufreqPstate :=
  pstates.pstate.filter (CpufreqPstate.count · ≠ 0)

theorem displayPstates_print (pstates : CpufreqPstates)
    (hmax : pstates.max = pstates.pstate.length) (cpu out : List Char) :
    displayPstates csvReportOps.pstate.toReportOps pstates none cpu out =
      .ok (out ++ block csvPstateSingleFreq cpu (shownPstates pstates)) := by
  have hentries : (List.range pstates.max).mapM (pstatesAt pstates none) =
      .ok (pstates.pstate.map fun p => (p, none)) := by
    rw [Runs.mapM_eq_ok_iff, hmax, List.forall₂_iff_get]
    refine ⟨by simp, ?_⟩
    intro i hi hi'
    rw [List.length_range] at hi
    have hget : pstates.pstate[i]? = some pstates.pstate[i] := List.getElem?_eq_getElem hi
    simp [pstatesAt, pstateAt, basePstateAt, hget, bind, Except.bind]
  rw [displayPstates, hentries]
  exact displayStates_print _ cpu out

end Print

/-! ## Reading -/

/-- A line that names a node: its last field is the name. -/
def headOf (line : List Char) : Option (Depth × List Char) :=
  match line.splitOn ',' with
  | [name] => some (.cluster, name)
  | [_, name] => some (.core, name)
  | [_, _, name] => some (.cpu, name)
  | _ => none

section Read

variable {α β : Type} {fields : α → List (List Char)} {shown : RecordRef → List α}
  {topo : CpuTopology}

def rowLine (fields : α → List (List Char)) (entry : α) : List Char :=
  joinFields ',' ([] :: [] :: [] :: fields entry)

def readRow (readFields : List (List Char) → Option β) (line : List Char) : Option β :=
  readFields ((line.splitOn ',').drop 3)

def readGroup (readFields : List (List Char) → Option β)
    (group : (Depth × List Char) × List (List Char)) :
    Option ((Depth × List Char) × List β) := do
  let rows ← group.2.mapM (readRow readFields)
  some (group.1, rows)

def readTable (title : String) (readFields : List (List Char) → Option β) (text : List Char) :
    Option (List ((Depth × List Char) × List β)) :=
  (DelimitedText.groups headOf (tableBody title.toList (text.splitOn '\n'))).2.mapM
    (readGroup readFields)

def shownNodes (topo : CpuTopology) (shown : RecordRef → List α) :
    List (ReportNode × List α) :=
  ((reportNodes topo).map fun node => (node, shown node.ref)).filter fun b => !b.2.isEmpty

theorem mem_shownNodes {b : ReportNode × List α} (h : b ∈ shownNodes topo shown) :
    b.1 ∈ reportNodes topo ∧ b.2 = shown b.1.ref := by
  obtain ⟨node, hmem, rfl⟩ := List.mem_map.mp (List.mem_filter.mp h).1
  exact ⟨hmem, rfl⟩

def ClearRows (topo : CpuTopology) (shown : RecordRef → List α)
    (fields : α → List (List Char)) : Prop :=
  ∀ node ∈ reportNodes topo, ∀ entry ∈ shown node.ref, ∀ field ∈ fields entry, IsField field

def bodyLines (fields : α → List (List Char)) (nodes : List (ReportNode × List α)) :
    List (List Char) :=
  nodes.flatMap fun b => joinFields ',' (headFields b.1) :: b.2.map (rowLine fields)

theorem isField_headFields (hnames : ClearNames topo) {node : ReportNode}
    (h : node ∈ reportNodes topo) : ∀ field ∈ headFields node, IsField field := by
  have hname := isField_name hnames h
  have hnil : IsField [] := by decide
  unfold headFields
  cases node.depth <;> simp [hname, hnil]

theorem isField_rowFields {entry : α} (h : ∀ field ∈ fields entry, IsField field) :
    ∀ field ∈ [] :: [] :: [] :: fields entry, IsField field := by
  have hnil : IsField [] := by decide
  simpa [hnil] using h

theorem headOf_headFields (hnames : ClearNames topo) {node : ReportNode}
    (h : node ∈ reportNodes topo) :
    headOf (joinFields ',' (headFields node)) = some (node.depth, node.name) := by
  have hclear : ∀ field ∈ headFields node, ',' ∉ field := fun field hfield =>
    (isField_headFields hnames h field hfield).1
  have hne : headFields node ≠ [] := by
    unfold headFields
    cases node.depth <;> simp
  unfold headOf
  rw [splitOn_joinFields hclear hne]
  unfold headFields
  cases node.depth <;> rfl

theorem splitOn_rowLine {entry : α} (h : ∀ field ∈ fields entry, IsField field) :
    (rowLine fields entry).splitOn ',' = [] :: [] :: [] :: fields entry :=
  splitOn_joinFields (fun field hfield => (isField_rowFields h field hfield).1)
    (List.cons_ne_nil _ _)

theorem headOf_rowLine {entry : α} (h : ∀ field ∈ fields entry, IsField field)
    (hne : fields entry ≠ []) : headOf (rowLine fields entry) = none := by
  obtain ⟨field, rest, hfields⟩ := List.exists_cons_of_ne_nil hne
  unfold headOf
  rw [splitOn_rowLine h, hfields]

theorem not_end_joinFields {fields : List (List Char)} (h : ∀ field ∈ fields, IsField field) :
    '\n' ∉ joinFields ',' fields := by
  intro hend
  cases mem_joinFields hend with
  | inl hsep => cases hsep
  | inr hfield =>
    obtain ⟨field, hfield, hend⟩ := hfield
    exact (h field hfield).2 hend

theorem mem_bodyLines (hnames : ClearNames topo) (hfields : ClearRows topo shown fields)
    {line : List Char} (h : line ∈ bodyLines fields (shownNodes topo shown)) :
    '\n' ∉ line ∧ (line.head? = some 'c' ∨ line.head? = some ',') := by
  obtain ⟨⟨node, entries⟩, hnode, hline⟩ := List.mem_flatMap.mp h
  obtain ⟨hmem, hentries⟩ := mem_shownNodes hnode
  simp only at hmem hentries
  subst hentries
  cases List.mem_cons.mp hline with
  | inl hhead =>
    subst hhead
    refine ⟨not_end_joinFields (isField_headFields hnames hmem), ?_⟩
    have hname := head_name hmem
    obtain ⟨c, rest, hcons⟩ := List.exists_cons_of_ne_nil
      (show node.name ≠ [] by intro hnil; simp [hnil] at hname)
    rw [hcons] at hname
    simp only [headFields, hcons]
    cases node.depth
    · exact .inl (by simpa [joinFields] using hname)
    · exact .inr (by simp [joinFields, List.intercalate])
    · exact .inr (by simp [joinFields, List.intercalate])
  | inr hrow =>
    obtain ⟨entry, hentry, rfl⟩ := List.mem_map.mp hrow
    refine ⟨not_end_joinFields (isField_rowFields (hfields node hmem entry hentry)), .inr ?_⟩
    cases hcase : fields entry <;> simp [rowLine, joinFields, List.intercalate, hcase]

/-- What a reader is to find. -/
def shownTable (topo : CpuTopology) (shown : RecordRef → List α) (row : α → β) :
    List ((Depth × List Char) × List β) :=
  (shownNodes topo shown).map fun b => ((b.1.depth, b.1.name), b.2.map row)

/-! ## One table -/

def tableLines (above : List (List Char)) (title columns : String)
    (body : List (List Char)) : List (List Char) :=
  above ++ title.toList :: columns.toList :: (body ++ [[], []])

theorem blocks_eq {single : α → List Char} (hsingle : ∀ e, single e = rowLine fields e ++ ['\n'])
    {nodes : List ReportNode} (hnodes : ∀ node ∈ nodes, node ∈ reportNodes topo) :
    nodes.flatMap (fun node => block single node.name (shown node.ref)) =
      endLines '\n' (bodyLines fields
        ((nodes.map fun node => (node, shown node.ref)).filter fun b => !b.2.isEmpty)) := by
  induction nodes with
  | nil => rfl
  | cons node rest ih =>
    obtain ⟨hnode, hrest⟩ := List.forall_mem_cons.mp hnodes
    have hrows : (shown node.ref).flatMap single =
        endLines '\n' ((shown node.ref).map (rowLine fields)) := by
      rw [endLines, List.flatMap_map]
      exact List.flatMap_congr fun e _ => hsingle e
    rw [List.flatMap_cons, ih hrest, List.map_cons, List.filter_cons]
    cases hshown : shown node.ref with
    | nil => simp [block]
    | cons entry entries =>
      rw [hshown] at hrows
      simp only [block, List.cons_ne_nil, if_false, List.isEmpty_cons, Bool.not_false, if_true,
        bodyLines, List.flatMap_cons, hrows, csvCstateCpuHeader_eq hnode, endLines_append,
        endLines_cons, List.append_assoc, List.cons_append, List.nil_append]

theorem foldlM_print {dump : DumpCall → List Char → Except Fault (List Char)}
    {text : ReportNode → List Char} {nodes : List ReportNode}
    (hdump : ∀ node ∈ nodes, ∀ out, dump (nodeCall node) out = .ok (out ++ text node))
    (out : List Char) :
    (nodes.map nodeCall).foldlM (fun reportData call => dump call reportData) out =
      .ok (out ++ nodes.flatMap text) := by
  induction nodes generalizing out with
  | nil => simp [pure, Except.pure]
  | cons node rest ih =>
    obtain ⟨hnode, hrest⟩ := List.forall_mem_cons.mp hdump
    rw [List.map_cons, List.foldlM_cons, hnode]
    change List.foldlM _ _ _ = _
    rw [ih hrest, List.flatMap_cons, List.append_assoc]

theorem displayTable_print {nrcpus : Int} (hm : Mapped nrcpus topo) {above : List (List Char)}
    {title columns : String} {header : List Char} {single : α → List Char}
    {dump : DumpCall → List Char → Except Fault (List Char)}
    (hheader : header = endLines '\n' (above ++ [title.toList, columns.toList]))
    (hsingle : ∀ e, single e = rowLine fields e ++ ['\n'])
    (hdump : ∀ node ∈ reportNodes topo, ∀ out,
      dump (nodeCall node) out = .ok (out ++ block single node.name (shown node.ref)))
    (display cstate : Bool) (out : List Char) :
    displayTable display (printOps header single) dump (topo.physicalHead.map unpairedCluster)
        cstate out =
      .ok (out ++ endLines '\n' (if display then
        tableLines above title columns (bodyLines fields (shownNodes topo shown)) else [])) := by
  have hfooter : csvCstateTableFooter = endLines '\n' [[], []] := rfl
  cases display with
  | false => simp [displayTable]
  | true =>
    have hbody : (reportNodes topo).flatMap (fun node => block single node.name (shown node.ref)) =
        endLines '\n' (bodyLines fields (shownNodes topo shown)) :=
      blocks_eq hsingle fun node h => h
    rw [displayTable, if_pos rfl, dumpCpuTopoInfo, dumpCalls_eq hm, foldlM_print hdump, hbody]
    simp only [printOps, bind, Except.bind, hheader, hfooter, if_true, tableLines, shownNodes,
      endLines_append, endLines_cons, endLines_nil, List.append_assoc, List.cons_append,
      List.nil_append]

theorem readTable_eq (hnames : ClearNames topo) {above before after : List (List Char)}
    {title columns : String} {readFields : List (List Char) → Option β} {row : α → β}
    (hfields : ClearRows topo shown fields) (hne : ∀ entry, fields entry ≠ [])
    (hread : ∀ entry, readFields (fields entry) = some (row entry))
    (hbefore : ∀ line ∈ before ++ above, '\n' ∉ line ∧ line ≠ title.toList)
    (htitle : '\n' ∉ title.toList) (hcolumns : '\n' ∉ columns.toList)
    (hafter : ∀ line ∈ after, '\n' ∉ line) :
    readTable title readFields (endLines '\n' (before ++
        (tableLines above title columns (bodyLines fields (shownNodes topo shown)) ++ after))) =
      some (shownTable topo shown row) := by
  have hbody : ∀ line ∈ bodyLines fields (shownNodes topo shown),
      '\n' ∉ line ∧ line ≠ [] := by
    intro line hline
    obtain ⟨hend, hhead⟩ := mem_bodyLines hnames hfields hline
    refine ⟨hend, ?_⟩
    rintro rfl
    simp at hhead
  have hlines : ∀ line ∈ before ++
      (tableLines above title columns (bodyLines fields (shownNodes topo shown)) ++ after),
      '\n' ∉ line := by
    intro line hline
    simp only [tableLines, List.mem_append, List.mem_cons, List.not_mem_nil, or_false] at hline
    rcases hline with hline | (hline | rfl | rfl | hline | rfl | rfl) | hline
    · exact (hbefore line (List.mem_append_left _ hline)).1
    · exact (hbefore line (List.mem_append_right _ hline)).1
    · exact htitle
    · exact hcolumns
    · exact (hbody line hline).1
    · exact List.not_mem_nil
    · exact List.not_mem_nil
    · exact hafter line hline
  have hsplit := splitOn_endLines hlines []
  rw [List.append_nil] at hsplit
  have htable : before ++
      (tableLines above title columns (bodyLines fields (shownNodes topo shown)) ++ after) ++
        List.splitOn '\n' [] = (before ++ above) ++ title.toList :: columns.toList ::
      (bodyLines fields (shownNodes topo shown) ++ [] :: ([] :: (after ++ [[]]))) := by
    simp [tableLines]
  have hclear : ∀ b ∈ shownNodes topo shown, ∀ entry ∈ b.2, ∀ field ∈ fields entry,
      IsField field := by
    intro b hb
    obtain ⟨hmem, hentries⟩ := mem_shownNodes hb
    rw [hentries]
    exact hfields b.1 hmem
  have hgroups : DelimitedText.groups headOf (bodyLines fields (shownNodes topo shown)) =
      ([], (shownNodes topo shown).map fun b =>
        ((b.1.depth, b.1.name), b.2.map (rowLine fields))) :=
    groups_flatMap (fun b hb => headOf_headFields hnames (mem_shownNodes hb).1)
      (fun b hb => List.forall_mem_map.mpr fun entry hentry =>
        headOf_rowLine (hclear b hb entry hentry) (hne entry))
  have hgroup : ∀ b ∈ shownNodes topo shown,
      readGroup readFields ((b.1.depth, b.1.name), b.2.map (rowLine fields)) =
        some ((b.1.depth, b.1.name), b.2.map row) := by
    intro b hb
    have hrow : ∀ entry ∈ b.2, readRow readFields (rowLine fields entry) = some (row entry) := by
      intro entry hentry
      rw [readRow, splitOn_rowLine (hclear b hb entry hentry)]
      exact hread entry
    have hrows : (b.2.map (rowLine fields)).mapM (readRow readFields) = some (b.2.map row) := by
      rw [List.mapM_map]
      exact mapM_eq_some hrow
    rw [readGroup, hrows]
    rfl
  rw [readTable, hsplit, htable, tableBody_eq (fun hmem => (hbefore _ hmem).2 rfl)
    (fun hmem => (hbody _ hmem).2 rfl), hgroups, List.mapM_map]
  exact mapM_eq_some hgroup

end Read

/-! ## The three tables -/

structure CstateShown where
  name : List Char
  minTime : ℚ
  maxTime : ℚ
  avgTime : ℚ
  duration : ℚ
  nrdata : Int
  earlyWakings : Int
  lateWakings : Int
  deriving DecidableEq

structure PstateShown where
  freq : Int
  minTime : ℚ
  maxTime : ℚ
  avgTime : ℚ
  duration : ℚ
  count : Int
  deriving DecidableEq

/-- No number stands for `IPI`. -/
structure IrqShown where
  id : Option Int
  name : List Char
  count : Int
  earlyTriggers : Int
  lateTriggers : Int
  deriving DecidableEq

def readCstate : List (List Char) → Option CstateShown
  | [name, minTime, maxTime, avgTime, duration, nrdata, earlyWakings, lateWakings] => do
    let minTime ← readFixed minTime
    let maxTime ← readFixed maxTime
    let avgTime ← readFixed avgTime
    let duration ← readFixed duration
    let nrdata ← Decimal.readInt nrdata
    let earlyWakings ← Decimal.readInt earlyWakings
    let lateWakings ← Decimal.readInt lateWakings
    some ⟨name, minTime, maxTime, avgTime, duration, nrdata, earlyWakings, lateWakings⟩
  | _ => none

def readPstate : List (List Char) → Option PstateShown
  | [freq, minTime, maxTime, avgTime, duration, count] => do
    let freq ← Decimal.readInt freq
    let minTime ← readFixed minTime
    let maxTime ← readFixed maxTime
    let avgTime ← readFixed avgTime
    let duration ← readFixed duration
    let count ← Decimal.readInt count
    some ⟨freq, minTime, maxTime, avgTime, duration, count⟩
  | _ => none

def readIrq : List (List Char) → Option IrqShown
  | [id, name, count, earlyTriggers, lateTriggers] => do
    let count ← Decimal.readInt count
    let earlyTriggers ← Decimal.readInt earlyTriggers
    let lateTriggers ← Decimal.readInt lateTriggers
    some ⟨Decimal.readInt id, name, count, earlyTriggers, lateTriggers⟩
  | _ => none

/-- Counts as they are, times to six decimals. -/
def cstateShown (c : CpuidleCstate) : CstateShown :=
  ⟨printString c.name, rounded 6 (shownMin c.minTime), rounded 6 c.maxTime, rounded 6 c.avgTime,
    rounded 6 c.duration, c.nrdata, c.earlyWakings, c.lateWakings⟩

def pstateShown (p : CpufreqPstate) : PstateShown :=
  ⟨p.freq, rounded 6 (shownMin p.minTime), rounded 6 p.maxTime, rounded 6 p.avgTime,
    rounded 6 p.duration, p.count⟩

def irqShown (irqinfo : WakeupIrq) : IrqShown :=
  ⟨if irqinfo.id ≠ -1 then some irqinfo.id else none, irqinfo.name, irqinfo.count,
    irqinfo.earlyTriggers, irqinfo.lateTriggers⟩

section Fields

def cstateFields (c : CpuidleCstate) : List (List Char) :=
  [printString c.name, printDouble (shownMin c.minTime), printDouble c.maxTime,
    printDouble c.avgTime, printDouble c.duration, printInt c.nrdata, printInt c.earlyWakings,
    printInt c.lateWakings]

def pstateFields (p : CpufreqPstate) : List (List Char) :=
  [Nat.toDigits 10 p.freq, printDouble (shownMin p.minTime), printDouble p.maxTime,
    printDouble p.avgTime, printDouble p.duration, printInt p.count]

def irqFields (irqinfo : WakeupIrq) : List (List Char) :=
  [if irqinfo.id ≠ -1 then printInt irqinfo.id else "IPI".toList, irqinfo.name,
    printInt irqinfo.count, printInt irqinfo.earlyTriggers, printInt irqinfo.lateTriggers]

theorem csvCstateSingleState_eq (c : CpuidleCstate) :
    csvCstateSingleState c = rowLine cstateFields c ++ ['\n'] := by
  simp [csvCstateSingleState, rowLine, cstateFields, joinFields, List.intercalate]

theorem csvPstateSingleFreq_eq (p : CpufreqPstate) :
    csvPstateSingleFreq p = rowLine pstateFields p ++ ['\n'] := by
  simp [csvPstateSingleFreq, rowLine, pstateFields, joinFields, List.intercalate]

theorem csvWakeupSingleIrq_eq (irqinfo : WakeupIrq) :
    csvWakeupSingleIrq irqinfo = rowLine irqFields irqinfo ++ ['\n'] := by
  simp [csvWakeupSingleIrq, rowLine, irqFields, joinFields, List.intercalate]

theorem readFixed_printDouble (x : ℚ) : readFixed (printDouble x) = some (rounded 6 x) :=
  readFixed_printFixed (by decide) x

theorem readInt_toDigits (n : Nat) : Decimal.readInt (Nat.toDigits 10 n) = some (n : Int) := by
  have hread := readInt_printInt n
  rwa [printInt_of_nonneg (Int.natCast_nonneg n), Int.toNat_natCast] at hread

theorem readCstate_cstateFields (c : CpuidleCstate) :
    readCstate (cstateFields c) = some (cstateShown c) := by
  simp [readCstate, cstateFields, cstateShown, readFixed_printDouble, readInt_printInt]

theorem readPstate_pstateFields (p : CpufreqPstate) :
    readPstate (pstateFields p) = some (pstateShown p) := by
  simp [readPstate, pstateFields, pstateShown, readFixed_printDouble, readInt_printInt,
    readInt_toDigits]

theorem readIrq_irqFields (irqinfo : WakeupIrq) :
    readIrq (irqFields irqinfo) = some (irqShown irqinfo) := by
  have hipi : Decimal.readInt ['I', 'P', 'I'] = none := by decide
  by_cases hid : irqinfo.id = -1
  · simp [readIrq, irqFields, irqShown, readInt_printInt, hid, hipi]
  · simp [readIrq, irqFields, irqShown, readInt_printInt, hid]

end Fields

section Report

variable {datas : CpuidleDatas} {line : List Char}

/-- The texts that the report takes from the data can be fields. -/
structure ClearReport (datas : CpuidleDatas) : Prop where
  clusters : ClearNames datas.topo
  cstates : ∀ node ∈ reportNodes datas.topo, ∀ c ∈ shownCstates (datas.cstates node.ref),
    IsField (printString c.name)
  irqs : ∀ node ∈ reportNodes datas.topo, ∀ irqinfo ∈ (datas.cstates node.ref).wakeinfo,
    IsField irqinfo.name

instance (datas : CpuidleDatas) : Decidable (ClearReport datas) :=
  decidable_of_iff (ClearNames datas.topo ∧
      (∀ node ∈ reportNodes datas.topo, ∀ c ∈ shownCstates (datas.cstates node.ref),
        IsField (printString c.name)) ∧
      ∀ node ∈ reportNodes datas.topo, ∀ irqinfo ∈ (datas.cstates node.ref).wakeinfo,
        IsField irqinfo.name)
    ⟨fun h => ⟨h.1, h.2.1, h.2.2⟩, fun h => ⟨h.clusters, h.cstates, h.irqs⟩⟩

def cstateNodes (datas : CpuidleDatas) : List (ReportNode × List CpuidleCstate) :=
  shownNodes datas.topo fun ref => shownCstates (datas.cstates ref)

def pstateNodes (datas : CpuidleDatas) : List (ReportNode × List CpufreqPstate) :=
  shownNodes datas.topo fun ref => shownPstates (datas.pstates ref)

def irqNodes (datas : CpuidleDatas) : List (ReportNode × List WakeupIrq) :=
  shownNodes datas.topo fun ref => (datas.cstates ref).wakeinfo

def cstateLines (datas : CpuidleDatas) : List (List Char) :=
  tableLines [] "C-State Table"
    "cluster,core,cpu,C-state,min (us),max (us),avg (us),total (us),hits,over,under"
    (bodyLines cstateFields (cstateNodes datas))

def pstateLines (datas : CpuidleDatas) : List (List Char) :=
  tableLines [] "P-State Table" ",,,P-state (kHz),min (us),max (us),avg (us),total (us),hits"
    (bodyLines pstateFields (pstateNodes datas))

def wakeupLines (datas : CpuidleDatas) : List (List Char) :=
  tableLines [[]] "Wakeup Table" "cluster,core,cpu,IRQ,Name,Count,early,late"
    (bodyLines irqFields (irqNodes datas))

def reportLines (datas : CpuidleDatas) (display : Display) : List (List Char) :=
  (if display.idle then cstateLines datas else []) ++
    ((if display.frequency then pstateLines datas else []) ++
      (if display.wakeup then wakeupLines datas else []))

theorem displayCstateTable_print (h : Ready datas) (display : Bool) (out : List Char) :
    displayTable display csvReportOps.cstate
        (dumpCstates csvReportOps.cstate.toReportOps (unpaired datas)) (unpaired datas).topo true
        out =
      .ok (out ++ endLines '\n' (if display then cstateLines datas else [])) := by
  have hheader : csvCstateTableHeader = endLines '\n' ([] ++ ["C-State Table".toList,
      "cluster,core,cpu,C-state,min (us),max (us),avg (us),total (us),hits,over,under".toList]) :=
    rfl
  apply displayTable_print h.mapped hheader csvCstateSingleState_eq
  intro node _ out
  obtain ⟨top, hok⟩ := h.cstates node.ref
  exact displayCstates_print _ hok.cstateMax node.name out

theorem displayPstateTable_print (h : Ready datas) (display : Bool) (out : List Char) :
    displayTable display csvReportOps.pstate
        (dumpPstates csvReportOps.pstate.toReportOps (unpaired datas)) (unpaired datas).topo false
        out =
      .ok (out ++ endLines '\n' (if display then pstateLines datas else [])) := by
  have hheader : csvPstateTableHeader = endLines '\n' ([] ++ ["P-State Table".toList,
      ",,,P-state (kHz),min (us),max (us),avg (us),total (us),hits".toList]) := rfl
  apply displayTable_print h.mapped hheader csvPstateSingleFreq_eq
  intro node _ out
  exact displayPstates_print _ (h.pstates node.ref).max node.name out

theorem displayWakeupTable_print (h : Ready datas) (display : Bool) (out : List Char) :
    displayTable display csvReportOps.wakeup
        (dumpWakeup csvReportOps.wakeup.toReportOps (unpaired datas)) (unpaired datas).topo true
        out =
      .ok (out ++ endLines '\n' (if display then wakeupLines datas else [])) := by
  have hheader : csvWakeupTableHeader = endLines '\n' ([[]] ++ ["Wakeup Table".toList,
      "cluster,core,cpu,IRQ,Name,Count,early,late".toList]) := rfl
  apply displayTable_print h.mapped hheader csvWakeupSingleIrq_eq
  intro node _ out
  exact displayWakeup_print _ node.name out

theorem displayTables_print (h : Ready datas) (display : Display) :
    displayTables csvReportOps display (unpaired datas) [] =
      .ok (endLines '\n' (reportLines datas display)) := by
  simp only [displayTables, bind, Except.bind, displayCstateTable_print h,
    displayPstateTable_print h, displayWakeupTable_print h, reportLines, endLines_append,
    List.append_assoc, List.nil_append]

def Plain (line : List Char) : Prop :=
  '\n' ∉ line ∧ (line = [] ∨ line.head? = some 'c' ∨ line.head? = some ',')

instance (line : List Char) : Decidable (Plain line) :=
  inferInstanceAs (Decidable (_ ∧ _))

theorem plain_bodyLines {α : Type} {topo : CpuTopology} {shown : RecordRef → List α}
    {fields : α → List (List Char)} (hnames : ClearNames topo)
    (hfields : ClearRows topo shown fields) :
    ∀ line ∈ bodyLines fields (shownNodes topo shown), Plain line := fun _ hline =>
  have hmem := mem_bodyLines hnames hfields hline
  ⟨hmem.1, .inr hmem.2⟩

theorem mem_tableLines {above body : List (List Char)} {title columns : String}
    (h : line ∈ tableLines above title columns body) (habove : ∀ line ∈ above, Plain line)
    (hcolumns : Plain columns.toList) (hbody : ∀ line ∈ body, Plain line) :
    line = title.toList ∨ Plain line := by
  have hnil : Plain [] := by decide
  simp only [tableLines, List.mem_append, List.mem_cons, List.not_mem_nil, or_false] at h
  rcases h with habv | rfl | rfl | hbdy | rfl | rfl
  · exact .inr (habove line habv)
  · exact .inl rfl
  · exact .inr hcolumns
  · exact .inr (hbody line hbdy)
  · exact .inr hnil
  · exact .inr hnil

theorem ClearReport.cstateRows (h : ClearReport datas) :
    ClearRows datas.topo (fun ref => shownCstates (datas.cstates ref)) cstateFields := by
  intro node hnode c hc
  simp [cstateFields, h.cstates node hnode c hc, isField_printDouble, isField_printInt]

theorem clear_pstateRows :
    ClearRows datas.topo (fun ref => shownPstates (datas.pstates ref)) pstateFields := by
  intro node hnode p hp
  simp [pstateFields, isField_printDouble, isField_printInt, isField_toDigits]

theorem ClearReport.irqRows (h : ClearReport datas) :
    ClearRows datas.topo (fun ref => (datas.cstates ref).wakeinfo) irqFields := by
  intro node hnode irqinfo hirq
  have hid : IsField (if irqinfo.id ≠ -1 then printInt irqinfo.id else "IPI".toList) := by
    split
    · exact isField_printInt irqinfo.id
    · decide
  simp only [irqFields, List.mem_cons, List.not_mem_nil, or_false, forall_eq_or_imp, forall_eq]
  exact ⟨hid, h.irqs node hnode irqinfo hirq, isField_printInt _, isField_printInt _,
    isField_printInt _⟩

theorem ClearReport.mem_cstateLines (h : ClearReport datas) (hline : line ∈ cstateLines datas) :
    line = "C-State Table".toList ∨ Plain line :=
  mem_tableLines hline (by simp) (by decide) (plain_bodyLines h.clusters h.cstateRows)

theorem ClearReport.mem_pstateLines (h : ClearReport datas) (hline : line ∈ pstateLines datas) :
    line = "P-State Table".toList ∨ Plain line :=
  mem_tableLines hline (by simp) (by decide) (plain_bodyLines h.clusters clear_pstateRows)

theorem ClearReport.mem_wakeupLines (h : ClearReport datas) (hline : line ∈ wakeupLines datas) :
    line = "Wakeup Table".toList ∨ Plain line :=
  mem_tableLines hline (by decide) (by decide) (plain_bodyLines h.clusters h.irqRows)

theorem ne_title {title other : String} (hclear : '\n' ∉ other.toList)
    (hne : other.toList ≠ title.toList) (htitle : ¬ Plain title.toList)
    (h : line = other.toList ∨ Plain line) : '\n' ∉ line ∧ line ≠ title.toList := by
  cases h with
  | inl heq => exact heq ▸ ⟨hclear, hne⟩
  | inr hplain => exact ⟨hplain.1, fun heq => htitle (heq ▸ hplain)⟩

theorem mem_of_displayed {shown : Bool} {lines : List (List Char)}
    (h : line ∈ if shown then lines else []) : line ∈ lines := by
  cases shown
  · cases h
  · exact h

variable {display : Display}

theorem read_cstateTable (h : ClearReport datas) (hidle : display.idle = true) :
    readTable "C-State Table" readCstate (endLines '\n' (reportLines datas display)) =
      some (shownTable datas.topo (fun ref => shownCstates (datas.cstates ref)) cstateShown) := by
  have hbefore : ∀ line ∈ ([] ++ [] : List (List Char)),
      '\n' ∉ line ∧ line ≠ "C-State Table".toList := by simp
  have hafter : ∀ line ∈ (if display.frequency then pstateLines datas else []) ++
      (if display.wakeup then wakeupLines datas else []), '\n' ∉ line := by
    intro line hline
    cases List.mem_append.mp hline with
    | inl hpstate =>
      exact (ne_title (by decide) (by decide) (show ¬ Plain "C-State Table".toList by decide)
        (h.mem_pstateLines (mem_of_displayed hpstate))).1
    | inr hwakeup =>
      exact (ne_title (by decide) (by decide) (show ¬ Plain "C-State Table".toList by decide)
        (h.mem_wakeupLines (mem_of_displayed hwakeup))).1
  have hlines : reportLines datas display = [] ++ (cstateLines datas ++
      ((if display.frequency then pstateLines datas else []) ++
        if display.wakeup then wakeupLines datas else [])) := by
    rw [reportLines, if_pos hidle, List.nil_append]
  rw [hlines]
  exact readTable_eq h.clusters h.cstateRows (fun _ => List.cons_ne_nil _ _)
    readCstate_cstateFields hbefore (by decide) (by decide) hafter

theorem read_pstateTable (h : ClearReport datas) (hfrequency : display.frequency = true) :
    readTable "P-State Table" readPstate (endLines '\n' (reportLines datas display)) =
      some (shownTable datas.topo (fun ref => shownPstates (datas.pstates ref)) pstateShown) := by
  have hbefore : ∀ line ∈ (if display.idle then cstateLines datas else []) ++ [],
      '\n' ∉ line ∧ line ≠ "P-State Table".toList := by
    intro line hline
    rw [List.append_nil] at hline
    exact ne_title (by decide) (by decide) (by decide)
      (h.mem_cstateLines (mem_of_displayed hline))
  have hafter : ∀ line ∈ if display.wakeup then wakeupLines datas else [], '\n' ∉ line := by
    intro line hline
    exact (ne_title (by decide) (by decide) (show ¬ Plain "P-State Table".toList by decide)
      (h.mem_wakeupLines (mem_of_displayed hline))).1
  rw [reportLines, if_pos hfrequency]
  exact readTable_eq h.clusters clear_pstateRows (fun _ => List.cons_ne_nil _ _)
    readPstate_pstateFields hbefore (by decide) (by decide) hafter

theorem read_wakeupTable (h : ClearReport datas) (hwakeup : display.wakeup = true) :
    readTable "Wakeup Table" readIrq (endLines '\n' (reportLines datas display)) =
      some (shownTable datas.topo (fun ref => (datas.cstates ref).wakeinfo) irqShown) := by
  have hbefore : ∀ line ∈ ((if display.idle then cstateLines datas else []) ++
      if display.frequency then pstateLines datas else []) ++ [[]],
      '\n' ∉ line ∧ line ≠ "Wakeup Table".toList := by
    intro line hline
    simp only [List.mem_append, List.mem_singleton] at hline
    rcases hline with (hcstate | hpstate) | rfl
    · exact ne_title (by decide) (by decide) (by decide)
        (h.mem_cstateLines (mem_of_displayed hcstate))
    · exact ne_title (by decide) (by decide) (by decide)
        (h.mem_pstateLines (mem_of_displayed hpstate))
    · decide
  have hafter : ∀ line ∈ ([] : List (List Char)), '\n' ∉ line := by simp
  have hlines : reportLines datas display = ((if display.idle then cstateLines datas else []) ++
      if display.frequency then pstateLines datas else []) ++ (wakeupLines datas ++ []) := by
    rw [reportLines, if_pos hwakeup, List.append_nil, List.append_assoc]
  rw [hlines]
  exact readTable_eq h.clusters h.irqRows (fun _ => List.cons_ne_nil _ _)
    readIrq_irqFields hbefore (by decide) (by decide) hafter

/-- The report gives back each table that is displayed. -/
theorem csv_report_read (hready : Ready datas) (h : ClearReport datas) (display : Display) :
    ∃ text, displayTables csvReportOps display (unpaired datas) [] = .ok text ∧
      (display.idle = true → readTable "C-State Table" readCstate text =
        some (shownTable datas.topo (fun ref => shownCstates (datas.cstates ref)) cstateShown)) ∧
      (display.frequency = true → readTable "P-State Table" readPstate text =
        some (shownTable datas.topo (fun ref => shownPstates (datas.pstates ref)) pstateShown)) ∧
      (display.wakeup = true → readTable "Wakeup Table" readIrq text =
        some (shownTable datas.topo (fun ref => (datas.cstates ref).wakeinfo) irqShown)) :=
  ⟨_, displayTables_print hready display, read_cstateTable h, read_pstateTable h,
    read_wakeupTable h⟩

end Report

def idleTrace : List TraceEvent :=
  [.power (.cpuChangePstate 0 100 0), .power (.storeData 1 0 0), .storeIrq 0 5 ['t'],
    .power (.storeData 3 (-1) 0), .power (.cpuChangePstate 0 200 4)]

theorem csv_report_read_idle :
    ∃ datas, Runs.run traceStep pairDatas idleTrace = .ok datas ∧
      Ready datas ∧ ClearReport datas ∧
      ∃ text, displayTables csvReportOps ⟨true, true, true⟩ (unpaired datas) [] = .ok text ∧
        (true = true → readTable "C-State Table" readCstate text =
          some (shownTable datas.topo (fun ref => shownCstates (datas.cstates ref)) cstateShown)) ∧
        (true = true → readTable "P-State Table" readPstate text =
          some (shownTable datas.topo (fun ref => shownPstates (datas.pstates ref)) pstateShown)) ∧
        (true = true → readTable "Wakeup Table" readIrq text =
          some (shownTable datas.topo (fun ref => (datas.cstates ref).wakeinfo) irqShown)) := by
  have hvalid : ∀ event ∈ idleTrace, ValidCall pairDatas.topo event := by
    simp [idleTrace, ValidCall, ValidEvent, cpuIds_pairDatas, CstateRecord.ValidState,
      maxcstate]
  have hclear : (Runs.run traceStep pairDatas idleTrace).map
      (fun datas => decide (ClearReport datas)) = .ok true := by decide +kernel
  obtain ⟨datas, hrun, hready⟩ := traceRun_total (readyOn_of_loaded pairDatas_loaded) hvalid
  rw [hrun] at hclear
  have hclear : ClearReport datas := of_decide_eq_true (Except.ok.inj hclear)
  exact ⟨datas, hrun, hready.ready, hclear,
    csv_report_read hready.ready hclear ⟨true, true, true⟩⟩

end Idlestat.Theory.CsvReport
