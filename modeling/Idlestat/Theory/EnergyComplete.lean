import Idlestat.Theory.EnergyIndices

/-! Which accepted energy model files are complete. The parser refuses too many
rows and a second line for most clusters, but at the end of the file it does not
ask whether anything is missing. -/
namespace Idlestat.Theory.EnergyComplete

open Idlestat.Library Idlestat.Library.Scan Idlestat.Library.TextFile Idlestat.Model.Topology
  Idlestat.Model.TopologyFile Idlestat.Model.TraceLine Idlestat.Model.EnergyModel
  Idlestat.Theory.TopologyNames Idlestat.Theory.EnergyOutline Idlestat.Theory.EnergyIndices

/-! ## The two tables of a cluster -/

inductive Table
  | capStates
  | cStates
  deriving DecidableEq

inductive Row
  | capState (pstate : PstateEnergyInfo)
  | cState (cstate : CstateEnergyInfo)

namespace Table

def state : Table → EnergyFileParseState
  | capStates => .parsingCapStates
  | cStates => .parsingCStates

def declared (table : Table) (states : Nat × Nat) : Nat :=
  match table with
  | capStates => states.1
  | cStates => states.2

def rows (table : Table) (info : ClusterEnergyInfo) : List Row :=
  match table with
  | capStates => info.pEnergy.map .capState
  | cStates => info.cEnergy.map .cState

def rowValue (table : Table) (buffer : List Char) : Option Row :=
  match table with
  | capStates =>
    match (sscanf pstateFormat buffer).assigned with
    | [.uint speed, .uint clustP, .uint coreP] => some (.capState ⟨speed, clustP, coreP⟩)
    | _ => none
  | cStates =>
    match (sscanf cstateFormat buffer).assigned with
    | [.str name, .uint clustP, .uint coreP] => some (.cState ⟨name, clustP, coreP⟩)
    | _ => none

def access (table : Table) (i row : Nat) : Access :=
  match table with
  | capStates => .capState i row
  | cStates => .cState i row

def slot (table : Table) (i : Nat) : Access → Option Nat
  | .capState j row => if table = capStates ∧ j = i then some row else none
  | .cState j row => if table = cStates ∧ j = i then some row else none
  | .cluster _ => none

end Table

/-! ## Complete files -/

def clusterCounts (lines : List (List Char)) : List Nat :=
  (lines.filter fun buffer => lineKind buffer = .clusters).map clusterCount

/-- The letters and numbers of the cluster lines, the latest first. -/
def infos (parts : List Part) : List (Char × Option (Nat × Nat)) :=
  (parts.filter fun part => part.state = .parsedClusterInfo).map fun part =>
    (part.letter, part.states)

def clusterNumbers (signedChar : Bool) (parts : List Part) : List Int :=
  (infos parts).map fun info => clusterNumber signedChar info.1

def Heads (signedChar : Bool) (table : Table) (i : Nat) (part : Part) : Prop :=
  part.state = table.state ∧ clusterNumber signedChar part.letter = i

instance {signedChar : Bool} {table : Table} {i : Nat} {part : Part} :
    Decidable (Heads signedChar table i part) :=
  inferInstanceAs (Decidable (_ ∧ _))

/-- The rows under each heading of one table of cluster `i`, the latest first. -/
def sectionRows (signedChar : Bool) (table : Table) (i : Nat) (parts : List Part) :
    List (List (List Char)) :=
  (parts.filter fun part => Heads signedChar table i part).map Part.rows

/-- The rows of one table of cluster `i` in the order of the file. -/
def fileRows (signedChar : Bool) (table : Table) (i : Nat) (parts : List Part) :
    List (List Char) :=
  (sectionRows signedChar table i parts).reverse.flatten

/-- All subscripts of a run. -/
def history (env : ParseEnv) : List (List Char) → EnergyParse → List Access
  | [], _ => []
  | buffer :: rest, model =>
    accesses env model buffer ++
      match round env model buffer with
      | .ok next => history env rest next
      | .error _ => []

/-- The rows of one table of cluster `i` that a run stores, one for each line. -/
def storedRows (env : ParseEnv) (table : Table) (i : Nat) (lines : List (List Char)) : List Nat :=
  (history env lines (startModel env)).filterMap (table.slot i)

/-- Each of the declared rows is stored, once and in order, and holds what its line
in the cluster's sections says. -/
def Holds (env : ParseEnv) (lines : List (List Char)) (model : EnergyParse) (table : Table)
    (i rows : Nat) : Prop :=
  storedRows env table i lines = List.range rows ∧
    ∃ info, model.clusterEnergyTable[i]? = some info ∧
      (table.rows info).map some =
        (fileRows env.signedChar table i (outline env.tmp lines)).map table.rowValue

/-- The number of clusters is declared once, each of them has one cluster line, all
cluster lines have all of their parts, and both tables hold the declared rows. -/
structure Complete (env : ParseEnv) (lines : List (List Char)) (model : EnergyParse) : Prop where
  count : 0 < model.clustersInEnergyFile ∧ clusterCounts lines = [model.clustersInEnergyFile]
  whole : ∀ info ∈ infos (outline env.tmp lines), info.2 ≠ none
  once : ∀ i < model.clustersInEnergyFile,
    (clusterNumbers env.signedChar (outline env.tmp lines)).count (i : Int) = 1
  rows : ∀ letter states (i : Nat), (letter, some states) ∈ infos (outline env.tmp lines) →
    clusterNumber env.signedChar letter = i →
      ∀ table : Table, Holds env lines model table i (table.declared states)

/-- What the parser does not check: there is a number of clusters and the first one
is not 0, each of them has a cluster line, all cluster lines have all of their
parts, none is repeated after 0 cap states, and no table lacks rows or has rows
under two headings. -/
structure NothingMissing (env : ParseEnv) (lines : List (List Char)) : Prop where
  count : ∃ clusters rest, clusterCounts lines = clusters :: rest ∧ clusters ≠ 0 ∧
    ∀ i < clusters, (i : Int) ∈ clusterNumbers env.signedChar (outline env.tmp lines)
  whole : ∀ info ∈ infos (outline env.tmp lines), info.2 ≠ none
  repeated : (infos (outline env.tmp lines)).Pairwise fun later earlier =>
    clusterNumber env.signedChar later.1 = clusterNumber env.signedChar earlier.1 →
      ∀ states, earlier.2 = some states → states.1 ≠ 0
  rows : ∀ letter states (i : Nat), (letter, some states) ∈ infos (outline env.tmp lines) →
    clusterNumber env.signedChar letter = i → ∀ table : Table,
      table.declared states ≤ (fileRows env.signedChar table i (outline env.tmp lines)).length ∧
        ((sectionRows env.signedChar table i (outline env.tmp lines)).filter
          fun rows => rows ≠ []).length ≤ 1

section Counting

variable {α : Type} {sections : List (List α)} {n : Nat}

/-- The subscripts of rows that are counted from 0 in each section. -/
def counted (sections : List (List α)) : List Nat :=
  sections.flatMap fun rows => List.range rows.length

theorem length_counted : (counted sections).length = sections.flatten.length := by
  simp [counted, List.length_flatMap, List.length_flatten]

theorem count_counted : (counted sections).count 0 = (sections.filter (· ≠ [])).length := by
  induction sections with
  | nil => rfl
  | cons rows sections ih =>
    have hcons : counted (rows :: sections) = List.range rows.length ++ counted sections := rfl
    rw [hcons, List.count_append, ih]
    cases rows with
    | nil => simp
    | cons row rows => simp [List.range_succ_eq_map, List.count_eq_zero_of_not_mem]; omega

theorem counted_single (h : (sections.filter (· ≠ [])).length ≤ 1) :
    counted sections = List.range sections.flatten.length := by
  induction sections with
  | nil => rfl
  | cons rows sections ih =>
    cases rows with
    | nil => simpa [counted] using ih (by simpa using h)
    | cons row rows =>
      have hrest : ∀ others ∈ sections, others = [] := by simpa using h
      have hflatten : sections.flatten = [] := List.flatten_eq_nil_iff.mpr hrest
      have hcounted : counted sections = [] := by
        apply List.length_eq_zero_iff.mp
        rw [length_counted, hflatten, List.length_nil]
      change List.range (row :: rows).length ++ counted sections =
        List.range ((row :: rows) ++ sections.flatten).length
      rw [hcounted, hflatten, List.append_nil, List.append_nil]

theorem length_flatten_le (hfits : ∀ rows ∈ sections, rows.length ≤ n)
    (h : (sections.filter (· ≠ [])).length ≤ 1) : sections.flatten.length ≤ n := by
  rw [← List.flatten_filter_ne_nil]
  cases hfilter : sections.filter (· ≠ []) with
  | nil => simp
  | cons rows others =>
    have hrows : rows ∈ sections := by
      apply List.mem_of_mem_filter (p := (· ≠ []))
      rw [hfilter]
      exact List.mem_cons_self
    rw [hfilter] at h
    have hothers : others = [] := by simpa using h
    rw [hothers, List.flatten_singleton]
    exact hfits rows hrows

/-- Sections of at most `n` rows are counted as one of `n` rows exactly if there are
at least `n` rows and all of them are in one section. -/
theorem counted_eq_range (hfits : ∀ rows ∈ sections, rows.length ≤ n) :
    counted sections = List.range n ↔
      n ≤ sections.flatten.length ∧ (sections.filter (· ≠ [])).length ≤ 1 := by
  constructor
  · intro h
    have hlength := congrArg List.length h
    rw [length_counted, List.length_range] at hlength
    refine ⟨le_of_eq hlength.symm, ?_⟩
    rw [← count_counted, h]
    exact List.nodup_iff_count_le_one.mp List.nodup_range 0
  · intro h
    rw [counted_single h.2, le_antisymm (length_flatten_le hfits h.2) h.1]

def latestRows (sections : List (List α)) : List α :=
  match sections with
  | [] => []
  | [] :: sections => latestRows sections
  | (row :: rows) :: _ => row :: rows

theorem latestRows_cons {rows : List α} (h : rows ≠ []) :
    latestRows (rows :: sections) = rows := by
  obtain ⟨row, rest, rfl⟩ := List.exists_cons_of_ne_nil h
  rfl

theorem flatten_single (h : (sections.filter (· ≠ [])).length ≤ 1) :
    sections.reverse.flatten = latestRows sections := by
  induction sections with
  | nil => rfl
  | cons rows sections ih =>
    rw [List.reverse_cons, List.flatten_append, List.flatten_singleton]
    cases rows with
    | nil =>
      rw [List.append_nil]
      exact ih (by simpa using h)
    | cons row rows =>
      have hrest : ∀ others ∈ sections, others = [] := by simpa using h
      have hflatten : sections.reverse.flatten = [] :=
        List.flatten_eq_nil_iff.mpr fun others hothers => hrest others (List.mem_reverse.mp hothers)
      rw [hflatten]
      rfl

theorem map_some_eq {β : Type} {rows : List β} {lines : List α} {value : α → Option β}
    (hlength : rows.length = lines.length)
    (hvalue : ∀ (k : Nat) line, lines[k]? = some line → rows[k]? = value line) :
    rows.map some = lines.map value := by
  apply List.ext_getElem?
  intro k
  rw [List.getElem?_map, List.getElem?_map]
  cases hline : lines[k]? with
  | none =>
    have hnone : rows[k]? = none := by
      rw [List.getElem?_eq_none_iff, hlength]
      exact List.getElem?_eq_none_iff.mp hline
    rw [hnone]
    rfl
  | some line =>
    have hk : k < rows.length := hlength ▸ (List.getElem?_eq_some_iff.mp hline).1
    have hrow : rows[k]? = some rows[k] := List.getElem?_eq_getElem hk
    rw [hrow, Option.map_some, Option.map_some, ← hvalue k line hline, hrow]

end Counting

section Outline

variable {signedChar : Bool} {tmp : Char} {parts rest : List Part} {part : Part}
  {buffer : List Char} {table : Table} {i : Nat}

theorem state_ne (table : Table) : table.state ≠ .parsedClusterInfo := by
  cases table <;> decide

theorem infos_openPart (table : Table) : infos (openPart table.state parts) = infos parts := by
  cases parts with
  | nil => rfl
  | cons part rest =>
    unfold openPart infos
    rw [List.filter_cons_of_neg (by simpa using state_ne table)]

theorem infos_addRow : infos (addRow buffer parts) = infos parts := by
  cases parts with
  | nil => rfl
  | cons part rest =>
    unfold addRow infos
    by_cases hstate : part.state = .parsedClusterInfo
    · rw [List.filter_cons_of_pos (by simpa using hstate),
        List.filter_cons_of_pos (by simpa using hstate)]
      rfl
    · rw [List.filter_cons_of_neg (by simpa using hstate),
        List.filter_cons_of_neg (by simpa using hstate)]

theorem infos_extend : infos (extend tmp parts buffer) =
    if lineKind buffer = .clusterInfo then
      ((clusterLetter buffer).getD (lastLetter tmp parts), declaredStates buffer) :: infos parts
    else infos parts := by
  unfold extend
  cases lineKind buffer with
  | pstates => exact infos_openPart .capStates
  | cstates => exact infos_openPart .cStates
  | row => exact infos_addRow
  | clusterInfo | skipped | clusters | wakeup => rfl

def Owned (parts : List Part) : Prop :=
  ∀ part ∈ parts, (part.letter, part.states) ∈ infos parts

theorem owned_copy {others : List Part} (h : Owned parts) (hinfos : infos others = infos parts)
    (hold : ∀ part ∈ others, ∃ old ∈ parts, old.letter = part.letter ∧ old.states = part.states) :
    Owned others := by
  intro part hpart
  obtain ⟨old, hmem, hletter, hstates⟩ := hold part hpart
  rw [hinfos, ← hletter, ← hstates]
  exact h old hmem

theorem owned_extend (h : Owned parts) : Owned (extend tmp parts buffer) := by
  unfold extend
  cases lineKind buffer with
  | clusterInfo =>
    intro part hpart
    cases List.mem_cons.mp hpart with
    | inl heq =>
      rw [heq]
      exact List.mem_cons_self
    | inr hmem => exact List.mem_cons_of_mem _ (h part hmem)
  | pstates => exact owned_copy h (infos_openPart .capStates) fun _ => mem_openPart
  | cstates => exact owned_copy h (infos_openPart .cStates) fun _ => mem_openPart
  | row => exact owned_copy h infos_addRow fun _ => mem_addRow
  | skipped | clusters | wakeup => exact h

theorem owned_outline (lines : List (List Char)) : Owned (outline tmp lines) := by
  induction lines using List.reverseRecOn with
  | nil => simp [Owned, outline]
  | append_singleton past buffer ih =>
    rw [outline_concat]
    exact owned_extend ih

theorem sectionRows_pos (h : Heads signedChar table i part) :
    sectionRows signedChar table i (part :: rest) =
      part.rows :: sectionRows signedChar table i rest := by
  unfold sectionRows
  rw [List.filter_cons_of_pos (by simpa using h), List.map_cons]

theorem sectionRows_neg (h : ¬ Heads signedChar table i part) :
    sectionRows signedChar table i (part :: rest) = sectionRows signedChar table i rest := by
  unfold sectionRows
  rw [List.filter_cons_of_neg (by simpa using h)]

theorem sectionRows_extend (hkind : lineKind buffer ≠ .row) :
    sectionRows signedChar table i (extend tmp parts buffer) =
        sectionRows signedChar table i parts ∨
      sectionRows signedChar table i (extend tmp parts buffer) =
        [] :: sectionRows signedChar table i parts := by
  have hopen : ∀ state, sectionRows signedChar table i (openPart state parts) =
        sectionRows signedChar table i parts ∨
      sectionRows signedChar table i (openPart state parts) =
        [] :: sectionRows signedChar table i parts := by
    intro state
    cases parts with
    | nil => exact .inl rfl
    | cons first rest =>
      by_cases hheads : Heads signedChar table i { first with state := state, rows := [] }
      · exact .inr (sectionRows_pos hheads)
      · exact .inl (sectionRows_neg hheads)
  unfold extend
  cases hline : lineKind buffer with
  | clusterInfo =>
    refine .inl (sectionRows_neg fun hheads => ?_)
    exact state_ne table hheads.1.symm
  | pstates | cstates => exact hopen _
  | row => exact absurd hline hkind
  | skipped | clusters | wakeup => exact .inl rfl

theorem sectionRows_row (hkind : lineKind buffer = .row) (h : Heads signedChar table i part) :
    sectionRows signedChar table i (extend tmp (part :: rest) buffer) =
      (part.rows ++ [buffer]) :: sectionRows signedChar table i rest := by
  have hheads : Heads signedChar table i { part with rows := part.rows ++ [buffer] } := h
  rw [extend, hkind]
  exact sectionRows_pos hheads

theorem sectionRows_elsewhere (hkind : lineKind buffer = .row)
    (h : ¬ Heads signedChar table i part) :
    sectionRows signedChar table i (extend tmp (part :: rest) buffer) =
      sectionRows signedChar table i (part :: rest) := by
  have hheads : ¬ Heads signedChar table i { part with rows := part.rows ++ [buffer] } := h
  rw [extend, hkind, sectionRows_neg h]
  exact sectionRows_neg hheads

end Outline

section Rounds

variable {env : ParseEnv} {model next : EnergyParse} {buffer : List Char} {parts : List Part}
  {part : Part} {i : Nat} {info info' : ClusterEnergyInfo}

theorem clusters_step (h : Step env model buffer next) (hkind : lineKind buffer = .clusters) :
    model.clustersInEnergyFile = 0 ∧ next.clustersInEnergyFile = clusterCount buffer := by
  cases h with
  | clusters _ hfirst => exact ⟨hfirst, rfl⟩
  | skipped hother | clusterInfo hother | pstates hother | cstates hother | wakeup hother
  | capState hother | cState hother | otherRow hother =>
    exact absurd (hkind.symm.trans hother) nofun

theorem clusters_kept (h : Step env model buffer next) (hkind : lineKind buffer ≠ .clusters) :
    next.clustersInEnergyFile = model.clustersInEnergyFile := by
  cases h with
  | clusters hclusters => exact absurd hclusters hkind
  | _ => rfl

structure Stored (env : ParseEnv) (model next : EnergyParse) (buffer : List Char) (part : Part)
    (i : Nat) (info info' : ClusterEnergyInfo) (table : Table) (row : Row) : Prop where
  state : part.state = table.state
  value : table.rowValue buffer = some row
  room : part.rows.length < (table.rows info).length
  entry : next.clusterEnergyTable = model.clusterEnergyTable.set i info'
  rows : table.rows info' = (table.rows info).set part.rows.length row
  others : ∀ other, other ≠ table → other.rows info' = other.rows info
  states : info'.numberCapStates = info.numberCapStates ∧
    info'.numberCStates = info.numberCStates
  accesses : accesses env model buffer = [.cluster i, table.access i part.rows.length]

theorem accesses_row (hkind : lineKind buffer = .row) (hclustp : model.clustp = some i) :
    accesses env model buffer = .cluster i :: rowAccesses model buffer i := by
  rw [accesses, hkind]
  simp only [hclustp]

/-- A row is stored, or is above the first heading of its cluster. -/
theorem row_step (h : Follows env parts model) (hstep : Step env model buffer next)
    (hkind : lineKind buffer = .row) :
    ∃ part rest i info, parts = part :: rest ∧ At env model part i info ∧
      ((∃ table row info', Stored env model next buffer part i info info' table row) ∨
        ((∀ table : Table, part.state ≠ table.state) ∧ next = model ∧
          accesses env model buffer = [.cluster i])) := by
  cases hstep with
  | @capState _ i info hclustp hinfo hstate speed clustP coreP hscan hroom =>
    obtain ⟨part, rest, hparts, hat, halloc⟩ := exists_at h hclustp hinfo
    have hpart : part.state = Table.state .capStates := hat.state.symm.trans hstate
    have hcounter : model.currentPstate = part.rows.length := hat.pstate hpart
    refine ⟨part, rest, i, info, hparts, hat, .inl ⟨.capStates, .capState ⟨speed, clustP, coreP⟩,
      _, hpart, ?_, ?_, rfl, ?_, ?_, ⟨rfl, rfl⟩, ?_⟩⟩
    · simp only [Table.rowValue, hscan]
    · rw [Table.rows, List.length_map, halloc.1, ← hcounter]
      exact hroom
    · simp only [Table.rows, List.map_set, hcounter]
    · intro other hother
      cases other with
      | capStates => exact absurd rfl hother
      | cStates => rfl
    · rw [accesses_row hkind hclustp, rowAccesses, hinfo, ← hcounter]
      simp only [hstate, EnergyParse.parsePstate, hscan, if_neg (not_le.mpr hroom)]
      rfl
  | @cState _ i info hclustp hinfo hstate name clustP coreP hscan hname hroom =>
    obtain ⟨part, rest, hparts, hat, halloc⟩ := exists_at h hclustp hinfo
    have hpart : part.state = Table.state .cStates := hat.state.symm.trans hstate
    have hcounter : model.currentCstate = part.rows.length := hat.cstate hpart
    refine ⟨part, rest, i, info, hparts, hat, .inl ⟨.cStates, .cState ⟨name, clustP, coreP⟩,
      _, hpart, ?_, ?_, rfl, ?_, ?_, ⟨rfl, rfl⟩, ?_⟩⟩
    · simp only [Table.rowValue, hscan]
    · rw [Table.rows, List.length_map, halloc.2, ← hcounter]
      exact hroom
    · simp only [Table.rows, List.map_set, hcounter]
    · intro other hother
      cases other with
      | capStates => rfl
      | cStates => exact absurd rfl hother
    · rw [accesses_row hkind hclustp, rowAccesses, hinfo, ← hcounter]
      simp only [hstate, EnergyParse.parseCstate, hscan, if_neg (not_le.mpr hname),
        if_neg (not_le.mpr hroom)]
      rfl
  | otherRow _ hclustp hinfo hcap hc =>
    obtain ⟨part, rest, hparts, hat, halloc⟩ := exists_at h hclustp hinfo
    refine ⟨part, rest, _, _, hparts, hat, .inr ⟨?_, rfl, ?_⟩⟩
    · intro table hstate
      cases table with
      | capStates => exact hcap (hat.state.trans hstate)
      | cStates => exact hc (hat.state.trans hstate)
    · rw [accesses_row hkind hclustp, rowAccesses, hinfo]
      dsimp only
      split
      · next hstate => exact absurd hstate hcap
      · next hstate => exact absurd hstate hc
      · rfl
  | skipped hother | clusters hother | clusterInfo hother | pstates hother | cstates hother
  | wakeup hother => exact absurd (hkind.symm.trans hother) nofun

theorem stored_rows {table : Table} {row : Row}
    (h : Stored env model next buffer part i info info' table row)
    (hrows : ∀ (k : Nat) line, part.rows[k]? = some line →
      (table.rows info)[k]? = table.rowValue line) :
    ∀ (k : Nat) line, (part.rows ++ [buffer])[k]? = some line →
      (table.rows info')[k]? = table.rowValue line := by
  intro k line hline
  rw [h.rows, List.getElem?_set]
  rcases Nat.lt_trichotomy k part.rows.length with hk | hk | hk
  · rw [List.getElem?_append_left hk] at hline
    rw [if_neg (Nat.ne_of_gt hk)]
    exact hrows k line hline
  · subst hk
    have hlast : buffer = line := by simpa using hline
    rw [if_pos rfl, if_pos h.room, ← hlast, h.value]
  · have hnone : (part.rows ++ [buffer]).length ≤ k := by
      rw [List.length_append, List.length_singleton]
      exact hk
    rw [List.getElem?_eq_none hnone] at hline
    cases hline

structure Same (info info' : ClusterEnergyInfo) : Prop where
  rows : ∀ table : Table, table.rows info' = table.rows info
  states : info'.numberCapStates = info.numberCapStates ∧
    info'.numberCStates = info.numberCStates

theorem same_refl : Same info info :=
  ⟨fun _ => rfl, rfl, rfl⟩

theorem same_set {old : List ClusterEnergyInfo} {j : Nat} {new : ClusterEnergyInfo}
    (hinfo : old[i]? = some info) (hentry : (old.set i info')[j]? = some new)
    (hsame : Same info info') : ∃ before, old[j]? = some before ∧ Same before new := by
  rw [List.getElem?_set] at hentry
  split at hentry
  · next heq =>
    subst heq
    split at hentry
    · obtain rfl := Option.some.inj hentry
      exact ⟨info, hinfo, hsame⟩
    · cases hentry
  · exact ⟨new, hentry, same_refl⟩

def Opens (env : ParseEnv) (parts : List Part) (buffer : List Char) (i : Nat) : Prop :=
  lineKind buffer = .clusterInfo ∧ clusterNumber env.signedChar
    ((clusterLetter buffer).getD (lastLetter env.tmp parts)) = i

theorem other_step (h : Follows env parts model) (hstep : Step env model buffer next)
    (hkind : lineKind buffer ≠ .row) (hother : ¬ Opens env parts buffer i)
    (hentry : next.clusterEnergyTable[i]? = some info') :
    (lineKind buffer = .clusters ∧ parts = []) ∨
      ∃ info, model.clusterEnergyTable[i]? = some info ∧ Same info info' := by
  cases hstep with
  | skipped _ => exact .inr ⟨info', hentry, same_refl⟩
  | clusters hclusters hfirst => exact .inl ⟨hclusters, parts_nil h hfirst⟩
  | @clusterInfo hline j info letter capStates cStates hscan hj hinfo hfree =>
    have hletter : (clusterLetter buffer).getD (lastLetter env.tmp parts) = letter := by
      rw [← tmp_eq h, ← scanClusterInfo_letter, hscan]
    have hij : j ≠ i := by
      intro hij
      exact hother ⟨hline, by rw [hletter, hj, hij]⟩
    change (model.clusterEnergyTable.set j _)[i]? = _ at hentry
    rw [List.getElem?_set, if_neg hij] at hentry
    exact .inr ⟨info', hentry, same_refl⟩
  | pstates _ _ hinfo | cstates _ _ hinfo | wakeup _ _ hinfo =>
    exact .inr (same_set hinfo hentry ⟨fun table => by cases table <;> rfl, rfl, rfl⟩)
  | capState hrow | cState hrow | otherRow hrow => exact absurd hrow hkind

theorem clusterInfo_step (h : Follows env parts model) (hstep : Step env model buffer next)
    (hkind : lineKind buffer = .clusterInfo) :
    ∃ (i : Nat) (info : ClusterEnergyInfo), Opens env parts buffer i ∧
      model.clusterEnergyTable[i]? = some info ∧ info.numberCapStates = 0 := by
  cases hstep with
  | @clusterInfo _ i info letter capStates cStates hscan hi hinfo hfree =>
    refine ⟨i, info, ⟨hkind, ?_⟩, hinfo, hfree⟩
    rw [← tmp_eq h, ← scanClusterInfo_letter, hscan]
    exact hi
  | skipped hother | clusters hother | pstates hother | cstates hother | wakeup hother
  | capState hother | cState hother | otherRow hother =>
    exact absurd (hkind.symm.trans hother) nofun

theorem opens_step (h : Follows env parts model) (hstep : Step env model buffer next)
    (hopens : Opens env parts buffer i) (hentry : next.clusterEnergyTable[i]? = some info')
    {states : Nat × Nat} (hstates : declaredStates buffer = some states) :
    info'.numberCapStates = states.1 ∧ info'.numberCStates = states.2 := by
  have hparts : extend env.tmp parts buffer =
      ⟨(clusterLetter buffer).getD (lastLetter env.tmp parts), declaredStates buffer,
        .parsedClusterInfo, []⟩ :: parts := by
    rw [extend, hopens.1]
  obtain ⟨j, info, hat⟩ := (follows_step h hstep).latest _ _ hparts
  obtain rfl := Int.ofNat_inj.mp (hat.number.symm.trans hopens.2)
  obtain rfl := Option.some.inj (hat.entry.symm.trans hentry)
  exact hat.states states.1 states.2 hstates

theorem slots_other (table : Table) (hkind : lineKind buffer ≠ .row) :
    (accesses env model buffer).filterMap (table.slot i) = [] := by
  have hclustp : (clustpAccesses model).filterMap (table.slot i) = [] := by
    unfold clustpAccesses
    cases model.clustp <;> rfl
  unfold accesses
  cases hline : lineKind buffer with
  | row => exact absurd hline hkind
  | skipped | clusters => rfl
  | clusterInfo =>
    dsimp only
    split <;> rfl
  | pstates | cstates | wakeup =>
    dsimp only
    split
    · rfl
    · exact hclustp

theorem slots_access (table other : Table) (j row : Nat) :
    [Access.cluster j, other.access j row].filterMap (table.slot i) =
      if table = other ∧ j = i then [row] else [] := by
  cases table <;> cases other <;> by_cases hij : j = i <;>
    simp [List.filterMap_cons, Table.access, Table.slot, hij]

end Rounds

section Accepted

variable {env : ParseEnv} {model : EnergyParse} {lines : List (List Char)}

theorem history_concat {start : EnergyParse} {past : List (List Char)} (buffer : List Char)
    (h : Runs.run (round env) start past = .ok model) :
    history env (past ++ [buffer]) start = history env past start ++ accesses env model buffer := by
  induction past generalizing start with
  | nil =>
    obtain rfl := Except.ok.inj h
    rw [List.nil_append, history, history]
    cases round env start buffer with
    | error refusal => exact List.append_nil _
    | ok next => exact List.append_nil _
  | cons line past ih =>
    obtain ⟨next, hround, hrest⟩ := Runs.bind_eq_ok h
    rw [List.cons_append, history, history, hround]
    dsimp only
    rw [ih hrest, List.append_assoc]

theorem clusterCounts_concat (past : List (List Char)) (buffer : List Char) :
    clusterCounts (past ++ [buffer]) = clusterCounts past ++
      if lineKind buffer = .clusters then [clusterCount buffer] else [] := by
  unfold clusterCounts
  rw [List.filter_append, List.map_append]
  congr 1
  by_cases hkind : lineKind buffer = .clusters
  · simp [hkind]
  · simp [hkind]

theorem counts_run (h : Runs.run (round env) (startModel env) lines = .ok model) :
    (clusterCounts lines = [] → model.clustersInEnergyFile = 0) ∧
      ∀ clusters rest, clusterCounts lines = clusters :: rest → clusters ≠ 0 →
        rest = [] ∧ model.clustersInEnergyFile = clusters := by
  refine Runs.run_preserved (fun past (model : EnergyParse) =>
    (clusterCounts past = [] → model.clustersInEnergyFile = 0) ∧
      ∀ clusters rest, clusterCounts past = clusters :: rest → clusters ≠ 0 →
        rest = [] ∧ model.clustersInEnergyFile = clusters)
    ⟨fun _ => rfl, fun _ _ heq => by cases heq⟩ ?_ h
  intro past buffer model next _ hinv hround
  have hstep := step_of_round hround
  rw [clusterCounts_concat]
  by_cases hkind : lineKind buffer = .clusters
  · obtain ⟨hfirst, hnext⟩ := clusters_step hstep hkind
    rw [if_pos hkind]
    refine ⟨fun hnil => absurd hnil (by simp), fun clusters rest hcounts hne => ?_⟩
    cases hpast : clusterCounts past with
    | nil =>
      rw [hpast] at hcounts
      obtain ⟨rfl, rfl⟩ := List.cons.inj hcounts
      exact ⟨rfl, hnext⟩
    | cons first others =>
      rw [hpast] at hcounts
      obtain ⟨rfl, -⟩ := List.cons.inj hcounts
      exact absurd ((hinv.2 first others hpast hne).2.symm.trans hfirst) hne
  · rw [if_neg hkind, List.append_nil, clusters_kept hstep hkind]
    exact hinv

theorem not_heads {signedChar : Bool} {table : Table} {i : Nat} {part : Part}
    (h : ∀ table : Table, part.state ≠ table.state) : ¬ Heads signedChar table i part :=
  fun hheads => h table hheads.1

theorem heads_iff {table other : Table} {i j : Nat} {part : Part} {info : ClusterEnergyInfo}
    (hat : At env model part j info) (hstate : part.state = other.state) :
    Heads env.signedChar table i part ↔ table = other ∧ j = i := by
  unfold Heads
  rw [hstate, hat.number, Int.ofNat_inj]
  have hinj : other.state = table.state ↔ table = other := by
    cases table <;> cases other <;> decide
  rw [hinj]

theorem storedRows_run (h : Runs.run (round env) (startModel env) lines = .ok model)
    (table : Table) (i : Nat) : storedRows env table i lines =
      counted (sectionRows env.signedChar table i (outline env.tmp lines)).reverse := by
  refine Runs.run_preserved (fun past _ => storedRows env table i past =
    counted (sectionRows env.signedChar table i (outline env.tmp past)).reverse) rfl ?_ h
  intro past buffer model next hrun hinv hround
  have hfollows := follows_run hrun
  have hstep := step_of_round hround
  have hlast : storedRows env table i (past ++ [buffer]) = storedRows env table i past ++
      (accesses env model buffer).filterMap (table.slot i) := by
    rw [storedRows, history_concat buffer hrun, List.filterMap_append]
    rfl
  rw [hlast, outline_concat]
  have happend : ∀ rows sections, counted (rows :: sections).reverse =
      counted sections.reverse ++ List.range (List.length (α := List Char) rows) := by
    intro rows sections
    rw [List.reverse_cons, counted, List.flatMap_append, List.flatMap_singleton]
    rfl
  by_cases hkind : lineKind buffer = .row
  · obtain ⟨part, rest, j, info, hparts, hat, hrow⟩ := row_step hfollows hstep hkind
    rw [hparts] at hinv ⊢
    by_cases hheads : Heads env.signedChar table i part
    · rw [sectionRows_pos hheads] at hinv
      cases hrow with
      | inr hignored => exact absurd hheads (not_heads hignored.1)
      | inl hstored =>
        obtain ⟨other, row, info', hstored⟩ := hstored
        rw [sectionRows_row hkind hheads, happend, hstored.accesses, slots_access,
          if_pos ((heads_iff hat hstored.state).mp hheads), hinv, happend, List.append_assoc,
          List.length_append, List.length_singleton, List.range_succ]
    · rw [sectionRows_elsewhere hkind hheads, hinv]
      cases hrow with
      | inr hignored =>
        rw [hignored.2.2]
        exact List.append_nil _
      | inl hstored =>
        obtain ⟨other, row, info', hstored⟩ := hstored
        rw [hstored.accesses, slots_access,
          if_neg fun hboth => hheads ((heads_iff hat hstored.state).mpr hboth), List.append_nil]
  · rw [slots_other table hkind, List.append_nil, hinv]
    have hsections : sectionRows env.signedChar table i
          (extend env.tmp (outline env.tmp past) buffer) =
        sectionRows env.signedChar table i (outline env.tmp past) ∨
      sectionRows env.signedChar table i (extend env.tmp (outline env.tmp past) buffer) =
        [] :: sectionRows env.signedChar table i (outline env.tmp past) :=
      sectionRows_extend hkind
    cases hsections with
    | inl hsame => rw [hsame]
    | inr hempty =>
      rw [hempty, happend]
      exact (List.append_nil _).symm

/-- The numbers of the latest line of cluster `i`. -/
def latestStates (signedChar : Bool) (i : Nat) (infos : List (Char × Option (Nat × Nat))) :
    Option (Nat × Nat) :=
  (infos.find? fun info => clusterNumber signedChar info.1 = i).bind Prod.snd

theorem latestStates_neg {signedChar : Bool} {i : Nat} {letter : Char}
    {states : Option (Nat × Nat)} {infos : List (Char × Option (Nat × Nat))}
    (h : clusterNumber signedChar letter ≠ i) :
    latestStates signedChar i ((letter, states) :: infos) = latestStates signedChar i infos := by
  rw [latestStates, List.find?_cons_of_neg (by simpa using h)]
  rfl

theorem exists_latest {signedChar : Bool} {i : Nat} {infos : List (Char × Option (Nat × Nat))}
    (h : (i : Int) ∈ infos.map fun info => clusterNumber signedChar info.1) :
    ∃ info, infos.find? (fun info => clusterNumber signedChar info.1 = i) = some info ∧
      clusterNumber signedChar info.1 = i := by
  obtain ⟨info, hinfo, hnumber⟩ := List.mem_map.mp h
  have hsome : (infos.find? fun info => clusterNumber signedChar info.1 = i).isSome := by
    rw [List.find?_isSome]
    exact ⟨info, hinfo, by simpa using hnumber⟩
  obtain ⟨latest, hlatest⟩ := Option.isSome_iff_exists.mp hsome
  exact ⟨latest, hlatest, by simpa using List.find?_some hlatest⟩

theorem states_run (h : Runs.run (round env) (startModel env) lines = .ok model) :
    ∀ (i : Nat) info states, model.clusterEnergyTable[i]? = some info →
      latestStates env.signedChar i (infos (outline env.tmp lines)) = some states →
        info.numberCapStates = states.1 ∧ info.numberCStates = states.2 := by
  refine Runs.run_preserved (fun past (model : EnergyParse) =>
    ∀ (i : Nat) info states, model.clusterEnergyTable[i]? = some info →
      latestStates env.signedChar i (infos (outline env.tmp past)) = some states →
        info.numberCapStates = states.1 ∧ info.numberCStates = states.2)
    (fun _ _ _ _ hnone => by cases hnone) ?_ h
  intro past buffer model next hrun hinv hround i info' states hentry hstates
  have hfollows := follows_run hrun
  have hstep := step_of_round hround
  rw [outline_concat, infos_extend] at hstates
  by_cases hkind : lineKind buffer = .row
  · rw [if_neg (by rw [hkind]; decide)] at hstates
    obtain ⟨part, rest, j, info, hparts, hat, hrow⟩ := row_step hfollows hstep hkind
    cases hrow with
    | inr hignored =>
      rw [hignored.2.1] at hentry
      exact hinv i info' states hentry hstates
    | inl hstored =>
      obtain ⟨table, row, new, hstored⟩ := hstored
      rw [hstored.entry, List.getElem?_set] at hentry
      split at hentry
      · next heq =>
        subst heq
        split at hentry
        · obtain rfl := Option.some.inj hentry
          rw [hstored.states.1, hstored.states.2]
          exact hinv j info states hat.entry hstates
        · cases hentry
      · exact hinv i info' states hentry hstates
  · by_cases hopens : Opens env (outline env.tmp past) buffer i
    · rw [if_pos hopens.1, latestStates,
        List.find?_cons_of_pos (by simpa using hopens.2)] at hstates
      exact opens_step hfollows hstep hopens hentry hstates
    · have hkept : latestStates env.signedChar i (infos (outline env.tmp past)) = some states := by
        by_cases hinfo : lineKind buffer = .clusterInfo
        · have hnumber : clusterNumber env.signedChar
              ((clusterLetter buffer).getD (lastLetter env.tmp (outline env.tmp past))) ≠ i :=
            fun heq => hopens ⟨hinfo, heq⟩
          rw [if_pos hinfo, latestStates_neg hnumber] at hstates
          exact hstates
        · rw [if_neg hinfo] at hstates
          exact hstates
      cases other_step hfollows hstep hkind hopens hentry with
      | inl hnew =>
        rw [hnew.2] at hkept
        cases hkept
      | inr hold =>
        obtain ⟨info, hentry, hsame⟩ := hold
        rw [hsame.states.1, hsame.states.2]
        exact hinv i info states hentry hkept

/-- All cluster lines have all of their parts and none is repeated after 0 cap
states. -/
structure Proper (signedChar : Bool) (infos : List (Char × Option (Nat × Nat))) : Prop where
  whole : ∀ info ∈ infos, info.2 ≠ none
  repeated : infos.Pairwise fun later earlier =>
    clusterNumber signedChar later.1 = clusterNumber signedChar earlier.1 →
      ∀ states, earlier.2 = some states → states.1 ≠ 0

/-- Then no cluster has two lines: the second one was refused. -/
theorem nodup_run (h : Runs.run (round env) (startModel env) lines = .ok model) :
    Proper env.signedChar (infos (outline env.tmp lines)) →
      (clusterNumbers env.signedChar (outline env.tmp lines)).Nodup := by
  refine Runs.run_preserved (fun past _ =>
    Proper env.signedChar (infos (outline env.tmp past)) →
      (clusterNumbers env.signedChar (outline env.tmp past)).Nodup) (fun _ => List.nodup_nil) ?_ h
  intro past buffer model next hrun hinv hround hproper
  have hfollows := follows_run hrun
  have hstep := step_of_round hround
  unfold clusterNumbers
  rw [outline_concat, infos_extend] at hproper ⊢
  by_cases hkind : lineKind buffer = .clusterInfo
  · rw [if_pos hkind] at hproper ⊢
    obtain ⟨hwhole, hrepeated⟩ := hproper
    obtain ⟨hrefuses, hrest⟩ := List.pairwise_cons.mp hrepeated
    have hpast : (clusterNumbers env.signedChar (outline env.tmp past)).Nodup :=
      hinv ⟨fun info hinfo => hwhole info (List.mem_cons_of_mem _ hinfo), hrest⟩
    refine List.nodup_cons.mpr ⟨fun hmem => ?_, hpast⟩
    obtain ⟨i, entry, hopens, hentry, hfree⟩ := clusterInfo_step hfollows hstep hkind
    -- the latest of the earlier lines of this cluster
    have hmem : (i : Int) ∈ clusterNumbers env.signedChar (outline env.tmp past) := by
      rw [← hopens.2]
      exact hmem
    obtain ⟨earlier, hfind, hnumber⟩ := exists_latest hmem
    obtain ⟨states, hstates⟩ := Option.ne_none_iff_exists'.mp
      (hwhole earlier (List.mem_cons_of_mem _ (List.mem_of_find?_eq_some hfind)))
    have hlatest : latestStates env.signedChar i (infos (outline env.tmp past)) = some states := by
      rw [latestStates, hfind]
      exact hstates
    have hzero : states.1 = 0 := by
      rw [← (states_run hrun i entry states hentry hlatest).1, hfree]
    exact hrefuses earlier (List.mem_of_find?_eq_some hfind) (hopens.2.trans hnumber.symm) states
      hstates hzero
  · rw [if_neg hkind] at hproper ⊢
    exact hinv hproper

theorem sectionRows_nil {signedChar : Bool} {parts : List Part} {i : Nat} (howned : Owned parts)
    (h : (i : Int) ∉ clusterNumbers signedChar parts) (table : Table) :
    sectionRows signedChar table i parts = [] := by
  unfold sectionRows
  rw [List.map_eq_nil_iff, List.filter_eq_nil_iff]
  intro part hpart hheads
  have hnumber : clusterNumber signedChar part.letter = i := (of_decide_eq_true hheads).2
  exact h (List.mem_map.mpr ⟨(part.letter, part.states), howned part hpart, hnumber⟩)

def Filled (env : ParseEnv) (parts : List Part) (model : EnergyParse) : Prop :=
  ∀ (table : Table) (i : Nat) info, model.clusterEnergyTable[i]? = some info →
    ∀ (k : Nat) line, (latestRows (sectionRows env.signedChar table i parts))[k]? = some line →
      (table.rows info)[k]? = table.rowValue line

theorem filled_row {next : EnergyParse} {buffer : List Char} {parts : List Part}
    (hfollows : Follows env parts model) (hstep : Step env model buffer next)
    (hkind : lineKind buffer = .row) (h : Filled env parts model) :
    Filled env (extend env.tmp parts buffer) next := by
  intro table i info' hentry k line hline
  obtain ⟨part, rest, j, info, rfl, hat, hrow⟩ := row_step hfollows hstep hkind
  have hinv := h table i
  by_cases hheads : Heads env.signedChar table i part
  · rw [sectionRows_row hkind hheads, latestRows_cons (by simp)] at hline
    rw [sectionRows_pos hheads] at hinv
    cases hrow with
    | inr hignored => exact absurd hheads (not_heads hignored.1)
    | inl hstored =>
      obtain ⟨other, row, new, hstored⟩ := hstored
      obtain ⟨rfl, rfl⟩ := (heads_iff hat hstored.state).mp hheads
      rw [hstored.entry, entry_set hat.entry] at hentry
      obtain rfl := Option.some.inj hentry
      refine stored_rows hstored (fun k line hline => ?_) k line hline
      have hne : part.rows ≠ [] := by
        intro hnil
        rw [hnil] at hline
        cases hline
      rw [latestRows_cons hne] at hinv
      exact hinv info hat.entry k line hline
  · rw [sectionRows_elsewhere hkind hheads] at hline
    cases hrow with
    | inr hignored =>
      rw [hignored.2.1] at hentry
      exact hinv info' hentry k line hline
    | inl hstored =>
      obtain ⟨other, row, new, hstored⟩ := hstored
      have hother : ¬ (table = other ∧ j = i) :=
        fun hboth => hheads ((heads_iff hat hstored.state).mpr hboth)
      rw [hstored.entry] at hentry
      by_cases hij : j = i
      · subst hij
        rw [entry_set hat.entry] at hentry
        obtain rfl := Option.some.inj hentry
        rw [hstored.others table fun heq => hother ⟨heq, rfl⟩]
        exact hinv info hat.entry k line hline
      · rw [List.getElem?_set, if_neg hij] at hentry
        exact hinv info' hentry k line hline

theorem filled_other {next : EnergyParse} {buffer : List Char} {parts : List Part}
    (hfollows : Follows env parts model) (hstep : Step env model buffer next)
    (hkind : lineKind buffer ≠ .row) (howned : Owned parts)
    (hnodup : (clusterNumbers env.signedChar (extend env.tmp parts buffer)).Nodup)
    (h : Filled env parts model) : Filled env (extend env.tmp parts buffer) next := by
  intro table i info' hentry k line hline
  have hsections : latestRows (sectionRows env.signedChar table i
      (extend env.tmp parts buffer)) = latestRows (sectionRows env.signedChar table i parts) := by
    cases sectionRows_extend hkind with
    | inl hsame => rw [hsame]
    | inr hempty =>
      rw [hempty]
      rfl
  rw [hsections] at hline
  by_cases hopens : Opens env parts buffer i
  · -- the first line of this cluster
    unfold clusterNumbers at hnodup
    rw [infos_extend, if_pos hopens.1, List.map_cons, hopens.2] at hnodup
    rw [sectionRows_nil howned (List.nodup_cons.mp hnodup).1] at hline
    cases hline
  · cases other_step hfollows hstep hkind hopens hentry with
    | inl hnew =>
      rw [hnew.2] at hline
      cases hline
    | inr hold =>
      obtain ⟨info, hentry, hsame⟩ := hold
      rw [hsame.rows table]
      exact h table i info hentry k line hline

theorem filled_run (h : Runs.run (round env) (startModel env) lines = .ok model) :
    (clusterNumbers env.signedChar (outline env.tmp lines)).Nodup →
      Filled env (outline env.tmp lines) model := by
  refine Runs.run_preserved (fun past (model : EnergyParse) =>
    (clusterNumbers env.signedChar (outline env.tmp past)).Nodup →
      Filled env (outline env.tmp past) model) (fun _ _ _ _ _ _ _ hnone => by cases hnone) ?_ h
  intro past buffer model next hrun hinv hround hnodup
  have hfollows := follows_run hrun
  have hstep := step_of_round hround
  rw [outline_concat] at hnodup ⊢
  have hpast : (clusterNumbers env.signedChar (outline env.tmp past)).Nodup := by
    unfold clusterNumbers at hnodup ⊢
    rw [infos_extend] at hnodup
    by_cases hkind : lineKind buffer = .clusterInfo
    · rw [if_pos hkind] at hnodup
      exact (List.nodup_cons.mp hnodup).2
    · rw [if_neg hkind] at hnodup
      exact hnodup
  by_cases hkind : lineKind buffer = .row
  · exact filled_row hfollows hstep hkind (hinv hpast)
  · exact filled_other hfollows hstep hkind (owned_outline past) hnodup (hinv hpast)

theorem latestStates_of_mem {signedChar : Bool} {letter : Char} {states : Nat × Nat} {i : Nat}
    {infos : List (Char × Option (Nat × Nat))}
    (hnodup : (infos.map fun info => clusterNumber signedChar info.1).Nodup)
    (hinfo : (letter, some states) ∈ infos) (hnumber : clusterNumber signedChar letter = i) :
    latestStates signedChar i infos = some states := by
  have hmem : (i : Int) ∈ infos.map fun info => clusterNumber signedChar info.1 :=
    List.mem_map.mpr ⟨_, hinfo, hnumber⟩
  obtain ⟨latest, hfind, hlatest⟩ := exists_latest hmem
  have heq : latest = (letter, some states) :=
    List.inj_on_of_nodup_map hnodup (List.mem_of_find?_eq_some hfind) hinfo
      (hlatest.trans hnumber.symm)
  rw [latestStates, hfind, heq]
  rfl

variable {letter : Char} {states : Nat × Nat} {i : Nat}

theorem sections_fit (h : Runs.run (round env) (startModel env) lines = .ok model)
    (hnodup : (clusterNumbers env.signedChar (outline env.tmp lines)).Nodup)
    (hinfo : (letter, some states) ∈ infos (outline env.tmp lines))
    (hnumber : clusterNumber env.signedChar letter = i) (table : Table) :
    ∀ rows ∈ sectionRows env.signedChar table i (outline env.tmp lines),
      rows.length ≤ table.declared states := by
  intro rows hrows
  obtain ⟨part, hpart, rfl⟩ := List.mem_map.mp hrows
  obtain ⟨hpart, hheads⟩ := List.mem_filter.mp hpart
  have hheads : Heads env.signedChar table i part := of_decide_eq_true hheads
  have heq : (part.letter, part.states) = (letter, some states) :=
    List.inj_on_of_nodup_map hnodup (owned_outline lines part hpart) hinfo
      (hheads.2.trans hnumber.symm)
  have hfits := (follows_run h).fits part hpart states.1 states.2 (Prod.mk.inj heq).2
  cases table with
  | capStates => exact hfits.1 hheads.1
  | cStates => exact hfits.2 hheads.1

theorem length_rows {table : Table} {info : ClusterEnergyInfo} (halloc : Allocated info)
    (hstates : info.numberCapStates = states.1 ∧ info.numberCStates = states.2) :
    (table.rows info).length = table.declared states := by
  cases table with
  | capStates => rw [Table.rows, List.length_map, halloc.1, hstates.1]; rfl
  | cStates => rw [Table.rows, List.length_map, halloc.2, hstates.2]; rfl

/-- A table holds the declared rows exactly if the file has as many, below one heading. -/
theorem holds_iff (h : Runs.run (round env) (startModel env) lines = .ok model)
    (hnodup : (clusterNumbers env.signedChar (outline env.tmp lines)).Nodup)
    (hinfo : (letter, some states) ∈ infos (outline env.tmp lines))
    (hnumber : clusterNumber env.signedChar letter = i) (table : Table) :
    Holds env lines model table i (table.declared states) ↔
      table.declared states ≤ (fileRows env.signedChar table i (outline env.tmp lines)).length ∧
        ((sectionRows env.signedChar table i (outline env.tmp lines)).filter
          fun rows => rows ≠ []).length ≤ 1 := by
  have hfits := sections_fit h hnodup hinfo hnumber table
  have hcounted := counted_eq_range fun rows hrows => hfits rows (List.mem_reverse.mp hrows)
  rw [List.filter_reverse, List.length_reverse] at hcounted
  unfold Holds fileRows
  rw [storedRows_run h, ← hcounted]
  refine ⟨And.left, fun hrange => ⟨hrange, ?_⟩⟩
  have hsingle := (hcounted.mp hrange).2
  obtain ⟨part, hpart, heq⟩ := List.mem_map.mp hinfo
  obtain ⟨j, info, hj, hentry, halloc⟩ :=
    (follows_run h).declared part (List.mem_of_mem_filter hpart)
  obtain rfl : j = i := by
    apply Int.ofNat_inj.mp
    rw [← hj, ← hnumber, (Prod.mk.inj heq).1]
  have hstates := states_run h j info states hentry (latestStates_of_mem hnodup hinfo hnumber)
  have hlength : (table.rows info).length = (sectionRows env.signedChar table j
      (outline env.tmp lines)).reverse.flatten.length := by
    rw [length_rows halloc hstates, ← length_counted, hrange, List.length_range]
  refine ⟨info, hentry, map_some_eq hlength ?_⟩
  rw [flatten_single hsingle]
  exact filled_run h hnodup table j info hentry

theorem nodup_of_once (h : Runs.run (round env) (startModel env) lines = .ok model)
    (honce : ∀ i < model.clustersInEnergyFile,
      (clusterNumbers env.signedChar (outline env.tmp lines)).count (i : Int) = 1) :
    (clusterNumbers env.signedChar (outline env.tmp lines)).Nodup := by
  rw [List.nodup_iff_count_le_one]
  intro number
  by_cases hmem : number ∈ clusterNumbers env.signedChar (outline env.tmp lines)
  · obtain ⟨info, hinfo, hnumber⟩ := List.mem_map.mp hmem
    obtain ⟨part, hpart, rfl⟩ := List.mem_map.mp hinfo
    obtain ⟨i, entry, hi, hentry, -⟩ :=
      (follows_run h).declared part (List.mem_of_mem_filter hpart)
    have hbelow : i < model.clusterEnergyTable.length := (List.getElem?_eq_some_iff.mp hentry).1
    rw [(follows_run h).length] at hbelow
    rw [← hnumber]
    exact le_of_eq (hi ▸ honce i hbelow)
  · rw [List.count_eq_zero_of_not_mem hmem]
    exact Nat.zero_le 1

theorem nothingMissing (h : Runs.run (round env) (startModel env) lines = .ok model)
    (hcomplete : Complete env lines model) : NothingMissing env lines := by
  have hnodup := nodup_of_once h hcomplete.once
  refine ⟨⟨_, [], hcomplete.count.2, Nat.pos_iff_ne_zero.mp hcomplete.count.1, ?_⟩,
    hcomplete.whole, ?_, ?_⟩
  · intro i hi
    apply List.count_pos_iff.mp
    rw [hcomplete.once i hi]
    exact Nat.one_pos
  · refine (List.pairwise_map.mp hnodup).imp ?_
    intro later earlier hne heq
    exact absurd heq hne
  · intro letter states i hinfo hnumber table
    exact (holds_iff h hnodup hinfo hnumber table).mp
      (hcomplete.rows letter states i hinfo hnumber table)

theorem complete (h : Runs.run (round env) (startModel env) lines = .ok model)
    (hmissing : NothingMissing env lines) : Complete env lines model := by
  obtain ⟨clusters, rest, hcounts, hne, hpresent⟩ := hmissing.count
  obtain ⟨rfl, hclusters⟩ := (counts_run h).2 clusters rest hcounts hne
  have hnodup := nodup_run h ⟨hmissing.whole, hmissing.repeated⟩
  refine ⟨⟨?_, ?_⟩, hmissing.whole, ?_, ?_⟩
  · rw [hclusters]
    exact Nat.pos_of_ne_zero hne
  · rw [hclusters]
    exact hcounts
  · intro i hi
    rw [hclusters] at hi
    exact List.count_eq_one_of_mem hnodup (hpresent i hi)
  · intro letter states i hinfo hnumber table
    exact (holds_iff h hnodup hinfo hnumber table).mpr
      (hmissing.rows letter states i hinfo hnumber table)

end Accepted

/-- An accepted file is complete exactly when it lacks nothing of what the parser
does not check. -/
theorem complete_model {env : ParseEnv} {file : List Char} {model : EnergyParse}
    (h : parseEnergyModel env file = .ok (some model)) :
    Complete env (buffers bufsize file) model ↔ NothingMissing env (buffers bufsize file) := by
  have hrun := parseLines_eq_ok.mp h
  exact ⟨nothingMissing hrun, complete hrun⟩

def zeroEnv : ParseEnv :=
  { signedChar := true
    table := fun _ => ⟨0, 0, [], [], ⟨0, 0⟩, .uninitialized⟩
    tmp := '\x00'
    numberCapStates := 0
    numberCStates := 0
    clustW := 0
    coreW := 0 }

def clusterText : List Char :=
  "clusterA: 1 cap states 1 C states\nP-states:\n100 20 10\nC-states:\nC1 5 1\n".toList

def completeFile : List Char :=
  "clusters 1\n".toList ++ clusterText

def lackingFile : List Char :=
  "clusters 2\n".toList ++ clusterText

theorem exists_of_accepted {env : ParseEnv} {file : List Char}
    (h : (match parseEnergyModel env file with
      | .ok (some _) => true
      | _ => false) = true) : ∃ model, parseEnergyModel env file = .ok (some model) := by
  cases hparse : parseEnergyModel env file with
  | error fault =>
    rw [hparse] at h
    cases h
  | ok result =>
    cases result with
    | none =>
      rw [hparse] at h
      cases h
    | some model => exact ⟨model, rfl⟩

theorem nothingMissing_complete : NothingMissing zeroEnv (buffers bufsize completeFile) := by
  have hinfos : infos (outline zeroEnv.tmp (buffers bufsize completeFile)) =
      [('A', some (1, 1))] := by decide +kernel
  have hcounts : clusterCounts (buffers bufsize completeFile) = [1] := by decide +kernel
  have hpresent : ((0 : Nat) : Int) ∈ clusterNumbers zeroEnv.signedChar
      (outline zeroEnv.tmp (buffers bufsize completeFile)) := by decide +kernel
  have hrows : ∀ table : Table, table.declared (1, 1) ≤ (fileRows zeroEnv.signedChar table 0
        (outline zeroEnv.tmp (buffers bufsize completeFile))).length ∧
      ((sectionRows zeroEnv.signedChar table 0
        (outline zeroEnv.tmp (buffers bufsize completeFile))).filter
          fun rows => rows ≠ []).length ≤ 1 := by
    intro table
    cases table with
    | capStates => decide +kernel
    | cStates => decide +kernel
  refine ⟨⟨1, [], hcounts, Nat.one_ne_zero, ?_⟩, ?_, ?_, ?_⟩
  · intro i hi
    rw [Nat.lt_one_iff.mp hi]
    exact hpresent
  · rw [hinfos]
    simp
  · rw [hinfos]
    exact List.pairwise_singleton _ _
  · intro letter states i hinfo hnumber table
    rw [hinfos, List.mem_singleton] at hinfo
    obtain ⟨rfl, hstates⟩ := Prod.mk.inj hinfo
    obtain rfl := Option.some.inj hstates
    have hzero : clusterNumber zeroEnv.signedChar 'A' = (0 : Nat) := by decide +kernel
    obtain rfl := Int.ofNat_inj.mp (hzero.symm.trans hnumber)
    exact hrows table

theorem complete_model_small : ∃ model, parseEnergyModel zeroEnv completeFile = .ok (some model) ∧
    Complete zeroEnv (buffers bufsize completeFile) model := by
  have haccepted : ∃ model, parseEnergyModel zeroEnv completeFile = .ok (some model) :=
    exists_of_accepted (by decide +kernel)
  obtain ⟨model, haccepted⟩ := haccepted
  exact ⟨model, haccepted, (complete_model haccepted).mpr nothingMissing_complete⟩

/-- The second cluster has no line, and the file is accepted. -/
theorem complete_model_lacking :
    ∃ model, parseEnergyModel zeroEnv lackingFile = .ok (some model) ∧
      ¬ Complete zeroEnv (buffers bufsize lackingFile) model := by
  have haccepted : ∃ model, parseEnergyModel zeroEnv lackingFile = .ok (some model) :=
    exists_of_accepted (by decide +kernel)
  obtain ⟨model, haccepted⟩ := haccepted
  refine ⟨model, haccepted, fun hcomplete => ?_⟩
  have hcounts : clusterCounts (buffers bufsize lackingFile) = [2] := by decide +kernel
  have hclusters : model.clustersInEnergyFile = 2 := by
    have htwo := hcomplete.count.2
    rw [hcounts] at htwo
    exact (List.cons.inj htwo).1.symm
  have honce := hcomplete.once 1 (by rw [hclusters]; decide)
  have hzero : (clusterNumbers zeroEnv.signedChar
      (outline zeroEnv.tmp (buffers bufsize lackingFile))).count ((1 : Nat) : Int) = 0 := by
    decide +kernel
  rw [hzero] at honce
  cases honce

end Idlestat.Theory.EnergyComplete
