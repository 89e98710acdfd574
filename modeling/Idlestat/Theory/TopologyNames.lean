import Idlestat.Library.ScanFields
import Idlestat.Model.TopologyFile
import Idlestat.Theory.TopologyCanonical
import Mathlib.Data.List.DropRight

/-! Which lines name the CPUs that `read_cpu_topo_info` returns. A scan that
meets the end of its line counts as one that has matched, and leaves the id of
an earlier line in place. -/
namespace Idlestat.Theory.TopologyNames

open Idlestat.Library Idlestat.Library.Scan Idlestat.Model.Topology Idlestat.Model.TopologyFile
  Idlestat.Theory.TopologyTree Idlestat.Theory.TopologyCanonical

/-! ## What lines name -/

def clusterLetter (buf : List Char) : Option Char :=
  if "cluster".toList <+: buf then (buf.drop 7).head? else none

def numberAfter (word buf : List Char) : Option Int :=
  if word <+: buf.dropWhile isSpace then
    (takeNumber (((buf.dropWhile isSpace).drop word.length).dropWhile isSpace)).map
      fun (negative, n, _) => if negative then -n else n
  else none

def coreNumber (buf : List Char) : Option Int :=
  numberAfter "core".toList buf

def cpuNumber (buf : List Char) : Option Int :=
  numberAfter "cpu".toList buf

/-- The id of the last cluster line, and of the last core line since then. -/
structure Names where
  cluster : Option Int
  core : Option Int

def Names.after (signedChar : Bool) (names : Names) (buf : List Char) : Names :=
  match clusterLetter buf with
  | some c => { cluster := some (charValue signedChar c - 65), core := none }
  | none =>
    match coreNumber buf with
    | some n => { names with core := some n }
    | none => names

def namesOf (signedChar : Bool) (lines : List (List Char)) : Names :=
  lines.foldl (Names.after signedChar) { cluster := none, core := none }

/-- One of the lines gives the CPU its number, and those before it the ids of its
cluster and its core; a CPU in a cluster without core lines is its own core. -/
def NamedBy (signedChar : Bool) (lines : List (List Char)) (info : TopologyInfo) : Prop :=
  ∃ before buf after, lines = before ++ buf :: after ∧ cpuNumber buf = some info.cpuId ∧
    (namesOf signedChar before).cluster = some info.physicalId ∧
    info.coreId = (namesOf signedChar before).core.getD info.cpuId

/-- Whatever the locals held before, each CPU of the tree is named by the lines
that have been read. -/
def Sound (signedChar : Bool) (buf : List Char) (file : List (List Char)) : Prop :=
  ∀ info pid read, readCpuTopoInfo signedChar info pid buf file = .ok (some read) →
    ∀ x, TopoHas read.topo x → ∃ consumed, buf :: file = consumed ++ read.buf :: read.file ∧
      NamedBy signedChar consumed x

/-! ## Kinds of lines -/

/-- The scan has not failed, or has met the end of the line. -/
def scans (format : List Directive) (buf : List Char) : Bool :=
  (sscanf format buf).ret ≠ 0

inductive Kind
  | comment
  | core
  | cpu
  | cluster
  | stop
  deriving DecidableEq

/-- What the loops take a line for. -/
def kind (loop : Loop) (buf : List Char) : Kind :=
  if isComment buf then .comment
  else if loop ≠ .clusters ∧ scans coreFormat buf then .core
  else if loop ≠ .clusters ∧ scans cpuFormat buf then .cpu
  else if scans clusterFormat buf then .cluster
  else .stop

/-- The loop that runs, whether its cluster has a letter, and whether the last
number of a core line in it is one of an `int`. -/
structure Mode where
  loop : Loop
  lettered : Bool
  numbered : Bool

def Mode.after (mode : Mode) (buf : List Char) : Mode :=
  match kind mode.loop buf with
  | .core =>
    { mode with
      loop := .cores true
      numbered := match coreNumber buf with
        | some n => IsInt n
        | none => mode.numbered }
  | .cluster =>
    { loop := .cores false, lettered := (clusterLetter buf).isSome, numbered := false }
  | _ => mode

def firstMode : Mode :=
  { loop := .clusters, lettered := false, numbered := false }

def modeOf (lines : List (List Char)) : Mode :=
  lines.foldl Mode.after firstMode

/-- A CPU line with its number, in a cluster with its letter, behind a core line
with its number if there is one at all. -/
def Whole (mode : Mode) (buf : List Char) : Prop :=
  mode.lettered = true ∧ (mode.loop = .cores true → mode.numbered = true) ∧
    ∃ n, cpuNumber buf = some n ∧ IsInt n

structure Locals where
  info : TopologyInfo
  pid : Char

def Locals.after (signedChar : Bool) (mode : Mode) (locals : Locals) (buf : List Char) : Locals :=
  match kind mode.loop buf with
  | .comment => locals
  | .core =>
    { locals with info :=
        { locals.info with coreId := assignedInt (sscanf coreFormat buf) locals.info.coreId } }
  | .cpu =>
    { locals with
      info := cpuInfo (mode.loop = .cores true) (sscanf cpuFormat buf) locals.info }
  | .cluster =>
    let info := match mode.loop with
      | .clusters => locals.info
      | .cores isHt => cpuInfo isHt (sscanf cpuFormat buf) locals.info
    let pid := assignedChar (sscanf clusterFormat buf) locals.pid
    { pid := pid, info := { info with physicalId := charValue signedChar pid - 65 } }
  | .stop => locals

/-- The locals behind lines that start in this mode. -/
def localsOf (signedChar : Bool) : Mode → Locals → List (List Char) → Locals
  | _, locals, [] => locals
  | mode, locals, buf :: lines =>
    localsOf signedChar (mode.after buf) (locals.after signedChar mode buf) lines

section Lines

variable {buf word : List Char} {n : Int} {c : Char}

theorem assigned_number : (sscanf (.space :: (lits word ++ [.conv .d])) buf).assigned =
    if word <+: buf.dropWhile isSpace then
      match takeNumber (((buf.dropWhile isSpace).drop word.length).dropWhile isSpace) with
      | some (negative, magnitude, _) => [.int (toInt (strtol negative magnitude))]
      | none => []
    else [] := by
  have hscan : (sscanf (.space :: (lits word ++ [.conv .d])) buf).assigned =
      if word <+: buf.dropWhile isSpace then
        (sscanf [.conv .d] ((buf.dropWhile isSpace).drop word.length)).assigned
      else [] := assigned_lits word
  rw [hscan]
  by_cases hword : word <+: buf.dropWhile isSpace
  · rw [if_pos hword, if_pos hword]
    exact assigned_d
  · rw [if_neg hword, if_neg hword]

theorem assigned_of_none (h : numberAfter word buf = none) :
    (sscanf (.space :: (lits word ++ [.conv .d])) buf).assigned = [] := by
  rw [assigned_number]
  unfold numberAfter at h
  split at h
  · next hbegins =>
    rw [if_pos hbegins, Option.map_eq_none_iff.mp h]
  · next hbegins => rw [if_neg hbegins]

theorem assigned_of_some (h : numberAfter word buf = some n) :
    ∃ value, (sscanf (.space :: (lits word ++ [.conv .d])) buf).assigned = [.int value] ∧
      (IsInt n → value = n) := by
  rw [assigned_number]
  unfold numberAfter at h
  split at h
  · next hbegins =>
    obtain ⟨⟨negative, magnitude, rest⟩, htake, hn⟩ := Option.map_eq_some_iff.mp h
    rw [if_pos hbegins, htake]
    refine ⟨_, rfl, ?_⟩
    rintro ⟨hmin, hmax⟩
    cases negative with
    | true =>
      obtain rfl : -(magnitude : Int) = n := hn
      exact toInt_strtol_neg (by omega)
    | false =>
      obtain rfl : (magnitude : Int) = n := hn
      exact toInt_strtol (by omega)
  · cases h

theorem scans_of_assigned {format : List Directive}
    (h : (sscanf format buf).assigned ≠ []) : scans format buf = true := by
  have hret : (sscanf format buf).ret = (sscanf format buf).assigned.length :=
    if_neg fun hfail => h hfail.2
  have hpos := List.length_pos_of_ne_nil h
  simp only [scans, hret, decide_eq_true_eq]
  omega

theorem scans_of_some (h : numberAfter word buf = some n) :
    scans (.space :: (lits word ++ [.conv .d])) buf = true := by
  obtain ⟨value, hassigned, -⟩ := assigned_of_some h
  exact scans_of_assigned (by simp [hassigned])

theorem assigned_cluster : (sscanf clusterFormat buf).assigned =
    match clusterLetter buf with
    | some c => [.char c]
    | none => [] := by
  have hscan : (sscanf clusterFormat buf).assigned =
      if "cluster".toList <+: buf then (sscanf [.conv .c] (buf.drop 7)).assigned else [] :=
    assigned_lits _
  rw [hscan, clusterLetter]
  split
  · generalize buf.drop 7 = rest
    cases rest <;> rfl
  · rfl

theorem scans_of_letter (h : clusterLetter buf = some c) :
    scans coreFormat buf = false ∧ scans cpuFormat buf = false ∧
      scans clusterFormat buf = true := by
  have hcluster : scans clusterFormat buf = true := by
    apply scans_of_assigned
    rw [assigned_cluster, h]
    exact List.cons_ne_nil _ _
  unfold clusterLetter at h
  split at h
  · next hbegins =>
    obtain ⟨rest, rfl⟩ := hbegins
    exact ⟨rfl, rfl, hcluster⟩
  · cases h

theorem names_of_comment (h : isComment buf = true) :
    clusterLetter buf = none ∧ coreNumber buf = none ∧ cpuNumber buf = none := by
  have hcases : buf = [] ∨ ∃ rest, buf = '#' :: rest := by
    simp only [isComment, Bool.or_eq_true, decide_eq_true_eq] at h
    cases h with
    | inl hhead => exact .inr (List.head?_eq_some_iff.mp hhead)
    | inr hnil => exact .inl hnil
  rcases hcases with rfl | ⟨rest, rfl⟩
  · exact ⟨rfl, rfl, rfl⟩
  · have hspace : isSpace '#' = false := by decide
    simp [clusterLetter, coreNumber, cpuNumber, numberAfter, hspace]

theorem kind_core {loop : Loop} (h : kind loop buf = .core) : scans coreFormat buf = true := by
  unfold kind at h
  split at h
  · cases h
  · split at h
    · next hcore => exact hcore.2
    · split at h
      · cases h
      · split at h <;> cases h

theorem kind_cpu {loop : Loop} (h : kind loop buf = .cpu) :
    loop ≠ .clusters ∧ scans coreFormat buf = false ∧ scans cpuFormat buf = true := by
  unfold kind at h
  split at h
  · cases h
  · split at h
    · cases h
    · next hcore =>
      split at h
      · next hcpu => exact ⟨hcpu.1, by simpa [hcpu.1] using hcore, hcpu.2⟩
      · split at h <;> cases h

theorem kind_comment {loop : Loop} (h : kind loop buf = .comment) : isComment buf = true := by
  unfold kind at h
  split at h
  · assumption
  · split at h
    · cases h
    · split at h
      · cases h
      · split at h <;> cases h

/-- The second white space of a format skips nothing. -/
theorem sscanf_htCpu (buf : List Char) : sscanf htCpuFormat buf = sscanf cpuFormat buf :=
  congrArg (sscanf (lits "cpu".toList ++ [.conv .d])) (List.dropWhile_idempotent isSpace buf)

end Lines

section Round

variable {signedChar : Bool} {mode : Mode} {locals : Locals} {topo : CpuTopology} {buf : List Char}

def readerOf (mode : Mode) (locals : Locals) (topo : CpuTopology) : TopoReader :=
  { loop := mode.loop, info := locals.info, pid := locals.pid, topo := topo }

theorem clusterLine_eq {info : TopologyInfo} {loop : Loop} {pid : Char} :
    clusterLine signedChar ⟨loop, info, pid, topo⟩ buf =
      if scans clusterFormat buf then
        .fetch ⟨.cores false,
          { info with
            physicalId := charValue signedChar (assignedChar (sscanf clusterFormat buf) pid) - 65 },
          assignedChar (sscanf clusterFormat buf) pid, topo⟩
      else .leave := by
  unfold clusterLine scans
  by_cases h : (sscanf clusterFormat buf).ret = 0
  · simp only [h, if_true, ne_eq, not_true, decide_false, Bool.false_eq_true, if_false]
  · simp only [h, if_false, ne_eq, not_false_eq_true, decide_true, if_true]

theorem topoLine_kind : topoLine signedChar (readerOf mode locals topo) buf =
    match kind mode.loop buf with
    | .stop => .ok .leave
    | .cpu => (addTopoInfo topo (locals.after signedChar mode buf).info).map fun topo =>
      .fetch (readerOf (mode.after buf) (locals.after signedChar mode buf) topo)
    | _ => .ok (.fetch (readerOf (mode.after buf) (locals.after signedChar mode buf) topo)) := by
  unfold topoLine Mode.after Locals.after
  by_cases hcomment : isComment buf = true
  · have hkind : kind mode.loop buf = .comment := by simp [kind, hcomment]
    simp only [hcomment, if_true, hkind]
  · simp only [hcomment, Bool.false_eq_true, if_false]
    obtain ⟨loop, lettered, numbered⟩ := mode
    cases loop with
    | clusters =>
      simp only [readerOf, clusterLine_eq]
      by_cases hcluster : scans clusterFormat buf = true
      · have hkind : kind .clusters buf = .cluster := by simp [kind, hcomment, hcluster]
        simp only [hcluster, if_true, hkind]
      · have hkind : kind .clusters buf = .stop := by simp [kind, hcomment, hcluster]
        simp only [hcluster, Bool.false_eq_true, if_false, hkind]
    | cores isHt =>
      have hformat : sscanf (if isHt then htCpuFormat else cpuFormat) buf =
          sscanf cpuFormat buf := by
        cases isHt
        · rfl
        · exact sscanf_htCpu buf
      simp only [readerOf, coreLine, hformat, clusterLine_eq]
      by_cases hcore : (sscanf coreFormat buf).ret = 0
      · by_cases hcpu : (sscanf cpuFormat buf).ret = 0
        · by_cases hcluster : scans clusterFormat buf = true
          · have hkind : kind (.cores isHt) buf = .cluster := by
              simp [kind, hcomment, scans, hcore, hcpu, ← hcluster]
            simp [hcore, hcpu, hcluster, hkind]
          · have hkind : kind (.cores isHt) buf = .stop := by
              simp [kind, hcomment, scans, hcore, hcpu] at hcluster ⊢
              simp [hcluster]
            simp [hcore, hcpu, hcluster, hkind]
        · have hkind : kind (.cores isHt) buf = .cpu := by
            simp [kind, hcomment, scans, hcore, hcpu]
          have hht : decide (Loop.cores isHt = .cores true) = isHt := by cases isHt <;> rfl
          simp only [hcore, hcpu, hkind, hht, ne_eq, not_true, if_false, bind, Except.bind]
          cases addTopoInfo topo (cpuInfo isHt (sscanf cpuFormat buf) locals.info) <;> rfl
      · have hkind : kind (.cores isHt) buf = .core := by
          simp [kind, hcomment, scans, hcore]
        simp [hcore, hkind]

end Round

section Run

variable {signedChar : Bool} {mode : Mode} {locals : Locals} {topo : CpuTopology}
  {lines consumed rest : List (List Char)} {buf stop : List Char} {info : TopologyInfo}

/-- The ids of the `add_topo_info` call that a line makes. -/
def callsAt (signedChar : Bool) (mode : Mode) (locals : Locals) (buf : List Char) :
    List TopologyInfo :=
  if kind mode.loop buf = .cpu then [(locals.after signedChar mode buf).info] else []

def calls (signedChar : Bool) : Mode → Locals → List (List Char) → List TopologyInfo
  | _, _, [] => []
  | mode, locals, buf :: lines => callsAt signedChar mode locals buf ++
      calls signedChar (mode.after buf) (locals.after signedChar mode buf) lines

/-- None of the lines leaves the loops. -/
def Stays (mode : Mode) (lines : List (List Char)) : Prop :=
  ∀ before buf after, lines = before ++ buf :: after →
    kind (before.foldl Mode.after mode).loop buf ≠ .stop

theorem stays_nil (mode : Mode) : Stays mode [] := by
  intro before buf after hsplit
  simp at hsplit

theorem stays_cons : Stays mode (buf :: lines) ↔
    kind mode.loop buf ≠ .stop ∧ Stays (mode.after buf) lines := by
  constructor
  · intro h
    refine ⟨h [] buf lines rfl, ?_⟩
    intro before buf' after hsplit
    exact h (buf :: before) buf' after (by rw [hsplit]; rfl)
  · rintro ⟨hfirst, hrest⟩ before buf' after hsplit
    cases before with
    | nil =>
      obtain ⟨rfl, -⟩ := List.cons.inj hsplit
      exact hfirst
    | cons first before =>
      obtain ⟨rfl, rfl⟩ := List.cons.inj hsplit
      exact hrest before buf' after rfl

theorem readTopoLines_cons (hkind : kind mode.loop buf ≠ .stop) :
    readTopoLines signedChar (readerOf mode locals topo) (buf :: lines) =
      Runs.run addTopoInfo topo (callsAt signedChar mode locals buf) >>= fun topo =>
        readTopoLines signedChar
          (readerOf (mode.after buf) (locals.after signedChar mode buf) topo) lines := by
  rw [readTopoLines, topoLine_kind]
  unfold callsAt
  cases hcase : kind mode.loop buf with
  | stop => exact absurd hcase hkind
  | comment => rfl
  | core => rfl
  | cluster => rfl
  | cpu =>
    rw [if_pos rfl, Runs.run_cons]
    cases addTopoInfo topo (locals.after signedChar mode buf).info <;> rfl

theorem readTopoLines_stays (h : Stays mode consumed) :
    readTopoLines signedChar (readerOf mode locals topo) (consumed ++ lines) =
      Runs.run addTopoInfo topo (calls signedChar mode locals consumed) >>= fun topo =>
        readTopoLines signedChar (readerOf (consumed.foldl Mode.after mode)
          (localsOf signedChar mode locals consumed) topo) lines := by
  induction consumed generalizing mode locals topo with
  | nil => rfl
  | cons buf consumed ih =>
    obtain ⟨hkind, hrest⟩ := stays_cons.mp h
    rw [List.cons_append, readTopoLines_cons hkind, calls, Runs.run_append]
    cases Runs.run addTopoInfo topo (callsAt signedChar mode locals buf) with
    | error fault => rfl
    | ok next => exact ih hrest

theorem stays_or_stop (mode : Mode) (lines : List (List Char)) : Stays mode lines ∨
    ∃ consumed stop rest, lines = consumed ++ stop :: rest ∧ Stays mode consumed ∧
      kind (consumed.foldl Mode.after mode).loop stop = .stop := by
  induction lines generalizing mode with
  | nil => exact .inl (stays_nil mode)
  | cons buf lines ih =>
    by_cases hstop : kind mode.loop buf = .stop
    · exact .inr ⟨[], buf, lines, rfl, stays_nil mode, hstop⟩
    · cases ih (mode.after buf) with
      | inl hstays => exact .inl (stays_cons.mpr ⟨hstop, hstays⟩)
      | inr hsplit =>
        obtain ⟨consumed, stop, rest, rfl, hstays, hend⟩ := hsplit
        exact .inr ⟨buf :: consumed, stop, rest, rfl, stays_cons.mpr ⟨hstop, hstays⟩, hend⟩

/-- The reader comes back at the first line that leaves the loops, with the tree
of its calls. -/
theorem readTopoLines_eq_some {read : TopoRead} :
    readTopoLines signedChar (readerOf mode locals topo) lines = .ok (some read) ↔
      ∃ consumed, lines = consumed ++ read.buf :: read.file ∧ Stays mode consumed ∧
        kind (consumed.foldl Mode.after mode).loop read.buf = .stop ∧
        Runs.run addTopoInfo topo (calls signedChar mode locals consumed) = .ok read.topo := by
  have hread : ∀ {consumed : List (List Char)} {stop : List Char} {rest : List (List Char)},
      Stays mode consumed → kind (consumed.foldl Mode.after mode).loop stop = .stop →
      readTopoLines signedChar (readerOf mode locals topo) (consumed ++ stop :: rest) =
        (Runs.run addTopoInfo topo (calls signedChar mode locals consumed)).map fun topo =>
          some ⟨topo, stop, rest⟩ := by
    intro consumed stop rest hstays hend
    rw [readTopoLines_stays hstays]
    cases Runs.run addTopoInfo topo (calls signedChar mode locals consumed) with
    | error fault => rfl
    | ok next =>
      change readTopoLines signedChar _ (stop :: rest) = _
      rw [readTopoLines, topoLine_kind, hend]
      rfl
  constructor
  · intro h
    cases stays_or_stop mode lines with
    | inl hstays =>
      rw [← List.append_nil lines, readTopoLines_stays hstays] at h
      obtain ⟨next, -, hnone⟩ := Runs.bind_eq_ok h
      cases hnone
    | inr hsplit =>
      obtain ⟨consumed, stop, rest, rfl, hstays, hend⟩ := hsplit
      rw [hread hstays hend] at h
      obtain ⟨next, hrun, hsome⟩ := Runs.map_eq_ok h
      obtain rfl := Option.some.inj hsome
      exact ⟨consumed, rfl, hstays, hend, hrun⟩
  · rintro ⟨consumed, rfl, hstays, hend, hrun⟩
    rw [hread hstays hend, hrun]
    rfl

theorem mem_calls : info ∈ calls signedChar mode locals lines ↔
    ∃ before buf after, lines = before ++ buf :: after ∧
      info ∈ callsAt signedChar (before.foldl Mode.after mode)
        (localsOf signedChar mode locals before) buf := by
  induction lines generalizing mode locals with
  | nil => simp [calls]
  | cons first lines ih =>
    rw [calls, List.mem_append, ih]
    constructor
    · intro h
      rcases h with hfirst | ⟨before, buf, after, rfl, hmem⟩
      · exact ⟨[], first, lines, rfl, hfirst⟩
      · exact ⟨first :: before, buf, after, rfl, hmem⟩
    · rintro ⟨before, buf, after, hsplit, hmem⟩
      cases before with
      | nil =>
        obtain ⟨rfl, -⟩ := List.cons.inj hsplit
        exact .inl hmem
      | cons x before =>
        obtain ⟨rfl, rfl⟩ := List.cons.inj hsplit
        exact .inr ⟨before, buf, after, rfl, hmem⟩

end Run

section Fresh

variable {signedChar : Bool} {mode : Mode} {locals : Locals} {names : Names} {buf : List Char}

/-- The locals hold what the lines name, where the lines are whole. -/
structure Fresh (mode : Mode) (locals : Locals) (names : Names) : Prop where
  outside : mode.loop = .clusters → mode.lettered = false
  inside : mode.numbered = true → mode.loop = .cores true
  cluster : mode.lettered = true → names.cluster = some locals.info.physicalId
  plain : mode.lettered = true → mode.loop = .cores false → names.core = none
  core : mode.lettered = true → mode.numbered = true → names.core = some locals.info.coreId

theorem fresh_first (locals : Locals) : Fresh firstMode locals ⟨none, none⟩ where
  outside := fun _ => rfl
  inside := fun h => by cases h
  cluster := fun h => by cases h
  plain := fun h => by cases h
  core := fun h => by cases h

theorem names_core (h : scans coreFormat buf = true) : names.after signedChar buf =
    match coreNumber buf with
    | some n => { names with core := some n }
    | none => names := by
  cases hletter : clusterLetter buf with
  | some c =>
    rw [(scans_of_letter hletter).1] at h
    cases h
  | none => simp only [Names.after, hletter]

theorem names_other (hletter : clusterLetter buf = none) (hcore : coreNumber buf = none) :
    names.after signedChar buf = names := by
  simp only [Names.after, hletter, hcore]

theorem names_cpu (hcore : scans coreFormat buf = false) (hcpu : scans cpuFormat buf = true) :
    names.after signedChar buf = names := by
  apply names_other
  · cases hletter : clusterLetter buf with
    | none => rfl
    | some c =>
      rw [(scans_of_letter hletter).2.1] at hcpu
      cases hcpu
  · cases hnumber : coreNumber buf with
    | none => rfl
    | some n =>
      have hscans : scans coreFormat buf = true := scans_of_some hnumber
      rw [hcore] at hscans
      cases hscans

theorem fresh_core (hkind : kind mode.loop buf = .core) (h : Fresh mode locals names) :
    Fresh (mode.after buf) (locals.after signedChar mode buf) (names.after signedChar buf) := by
  rw [names_core (kind_core hkind)]
  simp only [Mode.after, Locals.after, hkind]
  cases hnumber : coreNumber buf with
  | none =>
    have hscan : (sscanf coreFormat buf).assigned = [] := assigned_of_none hnumber
    exact
      { outside := fun hloop => by cases hloop
        inside := fun _ => rfl
        cluster := h.cluster
        plain := fun _ hloop => by cases hloop
        core := by simpa only [assignedInt, hscan] using h.core }
  | some n =>
    obtain ⟨value, hscan, hvalue⟩ := assigned_of_some hnumber
    have hscan : (sscanf coreFormat buf).assigned = [.int value] := hscan
    exact
      { outside := fun hloop => by cases hloop
        inside := fun _ => rfl
        cluster := h.cluster
        plain := fun _ hloop => by cases hloop
        core := fun _ hint => by
          simp only [assignedInt, hscan, hvalue (of_decide_eq_true hint)] }

theorem fresh_after (hstay : kind mode.loop buf ≠ .stop) (h : Fresh mode locals names) :
    Fresh (mode.after buf) (locals.after signedChar mode buf) (names.after signedChar buf) := by
  cases hkind : kind mode.loop buf with
  | stop => exact absurd hkind hstay
  | core => exact fresh_core hkind h
  | comment =>
    obtain ⟨hletter, hcore, -⟩ := names_of_comment (kind_comment hkind)
    rw [names_other hletter hcore]
    simpa only [Mode.after, Locals.after, hkind] using h
  | cpu =>
    obtain ⟨hloop, hcore, hcpu⟩ := kind_cpu hkind
    rw [names_cpu hcore hcpu]
    simp only [Mode.after, Locals.after, hkind]
    have hht : mode.numbered = true → decide (mode.loop = .cores true) = true :=
      fun hnumbered => decide_eq_true (h.inside hnumbered)
    exact
      { outside := h.outside
        inside := h.inside
        cluster := h.cluster
        plain := h.plain
        core := fun hlettered hnumbered => by
          simp only [cpuInfo, hht hnumbered, if_true]
          exact h.core hlettered hnumbered }
  | cluster =>
    simp only [Mode.after, Locals.after, hkind]
    cases hletter : clusterLetter buf with
    | none =>
      exact
        { outside := fun hloop => by cases hloop
          inside := fun hnumbered => by cases hnumbered
          cluster := fun hlettered => by cases hlettered
          plain := fun hlettered => by cases hlettered
          core := fun hlettered => by cases hlettered }
    | some c =>
      have hscan : (sscanf clusterFormat buf).assigned = [.char c] := by
        rw [assigned_cluster, hletter]
      exact
        { outside := fun hloop => by cases hloop
          inside := fun hnumbered => by cases hnumbered
          cluster := fun _ => by simp only [Names.after, hletter, assignedChar, hscan]
          plain := fun _ _ => by simp only [Names.after, hletter]
          core := fun _ hnumbered => by cases hnumbered }

theorem fresh_lines {lines : List (List Char)} (hstays : Stays mode lines)
    (h : Fresh mode locals names) :
    Fresh (lines.foldl Mode.after mode) (localsOf signedChar mode locals lines)
      (lines.foldl (Names.after signedChar) names) := by
  induction lines generalizing mode locals names with
  | nil => exact h
  | cons buf lines ih =>
    obtain ⟨hkind, hrest⟩ := stays_cons.mp hstays
    exact ih hrest (fresh_after hkind h)

theorem named_of_whole (h : Fresh mode locals names) (hkind : kind mode.loop buf = .cpu)
    (hwhole : Whole mode buf) :
    cpuNumber buf = some (locals.after signedChar mode buf).info.cpuId ∧
      names.cluster = some (locals.after signedChar mode buf).info.physicalId ∧
      (locals.after signedChar mode buf).info.coreId =
        names.core.getD (locals.after signedChar mode buf).info.cpuId := by
  obtain ⟨hlettered, hnumbered, n, hnumber, hint⟩ := hwhole
  obtain ⟨value, hscan, hvalue⟩ := assigned_of_some hnumber
  have hscan : (sscanf cpuFormat buf).assigned = [.int n] := by
    rw [← hvalue hint]
    exact hscan
  simp only [Locals.after, hkind, cpuInfo, assignedInt, hscan]
  refine ⟨hnumber, h.cluster hlettered, ?_⟩
  cases hloop : mode.loop with
  | clusters =>
    rw [h.outside hloop] at hlettered
    cases hlettered
  | cores isHt =>
    cases isHt with
    | true =>
      rw [h.core hlettered (hnumbered hloop)]
      rfl
    | false =>
      rw [h.plain hlettered hloop]
      rfl

end Fresh

theorem nonNegative_of_run {topo topo' : CpuTopology} {infos : List TopologyInfo}
    (h : Runs.run addTopoInfo topo infos = .ok topo') : ∀ info ∈ infos, NonNegative info := by
  induction infos generalizing topo with
  | nil => simp
  | cons first infos ih =>
    obtain ⟨next, hadd, hrest⟩ := Runs.bind_eq_ok h
    rw [List.forall_mem_cons]
    refine ⟨?_, ih hrest⟩
    unfold addTopoInfo at hadd
    split at hadd
    · cases hadd
    · unfold NonNegative
      omega

/-- Each line that adds a CPU is whole. -/
def AddsWhole : Mode → List (List Char) → Prop
  | _, [] => True
  | mode, buf :: lines => (kind mode.loop buf = .cpu → Whole mode buf) ∧
      AddsWhole (mode.after buf) lines

/-- A whole line names a negative id, at which the assertion of `add_topo_info`
fails. -/
def NamesNegative (signedChar : Bool) (lines : List (List Char)) : Prop :=
  ∃ before buf after info, lines = before ++ buf :: after ∧
    kind (modeOf before).loop buf = .cpu ∧ Whole (modeOf before) buf ∧
    cpuNumber buf = some info.cpuId ∧
    (namesOf signedChar before).cluster = some info.physicalId ∧
    info.coreId = (namesOf signedChar before).core.getD info.cpuId ∧ ¬ NonNegative info

/-- If a line ends the section, the lines before it that add a CPU are all whole,
or one of them names a negative id. -/
def WholeSection (signedChar : Bool) (lines : List (List Char)) : Prop :=
  ∀ consumed stop rest, lines = consumed ++ stop :: rest → Stays firstMode consumed →
    kind (modeOf consumed).loop stop = .stop →
    AddsWhole firstMode consumed ∨ NamesNegative signedChar consumed

section Whole

variable {signedChar : Bool} {mode : Mode} {locals : Locals} {info : TopologyInfo}
  {consumed before after rest : List (List Char)} {buf stop : List Char}

theorem addsWhole_split (h : AddsWhole mode (before ++ buf :: after)) :
    kind (before.foldl Mode.after mode).loop buf = .cpu →
      Whole (before.foldl Mode.after mode) buf := by
  induction before generalizing mode with
  | nil => exact h.1
  | cons first before ih => exact ih h.2

theorem stays_split (h : Stays mode (before ++ buf :: after)) : Stays mode before := by
  intro earlier line later heq
  exact h earlier line (later ++ buf :: after) (by rw [heq]; simp)

theorem named_of_callsAt (hstays : Stays firstMode before) (hwhole : Whole (modeOf before) buf)
    (hcall : info ∈
      callsAt signedChar (modeOf before) (localsOf signedChar firstMode locals before) buf) :
    cpuNumber buf = some info.cpuId ∧
      (namesOf signedChar before).cluster = some info.physicalId ∧
      info.coreId = (namesOf signedChar before).core.getD info.cpuId := by
  have hfresh : Fresh (modeOf before) (localsOf signedChar firstMode locals before)
      (namesOf signedChar before) := fresh_lines hstays (fresh_first locals)
  unfold callsAt at hcall
  split at hcall
  · next hkind =>
    obtain rfl := List.mem_singleton.mp hcall
    exact named_of_whole hfresh hkind hwhole
  · cases hcall

/-- A section with a negative id in a whole line does not get past the assertion. -/
theorem negative_call (hstays : Stays firstMode consumed) (h : NamesNegative signedChar consumed)
    (locals : Locals) :
    ∃ x ∈ calls signedChar firstMode locals consumed, ¬ NonNegative x := by
  obtain ⟨before, buf, after, info, rfl, hkind, hwhole, hcpu, hcluster, hcore, hnegative⟩ := h
  let added := ((localsOf signedChar firstMode locals before).after signedChar
    (modeOf before) buf).info
  have hcall : added ∈ callsAt signedChar (modeOf before)
      (localsOf signedChar firstMode locals before) buf := by
    rw [callsAt, if_pos hkind]
    exact List.mem_singleton_self _
  obtain ⟨hcpu', hcluster', hcore'⟩ := named_of_callsAt (stays_split hstays) hwhole hcall
  have hcpuId : added.cpuId = info.cpuId := Option.some.inj (hcpu'.symm.trans hcpu)
  have hphysicalId : added.physicalId = info.physicalId :=
    Option.some.inj (hcluster'.symm.trans hcluster)
  have hcoreId : added.coreId = info.coreId := by rw [hcore', hcore, hcpuId]
  refine ⟨added, mem_calls.mpr ⟨before, buf, after, rfl, hcall⟩, ?_⟩
  rwa [NonNegative, hcpuId, hphysicalId, hcoreId]

theorem stop_unique {consumed' rest' : List (List Char)} {stop' : List Char}
    (hlines : consumed ++ stop :: rest = consumed' ++ stop' :: rest')
    (hstays : Stays mode consumed) (hstop : kind (consumed.foldl Mode.after mode).loop stop = .stop)
    (hstays' : Stays mode consumed')
    (hstop' : kind (consumed'.foldl Mode.after mode).loop stop' = .stop) :
    consumed = consumed' := by
  induction consumed generalizing mode consumed' with
  | nil =>
    cases consumed' with
    | nil => rfl
    | cons first consumed' =>
      obtain ⟨rfl, -⟩ := List.cons.inj hlines
      exact absurd hstop (stays_cons.mp hstays').1
  | cons first consumed ih =>
    cases consumed' with
    | nil =>
      obtain ⟨rfl, -⟩ := List.cons.inj hlines
      exact absurd hstop' (stays_cons.mp hstays).1
    | cons first' consumed' =>
      obtain ⟨rfl, hrest⟩ := List.cons.inj hlines
      rw [ih hrest (stays_cons.mp hstays).2 hstop (stays_cons.mp hstays').2 hstop']

end Whole

theorem readCpuTopoInfo_eq_some {signedChar : Bool} {info : TopologyInfo} {pid : Char}
    {buf : List Char} {file : List (List Char)} {read : TopoRead} :
    readCpuTopoInfo signedChar info pid buf file = .ok (some read) ↔
      ∃ consumed, buf :: file = consumed ++ read.buf :: read.file ∧ Stays firstMode consumed ∧
        kind (modeOf consumed).loop read.buf = .stop ∧
        Runs.run addTopoInfo allocCpuTopoInfo (calls signedChar firstMode ⟨info, pid⟩ consumed) =
          .ok read.topo := by
  change readTopoLines signedChar (readerOf firstMode ⟨info, pid⟩ allocCpuTopoInfo)
    (buf :: file) = .ok (some read) ↔ _
  exact readTopoLines_eq_some

instance (mode : Mode) (buf : List Char) : Decidable (Whole mode buf) :=
  decidable_of_iff (mode.lettered = true ∧ (mode.loop = .cores true → mode.numbered = true) ∧
      (cpuNumber buf).any (fun n => decide (IsInt n)) = true) <| by
    simp only [Whole, Option.any_eq_true, decide_eq_true_eq]

instance : (mode : Mode) → (lines : List (List Char)) → Decidable (AddsWhole mode lines)
  | _, [] => .isTrue trivial
  | mode, buf :: lines =>
    let _ : Decidable (AddsWhole (mode.after buf) lines) :=
      instDecidableAddsWhole (mode.after buf) lines
    inferInstanceAs (Decidable ((kind mode.loop buf = .cpu → Whole mode buf) ∧
      AddsWhole (mode.after buf) lines))

instance : (mode : Mode) → (lines : List (List Char)) → Decidable (Stays mode lines)
  | mode, [] => .isTrue (stays_nil mode)
  | mode, buf :: lines =>
    let _ : Decidable (Stays (mode.after buf) lines) := instDecidableStays (mode.after buf) lines
    decidable_of_iff (kind mode.loop buf ≠ .stop ∧ Stays (mode.after buf) lines) stays_cons.symm

def plainLines : List (List Char) :=
  ["clusterA:\n", "\tcore0\n", "\t\tcpu0\n", "\t\tcpu1\n", "clusterB:\n", "\tcpu2\n"].map
    String.toList

section Blank

variable {signedChar : Bool} {lines : List (List Char)} {info : TopologyInfo}

def named (signedChar : Bool) : Names → List (List Char) → List TopologyInfo
  | _, [] => []
  | names, buf :: lines =>
    (match names.cluster, cpuNumber buf with
      | some physicalId, some cpuId => [⟨physicalId, names.core.getD cpuId, cpuId⟩]
      | _, _ => []) ++ named signedChar (names.after signedChar buf) lines

theorem mem_named_of_split {names : Names} {before after : List (List Char)} {buf : List Char}
    (hcpu : cpuNumber buf = some info.cpuId)
    (hcluster : (before.foldl (Names.after signedChar) names).cluster = some info.physicalId)
    (hcore : info.coreId = (before.foldl (Names.after signedChar) names).core.getD info.cpuId) :
    info ∈ named signedChar names (before ++ buf :: after) := by
  induction before generalizing names with
  | nil =>
    have hcluster : names.cluster = some info.physicalId := hcluster
    have hcore : info.coreId = names.core.getD info.cpuId := hcore
    simp only [List.nil_append, named, hcluster, hcpu, ← hcore]
    exact List.mem_append_left _ (List.mem_singleton.mpr rfl)
  | cons first before ih =>
    rw [List.cons_append, named]
    exact List.mem_append_right _ (ih hcluster hcore)

theorem mem_named (h : NamedBy signedChar lines info) :
    info ∈ named signedChar ⟨none, none⟩ lines := by
  obtain ⟨before, buf, after, rfl, hcpu, hcluster, hcore⟩ := h
  exact mem_named_of_split hcpu hcluster hcore

end Blank

/-- A blank line in a cluster passes for a core line. -/
def blankLines : List (List Char) :=
  ["\tcore0\n", "\t\tcpu0\n", "clusterB:\n", "\n", "\t\tcpu1\n"].map String.toList

end Idlestat.Theory.TopologyNames
