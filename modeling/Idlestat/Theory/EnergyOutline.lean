import Idlestat.Library.Runs
import Idlestat.Library.ScanFields
import Idlestat.Model.EnergyModel
import Idlestat.Theory.TopologyNames

/-! The outline of an energy model file, read off its text: cluster lines and
headings cut it into parts with rows. The parser as a run of rounds, what one
round can do, and the invariant that its state follows the outline. -/
namespace Idlestat.Theory.EnergyOutline

open Idlestat.Library Idlestat.Library.Scan Idlestat.Library.TextFile
  Idlestat.Model.Topology Idlestat.Model.TopologyFile
  Idlestat.Model.TraceLine Idlestat.Model.EnergyModel Idlestat.Theory.TopologyNames

/-! ## Kinds of lines -/

inductive LineKind
  | skipped
  | clusters
  | clusterInfo
  | pstates
  | cstates
  | wakeup
  | row
  deriving DecidableEq

/-- The tests of the loop, in its order. -/
def lineKind (buffer : List Char) : LineKind :=
  if buffer.head? = some '#' then .skipped
  else if buffer.length = 1 then .skipped
  else if strstr buffer "clusters" then .clusters
  else if strstr buffer "cluster" ∧ ¬ strstr buffer "cluster-" then .clusterInfo
  else if strstr buffer "P-states" then .pstates
  else if strstr buffer "C-states" then .cstates
  else if strstr buffer "wakeup" then .wakeup
  else .row

theorem parseLine_eq (env : ParseEnv) (model : EnergyParse) (buffer : List Char) :
    model.parseLine env buffer = match lineKind buffer with
      | .skipped => .ok (some model)
      | .clusters => .ok (model.parseClusters env buffer)
      | .clusterInfo => model.parseClusterInfo env buffer
      | .pstates => model.parsePstates
      | .cstates => model.parseCstates
      | .wakeup => model.parseWakeup env buffer
      | .row => model.parseRow buffer := by
  unfold EnergyParse.parseLine lineKind
  split_ifs <;> rfl

def clusterCount (buffer : List Char) : Nat :=
  match (sscanf clustersFormat buffer).assigned with
  | [.uint clusters] => clusters
  | _ => 0

/-- The numbers of a cluster line that has all of its parts. -/
def declaredStates (buffer : List Char) : Option (Nat × Nat) :=
  match (sscanf clusterInfoFormat buffer).assigned with
  | [.char _, .uint capStates, .uint cStates] => some (capStates, cStates)
  | _ => none

def clusterNumber (signedChar : Bool) (letter : Char) : Int :=
  charValue signedChar letter - 65

section Scans

variable {model : EnergyParse} {buffer : List Char}

def statesFormat : List Directive :=
  [.lit ':', .space, .conv .u, .space] ++ lits "cap".toList ++ [.space] ++
    lits "states".toList ++ [.space, .conv .u, .space, .lit 'C', .space] ++ lits "states".toList

theorem assigned_states (input : List Char) :
    (sscanf statesFormat input).assigned = [] ∨
      (∃ n, (sscanf statesFormat input).assigned = [.uint n]) ∨
        ∃ n m, (sscanf statesFormat input).assigned = [.uint n, .uint m] := by
  obtain ⟨k, hk⟩ := assigned_conversions statesFormat input
  have hconversions : conversions statesFormat = [.u, .u] := by decide +kernel
  rw [hconversions] at hk
  match k with
  | 0 => exact .inl (List.forall₂_nil_left_iff.mp hk)
  | 1 =>
    obtain ⟨value, rest, hn, hrest, heq⟩ := List.forall₂_cons_left_iff.mp hk
    obtain ⟨n, rfl⟩ := yields_u hn
    rw [List.forall₂_nil_left_iff.mp hrest] at heq
    exact .inr (.inl ⟨n, heq⟩)
  | k + 2 =>
    obtain ⟨value, rest, hn, hrest, heq⟩ := List.forall₂_cons_left_iff.mp hk
    obtain ⟨value', rest', hm, hnil, hrest'⟩ := List.forall₂_cons_left_iff.mp hrest
    obtain ⟨n, rfl⟩ := yields_u hn
    obtain ⟨m, rfl⟩ := yields_u hm
    rw [List.take_nil] at hnil
    rw [hrest', List.forall₂_nil_left_iff.mp hnil] at heq
    exact .inr (.inr ⟨n, m, heq⟩)

theorem assigned_clusterInfo : (sscanf clusterInfoFormat buffer).assigned =
    match clusterLetter buffer with
    | some letter => .char letter :: (sscanf statesFormat (buffer.drop 8)).assigned
    | none => [] := by
  have hformat : clusterInfoFormat = lits "cluster".toList ++ .conv .c :: statesFormat := by
    decide +kernel
  have hlength : "cluster".toList.length = 7 := by decide +kernel
  have hdrop : buffer.drop 8 = (buffer.drop 7).tail := by
    rw [List.tail_drop]
  rw [hformat, assigned_lits, hlength, clusterLetter, hdrop]
  split
  · generalize buffer.drop 7 = rest
    cases rest <;> rfl
  · rfl

theorem scanClusterInfo_letter :
    (model.scanClusterInfo buffer).1 = (clusterLetter buffer).getD model.tmp := by
  rw [EnergyParse.scanClusterInfo, assigned_clusterInfo]
  cases clusterLetter buffer with
  | none => rfl
  | some letter =>
    rcases assigned_states (buffer.drop 8) with h | ⟨n, h⟩ | ⟨n, m, h⟩ <;> simp only [h] <;> rfl

theorem scanClusterInfo_states {capStates cStates : Nat}
    (h : declaredStates buffer = some (capStates, cStates)) :
    (model.scanClusterInfo buffer).2 = (capStates, cStates) := by
  unfold declaredStates at h
  split at h
  · next hassigned =>
    rw [EnergyParse.scanClusterInfo, hassigned]
    exact Option.some.inj h
  · cases h

theorem parseClusters_eq {env : ParseEnv} (h : model.clustersInEnergyFile = 0) :
    model.parseClusters env buffer = some { model with
      clustersInEnergyFile := clusterCount buffer
      clusterEnergyTable := (List.range (clusterCount buffer)).map env.table } := by
  rw [EnergyParse.parseClusters, if_neg (not_not_intro h)]
  simp only [h]
  rfl

end Scans

/-! ## The outline -/

/-- A cluster line or a heading and the rows below it, with the letter and the
numbers of the cluster line above. -/
structure Part where
  letter : Char
  states : Option (Nat × Nat)
  state : EnergyFileParseState
  rows : List (List Char)

def openPart (state : EnergyFileParseState) : List Part → List Part
  | [] => []
  | part :: rest => { part with state := state, rows := [] } :: part :: rest

def addRow (buffer : List Char) : List Part → List Part
  | [] => []
  | part :: rest => { part with rows := part.rows ++ [buffer] } :: rest

theorem mem_openPart {state : EnergyFileParseState} {parts : List Part} {part : Part}
    (h : part ∈ openPart state parts) :
    ∃ old ∈ parts, old.letter = part.letter ∧ old.states = part.states := by
  cases parts with
  | nil => cases h
  | cons first rest =>
    cases List.mem_cons.mp h with
    | inl heq => exact ⟨first, List.mem_cons_self, heq ▸ rfl, heq ▸ rfl⟩
    | inr hmem => exact ⟨part, hmem, rfl, rfl⟩

theorem mem_addRow {buffer : List Char} {parts : List Part} {part : Part}
    (h : part ∈ addRow buffer parts) :
    ∃ old ∈ parts, old.letter = part.letter ∧ old.states = part.states := by
  cases parts with
  | nil => cases h
  | cons first rest =>
    cases List.mem_cons.mp h with
    | inl heq => exact ⟨first, List.mem_cons_self, heq ▸ rfl, heq ▸ rfl⟩
    | inr hmem => exact ⟨part, List.mem_cons_of_mem _ hmem, rfl, rfl⟩

def lastLetter (tmp : Char) : List Part → Char
  | [] => tmp
  | part :: _ => part.letter

/-- One more line; the latest part is the first of the list. -/
def extend (tmp : Char) (parts : List Part) (buffer : List Char) : List Part :=
  match lineKind buffer with
  | .clusterInfo =>
    ⟨(clusterLetter buffer).getD (lastLetter tmp parts), declaredStates buffer,
      .parsedClusterInfo, []⟩ :: parts
  | .pstates => openPart .parsingCapStates parts
  | .cstates => openPart .parsingCStates parts
  | .row => addRow buffer parts
  | _ => parts

def outline (tmp : Char) (lines : List (List Char)) : List Part :=
  lines.foldl (extend tmp) []

theorem outline_concat (tmp : Char) (past : List (List Char)) (buffer : List Char) :
    outline tmp (past ++ [buffer]) = extend tmp (outline tmp past) buffer :=
  List.foldl_concat _ _ _ _

/-! ## Rounds -/

/-- One round of the loop as a partial step, which fails with nothing where the
file is refused. -/
def round (env : ParseEnv) (model : EnergyParse) (buffer : List Char) :
    Except (Option Fault) EnergyParse :=
  match model.parseLine env buffer with
  | .ok (some next) => .ok next
  | .ok none => .error none
  | .error fault => .error (some fault)

theorem round_eq_ok {env : ParseEnv} {model next : EnergyParse} {buffer : List Char} :
    round env model buffer = .ok next ↔ model.parseLine env buffer = .ok (some next) := by
  unfold round
  split
  · next hline => simp [hline]
  · next hline => simp [hline]
  · next hline => simp [hline]

theorem parseLines_eq_ok {env : ParseEnv} {lines : List (List Char)} {model next : EnergyParse} :
    parseLines env lines model = .ok (some next) ↔
      Runs.run (round env) model lines = .ok next := by
  induction lines generalizing model with
  | nil => simp [parseLines, Runs.run]
  | cons buffer lines ih =>
    rw [parseLines, Runs.run_cons, round]
    cases model.parseLine env buffer with
    | error fault => simp [bind, Except.bind]
    | ok result =>
      cases result with
      | none => simp [bind, Except.bind]
      | some model => exact ih

inductive Step (env : ParseEnv) (model : EnergyParse) (buffer : List Char) : EnergyParse → Prop
  | skipped (h : lineKind buffer = .skipped) : Step env model buffer model
  | clusters (h : lineKind buffer = .clusters) (hfirst : model.clustersInEnergyFile = 0) :
      Step env model buffer { model with
        clustersInEnergyFile := clusterCount buffer
        clusterEnergyTable := (List.range (clusterCount buffer)).map env.table }
  | clusterInfo (h : lineKind buffer = .clusterInfo) {i : Nat} {info : ClusterEnergyInfo}
      {letter : Char} {capStates cStates : Nat}
      (hscan : model.scanClusterInfo buffer = (letter, capStates, cStates))
      (hi : clusterNumber env.signedChar letter = i)
      (hinfo : model.clusterEnergyTable[i]? = some info) (hfree : info.numberCapStates = 0) :
      Step env model buffer ({ model with
        currentCluster := i
        clustp := some i
        tmp := letter
        numberCapStates := capStates
        numberCStates := cStates }.setCluster i { info with
          numberCapStates := capStates
          numberCStates := cStates
          pEnergy := List.replicate capStates ⟨0, 0, 0⟩
          cEnergy := List.replicate cStates ⟨[], 0, 0⟩
          state := .parsedClusterInfo })
  | pstates (h : lineKind buffer = .pstates) {i : Nat} {info : ClusterEnergyInfo}
      (hclustp : model.clustp = some i) (hinfo : model.clusterEnergyTable[i]? = some info) :
      Step env model buffer
        { model.setCluster i { info with state := .parsingCapStates } with currentPstate := 0 }
  | cstates (h : lineKind buffer = .cstates) {i : Nat} {info : ClusterEnergyInfo}
      (hclustp : model.clustp = some i) (hinfo : model.clusterEnergyTable[i]? = some info) :
      Step env model buffer
        { model.setCluster i { info with state := .parsingCStates } with currentCstate := 0 }
  | wakeup (h : lineKind buffer = .wakeup) {i : Nat} {info : ClusterEnergyInfo}
      (hclustp : model.clustp = some i) (hinfo : model.clusterEnergyTable[i]? = some info)
      (wakeupEnergy : WakeupEnergyInfo) :
      Step env model buffer (model.setCluster i { info with wakeupEnergy := wakeupEnergy })
  | capState (h : lineKind buffer = .row) {i : Nat} {info : ClusterEnergyInfo}
      (hclustp : model.clustp = some i) (hinfo : model.clusterEnergyTable[i]? = some info)
      (hstate : info.state = .parsingCapStates) {speed clustP coreP : Nat}
      (hscan : (sscanf pstateFormat buffer).assigned = [.uint speed, .uint clustP, .uint coreP])
      (hroom : model.currentPstate < info.numberCapStates) :
      Step env model buffer { model.setCluster i { info with
        pEnergy := info.pEnergy.set model.currentPstate ⟨speed, clustP, coreP⟩ } with
        currentPstate := model.currentPstate + 1 }
  | cState (h : lineKind buffer = .row) {i : Nat} {info : ClusterEnergyInfo}
      (hclustp : model.clustp = some i) (hinfo : model.clusterEnergyTable[i]? = some info)
      (hstate : info.state = .parsingCStates) {name : List Char} {clustP coreP : Nat}
      (hscan : (sscanf cstateFormat buffer).assigned = [.str name, .uint clustP, .uint coreP])
      (hname : name.length < namelen)
      (hroom : model.currentCstate < info.numberCStates) :
      Step env model buffer { model.setCluster i { info with
        cEnergy := info.cEnergy.set model.currentCstate ⟨name, clustP, coreP⟩ } with
        currentCstate := model.currentCstate + 1 }
  | otherRow (h : lineKind buffer = .row) {i : Nat} {info : ClusterEnergyInfo}
      (hclustp : model.clustp = some i) (hinfo : model.clusterEnergyTable[i]? = some info)
      (hcap : info.state ≠ .parsingCapStates) (hc : info.state ≠ .parsingCStates) :
      Step env model buffer model

section Inversion

variable {env : ParseEnv} {model next : EnergyParse} {buffer : List Char} {i : Nat}
  {info : ClusterEnergyInfo}

theorem cluster_eq_ok (h : model.cluster = .ok (i, info)) :
    model.clustp = some i ∧ model.clusterEnergyTable[i]? = some info := by
  unfold EnergyParse.cluster at h
  split at h
  · cases h
  · next hclustp =>
    split at h
    · cases h
    · next hinfo =>
      obtain ⟨rfl, rfl⟩ := Prod.mk.inj (Except.ok.inj h)
      exact ⟨hclustp, hinfo⟩

theorem parseClusterInfo_eq (h : model.parseClusterInfo env buffer = .ok (some next))
    (hkind : lineKind buffer = .clusterInfo) : Step env model buffer next := by
  unfold EnergyParse.parseClusterInfo at h
  cases hscan : model.scanClusterInfo buffer with
  | mk letter states =>
    simp only [hscan] at h
    split at h
    · cases h
    · split at h
      · cases h
      · next hnonneg =>
        split at h
        · cases h
        · next info hinfo =>
          split at h
          · cases h
          · next hfree =>
            have hi : clusterNumber env.signedChar letter =
                ((charValue env.signedChar letter - 65).toNat : Nat) :=
              (Int.toNat_of_nonneg (not_lt.mp hnonneg)).symm
            obtain rfl := Option.some.inj (Except.ok.inj h)
            have hstep := Step.clusterInfo hkind hscan hi hinfo (not_not.mp hfree)
            rw [← hi] at hstep
            exact hstep

theorem parseHeading_eq {state : EnergyFileParseState}
    (h : model.parseHeading state = .ok (some next)) :
    ∃ i info, model.clustp = some i ∧ model.clusterEnergyTable[i]? = some info ∧
      next = model.setCluster i { info with state := state } := by
  unfold EnergyParse.parseHeading at h
  split at h
  · cases h
  · obtain ⟨⟨i, info⟩, hcluster, h⟩ := Runs.bind_eq_ok h
    obtain ⟨hclustp, hinfo⟩ := cluster_eq_ok hcluster
    dsimp only at h
    split at h
    · cases h
    · exact ⟨i, info, hclustp, hinfo, (Option.some.inj (Except.ok.inj h)).symm⟩

theorem parseRow_eq (h : model.parseRow buffer = .ok (some next))
    (hkind : lineKind buffer = .row) : Step env model buffer next := by
  unfold EnergyParse.parseRow at h
  split at h
  · cases h
  · obtain ⟨⟨i, info⟩, hcluster, h⟩ := Runs.bind_eq_ok h
    obtain ⟨hclustp, hinfo⟩ := cluster_eq_ok hcluster
    dsimp only at h
    split at h
    · next hstate =>
      have h := Except.ok.inj h
      unfold EnergyParse.parsePstate at h
      split at h
      · next hscan =>
        split at h
        · cases h
        · next hroom =>
          obtain rfl := Option.some.inj h
          exact .capState hkind hclustp hinfo hstate hscan (not_le.mp hroom)
      · cases h
    · next hstate =>
      unfold EnergyParse.parseCstate at h
      split at h
      · next hscan =>
        split at h
        · cases h
        · next hname =>
          split at h
          · split at h
            · cases h
            · next hroom =>
              obtain rfl := Option.some.inj (Except.ok.inj h)
              exact .cState hkind hclustp hinfo hstate hscan (not_le.mp hname) (not_le.mp hroom)
          · cases h
      · cases h
    · next hcap hc =>
      obtain rfl := Option.some.inj (Except.ok.inj h)
      exact .otherRow hkind hclustp hinfo hcap hc

theorem step_of_round (h : round env model buffer = .ok next) : Step env model buffer next := by
  have h := round_eq_ok.mp h
  rw [parseLine_eq] at h
  cases hkind : lineKind buffer with
  | skipped =>
    simp only [hkind] at h
    obtain rfl := Option.some.inj (Except.ok.inj h)
    exact .skipped hkind
  | clusters =>
    simp only [hkind] at h
    by_cases hfirst : model.clustersInEnergyFile = 0
    · rw [parseClusters_eq hfirst] at h
      obtain rfl := Option.some.inj (Except.ok.inj h)
      exact .clusters hkind hfirst
    · rw [EnergyParse.parseClusters, if_pos hfirst] at h
      cases h
  | clusterInfo =>
    simp only [hkind] at h
    exact parseClusterInfo_eq h hkind
  | pstates =>
    simp only [hkind] at h
    obtain ⟨opened, hopened, h⟩ := Runs.bind_eq_ok h
    cases opened with
    | none => cases h
    | some opened =>
      obtain ⟨i, info, hclustp, hinfo, rfl⟩ := parseHeading_eq hopened
      obtain rfl := Option.some.inj (Except.ok.inj h)
      exact .pstates hkind hclustp hinfo
  | cstates =>
    simp only [hkind] at h
    obtain ⟨opened, hopened, h⟩ := Runs.bind_eq_ok h
    cases opened with
    | none => cases h
    | some opened =>
      obtain ⟨i, info, hclustp, hinfo, rfl⟩ := parseHeading_eq hopened
      obtain rfl := Option.some.inj (Except.ok.inj h)
      exact .cstates hkind hclustp hinfo
  | wakeup =>
    simp only [hkind, EnergyParse.parseWakeup] at h
    split at h
    · cases h
    · obtain ⟨⟨i, info⟩, hcluster, h⟩ := Runs.bind_eq_ok h
      obtain ⟨hclustp, hinfo⟩ := cluster_eq_ok hcluster
      obtain rfl := Option.some.inj (Except.ok.inj h)
      exact .wakeup hkind hclustp hinfo _
  | row =>
    simp only [hkind] at h
    exact parseRow_eq h hkind

end Inversion

/-! ## The parser follows the outline -/

def Allocated (info : ClusterEnergyInfo) : Prop :=
  info.pEnergy.length = info.numberCapStates ∧ info.cEnergy.length = info.numberCStates

def Part.Fits (part : Part) : Prop :=
  ∀ n m, part.states = some (n, m) →
    (part.state = .parsingCapStates → part.rows.length ≤ n) ∧
      (part.state = .parsingCStates → part.rows.length ≤ m)

def Declared (env : ParseEnv) (table : List ClusterEnergyInfo) (part : Part) : Prop :=
  ∃ (i : Nat) (info : ClusterEnergyInfo), clusterNumber env.signedChar part.letter = i ∧
    table[i]? = some info ∧ Allocated info

/-- The cluster of the latest part is the current one. -/
structure At (env : ParseEnv) (model : EnergyParse) (part : Part) (i : Nat)
    (info : ClusterEnergyInfo) : Prop where
  number : clusterNumber env.signedChar part.letter = i
  clustp : model.clustp = some i
  currentCluster : model.currentCluster = i
  tmp : model.tmp = part.letter
  entry : model.clusterEnergyTable[i]? = some info
  state : info.state = part.state
  states : ∀ n m, part.states = some (n, m) →
    info.numberCapStates = n ∧ info.numberCStates = m
  pstate : part.state = .parsingCapStates → model.currentPstate = part.rows.length
  cstate : part.state = .parsingCStates → model.currentCstate = part.rows.length

structure Follows (env : ParseEnv) (parts : List Part) (model : EnergyParse) : Prop where
  length : model.clusterEnergyTable.length = model.clustersInEnergyFile
  start : parts = [] → model.clustp = none ∧ model.currentCluster = -1 ∧ model.tmp = env.tmp
  latest : ∀ part rest, parts = part :: rest → ∃ i info, At env model part i info
  declared : ∀ part ∈ parts, Declared env model.clusterEnergyTable part
  fits : ∀ part ∈ parts, part.Fits

section Follows

variable {env : ParseEnv} {model next : EnergyParse} {buffer : List Char} {i : Nat}
  {info info' : ClusterEnergyInfo} {part part' : Part} {parts more : List Part}

theorem follows_start : Follows env [] (startModel env) where
  length := rfl
  start := fun _ => ⟨rfl, rfl, rfl⟩
  latest := by simp
  declared := by simp
  fits := by simp

theorem entry_set (h : model.clusterEnergyTable[i]? = some info) :
    (model.clusterEnergyTable.set i info')[i]? = some info' := by
  have hi : i < model.clusterEnergyTable.length := (List.getElem?_eq_some_iff.mp h).1
  rw [List.getElem?_set, if_pos rfl, if_pos hi]

theorem entry_self (h : model.clusterEnergyTable[i]? = some info) :
    model.clusterEnergyTable.set i info = model.clusterEnergyTable := by
  obtain ⟨hi, heq⟩ := List.getElem?_eq_some_iff.mp h
  rw [← heq, List.set_getElem_self]

theorem declared_set {table : List ClusterEnergyInfo} (h : Declared env table part)
    (halloc : Allocated info') : Declared env (table.set i info') part := by
  obtain ⟨j, info, hnumber, hentry, hinfo⟩ := h
  by_cases hij : i = j
  · subst hij
    have hi : i < table.length := (List.getElem?_eq_some_iff.mp hentry).1
    refine ⟨i, info', hnumber, ?_, halloc⟩
    rw [List.getElem?_set, if_pos rfl, if_pos hi]
  · refine ⟨j, info, hnumber, ?_, hinfo⟩
    rw [List.getElem?_set, if_neg hij, hentry]

theorem follows_entry (h : Follows env parts model)
    (hclusters : next.clustersInEnergyFile = model.clustersInEnergyFile)
    (htable : next.clusterEnergyTable = model.clusterEnergyTable.set i info')
    (hat : At env next part' i info') (halloc : Allocated info') (hfits : part'.Fits)
    (hmore : ∀ part ∈ more, part ∈ parts) : Follows env (part' :: more) next where
  length := by rw [htable, List.length_set, hclusters, h.length]
  start := by simp
  latest := by
    intro part rest heq
    obtain ⟨rfl, rfl⟩ := List.cons.inj heq
    exact ⟨i, info', hat⟩
  declared := by
    intro part hpart
    cases List.mem_cons.mp hpart with
    | inl heq =>
      rw [heq]
      exact ⟨i, info', hat.number, hat.entry, halloc⟩
    | inr hmem =>
      rw [htable]
      exact declared_set (h.declared part (hmore part hmem)) halloc
  fits := by
    intro part hpart
    cases List.mem_cons.mp hpart with
    | inl heq =>
      rw [heq]
      exact hfits
    | inr hmem => exact h.fits part (hmore part hmem)

/-- The current cluster is the one of the latest part. -/
theorem exists_at (h : Follows env parts model) (hclustp : model.clustp = some i)
    (hinfo : model.clusterEnergyTable[i]? = some info) :
    ∃ part rest, parts = part :: rest ∧ At env model part i info ∧ Allocated info := by
  cases parts with
  | nil =>
    rw [(h.start rfl).1] at hclustp
    cases hclustp
  | cons part rest =>
    obtain ⟨i', info', hat⟩ := h.latest part rest rfl
    obtain rfl := Option.some.inj (hat.clustp.symm.trans hclustp)
    obtain rfl := Option.some.inj (hat.entry.symm.trans hinfo)
    obtain ⟨j, info'', hnumber, hentry, halloc⟩ := h.declared part List.mem_cons_self
    obtain rfl := Int.ofNat_inj.mp (hat.number.symm.trans hnumber)
    obtain rfl := Option.some.inj (hinfo.symm.trans hentry)
    exact ⟨part, rest, rfl, hat, halloc⟩

theorem tmp_eq (h : Follows env parts model) : model.tmp = lastLetter env.tmp parts := by
  cases parts with
  | nil => exact (h.start rfl).2.2
  | cons part rest =>
    obtain ⟨i, info, hat⟩ := h.latest part rest rfl
    exact hat.tmp

theorem parts_nil (h : Follows env parts model) (hnone : model.clustersInEnergyFile = 0) :
    parts = [] := by
  cases parts with
  | nil => rfl
  | cons part rest =>
    obtain ⟨i, info, -, hentry, -⟩ := h.declared part List.mem_cons_self
    have hi : i < model.clusterEnergyTable.length := (List.getElem?_eq_some_iff.mp hentry).1
    rw [h.length, hnone] at hi
    exact absurd hi (Nat.not_lt_zero i)

theorem follows_clusterInfo (h : Follows env parts model) {letter : Char} {capStates cStates : Nat}
    (hscan : model.scanClusterInfo buffer = (letter, capStates, cStates))
    (hi : clusterNumber env.signedChar letter = i)
    (hinfo : model.clusterEnergyTable[i]? = some info) :
    Follows env (⟨(clusterLetter buffer).getD (lastLetter env.tmp parts), declaredStates buffer,
        .parsedClusterInfo, []⟩ :: parts) ({ model with
          currentCluster := i
          clustp := some i
          tmp := letter
          numberCapStates := capStates
          numberCStates := cStates }.setCluster i { info with
            numberCapStates := capStates
            numberCStates := cStates
            pEnergy := List.replicate capStates ⟨0, 0, 0⟩
            cEnergy := List.replicate cStates ⟨[], 0, 0⟩
            state := .parsedClusterInfo }) := by
  have hletter : (clusterLetter buffer).getD (lastLetter env.tmp parts) = letter := by
    rw [← tmp_eq h, ← scanClusterInfo_letter, hscan]
  have hstates : ∀ n m, declaredStates buffer = some (n, m) → capStates = n ∧ cStates = m := by
    intro n m hdeclared
    have hboth : (model.scanClusterInfo buffer).2 = (n, m) := scanClusterInfo_states hdeclared
    rw [hscan] at hboth
    exact Prod.mk.inj hboth
  rw [hletter]
  exact follows_entry h rfl rfl
    { number := hi, clustp := rfl, currentCluster := rfl, tmp := rfl, entry := entry_set hinfo,
      state := rfl, states := hstates, pstate := nofun, cstate := nofun }
    ⟨List.length_replicate, List.length_replicate⟩ (fun _ _ _ => ⟨nofun, nofun⟩) fun _ hp => hp

theorem follows_heading (h : Follows env parts model) (hclustp : model.clustp = some i)
    (hinfo : model.clusterEnergyTable[i]? = some info) {state : EnergyFileParseState} {p c : Nat}
    (hp : state = .parsingCapStates → p = 0) (hc : state = .parsingCStates → c = 0) :
    Follows env (openPart state parts) { model.setCluster i { info with state := state } with
      currentPstate := p
      currentCstate := c } := by
  obtain ⟨part, rest, rfl, hat, halloc⟩ := exists_at h hclustp hinfo
  exact follows_entry h rfl rfl
    { hat with entry := entry_set hinfo, state := rfl, pstate := hp, cstate := hc }
    halloc (fun _ _ _ => ⟨fun _ => Nat.zero_le _, fun _ => Nat.zero_le _⟩) fun _ hp => hp

theorem follows_row (h : Follows env parts model) (hclustp : model.clustp = some i)
    (hinfo : model.clusterEnergyTable[i]? = some info) {p c : Nat}
    (hstate : info'.state = info.state)
    (hnumbers : info'.numberCapStates = info.numberCapStates ∧
      info'.numberCStates = info.numberCStates)
    (halloc : Allocated info → Allocated info')
    (hp : info.state = .parsingCapStates →
      p = model.currentPstate + 1 ∧ model.currentPstate < info.numberCapStates)
    (hc : info.state = .parsingCStates →
      c = model.currentCstate + 1 ∧ model.currentCstate < info.numberCStates) :
    Follows env (addRow buffer parts) { model.setCluster i info' with
      currentPstate := p
      currentCstate := c } := by
  obtain ⟨part, rest, rfl, hat, hold⟩ := exists_at h hclustp hinfo
  have hlength : (part.rows ++ [buffer]).length = part.rows.length + 1 := List.length_append
  have hcap : part.state = .parsingCapStates →
      p = (part.rows ++ [buffer]).length ∧ p ≤ info.numberCapStates := by
    intro hpart
    obtain ⟨hcount, hroom⟩ := hp (hat.state.trans hpart)
    rw [hlength, ← hat.pstate hpart]
    exact ⟨hcount, hcount ▸ hroom⟩
  have hcs : part.state = .parsingCStates →
      c = (part.rows ++ [buffer]).length ∧ c ≤ info.numberCStates := by
    intro hpart
    obtain ⟨hcount, hroom⟩ := hc (hat.state.trans hpart)
    rw [hlength, ← hat.cstate hpart]
    exact ⟨hcount, hcount ▸ hroom⟩
  refine follows_entry h rfl rfl
    { hat with
      entry := entry_set hinfo
      state := hstate.trans hat.state
      states := fun n m hstates => by rw [hnumbers.1, hnumbers.2]; exact hat.states n m hstates
      pstate := fun hpart => (hcap hpart).1
      cstate := fun hpart => (hcs hpart).1 }
    (halloc hold) ?_ fun _ hp => List.mem_cons_of_mem _ hp
  intro n m hstates
  obtain ⟨hn, hm⟩ := hat.states n m hstates
  constructor
  · intro hpart
    obtain ⟨hcount, hroom⟩ := hcap hpart
    exact hn ▸ hcount ▸ hroom
  · intro hpart
    obtain ⟨hcount, hroom⟩ := hcs hpart
    exact hm ▸ hcount ▸ hroom

theorem follows_step (h : Follows env parts model) (hstep : Step env model buffer next) :
    Follows env (extend env.tmp parts buffer) next := by
  unfold extend
  cases hstep with
  | skipped hkind =>
    rw [hkind]
    exact h
  | clusters hkind hfirst =>
    rw [hkind]
    obtain rfl := parts_nil h hfirst
    obtain ⟨hclustp, hcurrent, htmp⟩ := h.start rfl
    exact ⟨by simp, fun _ => ⟨hclustp, hcurrent, htmp⟩, by simp, by simp, by simp⟩
  | clusterInfo hkind hscan hi hinfo _ =>
    rw [hkind]
    exact follows_clusterInfo h hscan hi hinfo
  | pstates hkind hclustp hinfo =>
    rw [hkind]
    exact follows_heading h hclustp hinfo (fun _ => rfl) nofun
  | cstates hkind hclustp hinfo =>
    rw [hkind]
    exact follows_heading h hclustp hinfo nofun fun _ => rfl
  | wakeup hkind hclustp hinfo =>
    rw [hkind]
    obtain ⟨part, rest, rfl, hat, halloc⟩ := exists_at h hclustp hinfo
    exact follows_entry h rfl rfl { hat with entry := entry_set hinfo } halloc
      (h.fits part List.mem_cons_self) fun _ hp => List.mem_cons_of_mem _ hp
  | capState hkind hclustp hinfo hstate _ hroom =>
    rw [hkind]
    exact follows_row h hclustp hinfo rfl ⟨rfl, rfl⟩
      (fun halloc => ⟨by rw [List.length_set]; exact halloc.1, halloc.2⟩)
      (fun _ => ⟨rfl, hroom⟩) fun hother => absurd (hstate.symm.trans hother) nofun
  | cState hkind hclustp hinfo hstate _ _ hroom =>
    rw [hkind]
    exact follows_row h hclustp hinfo rfl ⟨rfl, rfl⟩
      (fun halloc => ⟨halloc.1, by rw [List.length_set]; exact halloc.2⟩)
      (fun hother => absurd (hstate.symm.trans hother) nofun) fun _ => ⟨rfl, hroom⟩
  | @otherRow hkind i info hclustp hinfo hcap hc =>
    rw [hkind]
    have hsame : { model.setCluster i info with
        currentPstate := model.currentPstate
        currentCstate := model.currentCstate } = model := by
      rw [EnergyParse.setCluster, entry_self hinfo]
    rw [← hsame]
    exact follows_row h hclustp hinfo rfl ⟨rfl, rfl⟩ id (fun hstate => absurd hstate hcap)
      fun hstate => absurd hstate hc

theorem follows_run {lines : List (List Char)}
    (h : Runs.run (round env) (startModel env) lines = .ok model) :
    Follows env (outline env.tmp lines) model := by
  refine Runs.run_preserved (fun past => Follows env (outline env.tmp past)) follows_start ?_ h
  intro past buffer model next _ hfollows hround
  rw [outline_concat]
  exact follows_step hfollows (step_of_round hround)

end Follows

end Idlestat.Theory.EnergyOutline
