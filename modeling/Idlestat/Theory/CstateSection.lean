import Idlestat.Library.Runs
import Idlestat.Model.TraceFiles

/-! Truncated C-state sections. The reader looks at no result of `fgets` or
`sscanf` but those of the CPUs' own lines, and at the end of the file it scans
the last line over and over. -/
namespace Idlestat.Theory.CstateSection

open Idlestat.Library Idlestat.Library.Scan Idlestat.Library.TextFile Idlestat.Model.Topology
  Idlestat.Model.Cstates Idlestat.Model.TopologyFile Idlestat.Model.CstateFile
  Idlestat.Model.TraceFiles
open Idlestat.Model.Loaders hiding loadAndBuildCstateInfo

/-! ## Sections -/

def isOnline (topo : CpuTopology) (cpu : Int) : Bool :=
  (cpuIsOnline topo cpu).toOption.getD false

def IsCpuid (cpu : Int) (buf : List Char) : Prop :=
  (sscanf cpuidFormat buf).assigned = [.int cpu]

def IsName (name : Option (List Char)) (buf : List Char) : Prop :=
  ∃ text, (sscanf nameFormat buf).assigned = [.str text] ∧
    name = if text = "(null)".toList then none else some text

def IsTarget (target : Int) (buf : List Char) : Prop :=
  (sscanf targetFormat buf).assigned = [.int target]

/-- Each state has two lines. -/
inductive Pairs : List CstateInfo → List (List Char) → Prop
  | nil : Pairs [] []
  | cons {info : CstateInfo} {infos : List CstateInfo} {name target : List Char}
      {lines : List (List Char)} (hname : IsName info.name name)
      (htarget : IsTarget info.targetResidency target) (hlines : Pairs infos lines) :
      Pairs (info :: infos) (name :: target :: lines)

/-- The lines hold the section of the CPUs, which says what the array has. -/
inductive Sections (topo : CpuTopology) :
    List Int → List (List Char) → List CpuidleCstates → Prop
  | nil {lines : List (List Char)} : Sections topo [] lines []
  | offline {cpu : Int} {cpus : List Int} {lines : List (List Char)}
      {array : List CpuidleCstates} (hcpu : isOnline topo cpu = false)
      (hrest : Sections topo cpus lines array) :
      Sections topo (cpu :: cpus) lines (emptyCstates :: array)
  | online {cpu : Int} {cpus : List Int} {header : List Char} {block lines : List (List Char)}
      {infos : List CstateInfo} {array : List CpuidleCstates} (hcpu : isOnline topo cpu = true)
      (hheader : IsCpuid cpu header) (hlength : infos.length = maxcstate)
      (hblock : Pairs infos block) (hrest : Sections topo cpus lines array) :
      Sections topo (cpu :: cpus) (header :: (block ++ lines))
        (buildCstateInfo (fun i => infos.getD i noInfo) :: array)

def SectionOf (topo : CpuTopology) (nrcpus : Int) (input : Input) :
    List CpuidleCstates → Prop :=
  Sections topo (cpuNumbers nrcpus) (input.buf :: input.file)

def Complete (topo : CpuTopology) (nrcpus : Int) (input : Input) : Prop :=
  ∃ array, SectionOf topo nrcpus input array

/-- Success takes a whole section, and what is loaded is in it; anything less is
an error of the loader. -/
structure Sound (topo : CpuTopology) (nrcpus : Int) (input : Input) : Prop where
  recorded : ∀ uninit array next,
    loadAndBuildCstateInfo uninit input nrcpus topo = .ok (some (array, next)) →
      SectionOf topo nrcpus input array
  refused : ¬ Complete topo nrcpus input →
    ∀ uninit, loadAndBuildCstateInfo uninit input nrcpus topo = .ok none
  native : ¬ Complete topo nrcpus input → ∀ env text cpus start,
    secondLine text = some (cpus, start) → checkNrcpus cpus = some nrcpus →
    readCpuTopoInfo env.signedChar env.cpuInfo env.pid start.buf start.file =
      .ok (some ⟨topo, input.buf, input.file⟩) →
    traceLoad env .idlestat text = .ok none

/-! ## Where the reader looks -/

/-- The line in the buffer after so many `fgets`: the last one from the end of
the file on. -/
def lineAt (input : Input) (n : Nat) : List Char :=
  (input.buf :: input.file).getD n (input.file.getLast?.getD input.buf)

def NameFits (buf : List Char) : Prop :=
  ∀ text, (sscanf nameFormat buf).assigned = [.str text] → text.length < nameSize

/-- The line of some CPU is not where it should be, 33 lines behind the one
before or at the end of the file, and no name before it is too long. -/
def MissingIn (cpus : List Int) (input : Input) : Prop :=
  ∃ k cpu, cpus[k]? = some cpu ∧ ¬ IsCpuid cpu (lineAt input (33 * k)) ∧
    ∀ j < k, ∀ i < maxcstate, NameFits (lineAt input (33 * j + (2 * i + 1)))

def Missing (topo : CpuTopology) (nrcpus : Int) (input : Input) : Prop :=
  MissingIn ((cpuNumbers nrcpus).filter (isOnline topo)) input

section Lines

variable {input : Input} {n m : Nat}

theorem lineAt_zero : lineAt input 0 = input.buf := rfl

theorem lineAt_fgets : lineAt input.fgets n = lineAt input (n + 1) := by
  obtain ⟨buf, file⟩ := input
  cases file with
  | nil => cases n <;> rfl
  | cons line file => simp [lineAt, Input.fgets, List.getLast?_cons]

theorem lineAt_advance : lineAt (Input.fgets^[m] input) n = lineAt input (n + m) := by
  induction m generalizing input with
  | zero => rfl
  | succ m ih => rw [Function.iterate_succ_apply, ih, lineAt_fgets, Nat.add_assoc]

theorem advance_buf : (Input.fgets^[m] input).buf = lineAt input m := by
  rw [← lineAt_zero, lineAt_advance, Nat.zero_add]

end Lines

section States

variable {uninit : Uninit} {rows : Nat → Uninit} {topo : CpuTopology} {input next : Input}
  {n : Nat}
  {infos : List CstateInfo}

theorem scanName_eq_ok {buf name : List Char} (h : scanName uninit buf = .ok name) :
    NameFits buf := by
  intro text htext
  simp only [scanName, htext] at h
  split at h
  · cases h
  · omega

theorem scanName_eq_text {buf name text : List Char}
    (htext : (sscanf nameFormat buf).assigned = [.str text])
    (h : scanName uninit buf = .ok name) : name = text := by
  simp only [scanName, htext] at h
  split at h
  · cases h
  · exact (Except.ok.inj h).symm

theorem scanName_of_fits {buf : List Char} (h : NameFits buf) :
    ∃ name, scanName uninit buf = .ok name := by
  unfold scanName
  split
  · next text htext =>
    have hfits := h text htext
    exact ⟨text, if_neg (by omega)⟩
  · exact ⟨uninit.name, rfl⟩

theorem loadCstate_next {info : CstateInfo} (h : loadCstate uninit input = .ok (info, next)) :
    NameFits (lineAt input 1) ∧ next = input.fgets.fgets := by
  obtain ⟨name, hname, hrest⟩ := Runs.bind_eq_ok h
  have hnext := (Prod.mk.inj (Except.ok.inj hrest)).2
  rw [← advance_buf]
  exact ⟨scanName_eq_ok hname, hnext.symm⟩

theorem loadCstate_of_fits (h : NameFits (lineAt input 1)) :
    ∃ info, loadCstate uninit input = .ok (info, input.fgets.fgets) := by
  rw [← advance_buf] at h
  have hname : ∃ name, scanName uninit input.fgets.buf = .ok name := scanName_of_fits h
  obtain ⟨name, hname⟩ := hname
  refine ⟨{ name := if name = "(null)".toList then none else some name
            targetResidency :=
              assignedInt (sscanf targetFormat input.fgets.fgets.buf) uninit.residency }, ?_⟩
  simp only [loadCstate, hname, bind, Except.bind]

def NamesFit (n : Nat) (input : Input) : Prop :=
  ∀ i < n, NameFits (lineAt input (2 * i + 1))

theorem namesFit_succ : NamesFit (n + 1) input ↔
    NameFits (lineAt input 1) ∧ NamesFit n input.fgets.fgets := by
  have hshift : ∀ i, lineAt input.fgets.fgets (2 * i + 1) = lineAt input (2 * (i + 1) + 1) :=
    fun i => by rw [lineAt_fgets, lineAt_fgets]; rfl
  unfold NamesFit
  simp only [hshift]
  constructor
  · intro h
    exact ⟨h 0 (by omega), fun i hi => h (i + 1) (by omega)⟩
  · rintro ⟨hfirst, hrest⟩ i hi
    cases i with
    | zero => exact hfirst
    | succ i => exact hrest i (by omega)

theorem loadStates_next (h : loadStates rows n input = .ok (infos, next)) :
    NamesFit n input ∧ next = Input.fgets^[2 * n] input := by
  induction n generalizing rows input infos with
  | zero =>
    obtain ⟨-, rfl⟩ := Prod.mk.inj (Except.ok.inj h)
    exact ⟨fun i hi => by omega, rfl⟩
  | succ n ih =>
    obtain ⟨⟨info, middle⟩, hstate, hrest⟩ := Runs.bind_eq_ok h
    obtain ⟨⟨others, last⟩, hstates, hok⟩ := Runs.bind_eq_ok hrest
    obtain ⟨-, rfl⟩ := Prod.mk.inj (Except.ok.inj hok)
    obtain ⟨hfits, rfl⟩ := loadCstate_next hstate
    obtain ⟨hothers, rfl⟩ := ih hstates
    exact ⟨namesFit_succ.mpr ⟨hfits, hothers⟩, rfl⟩

theorem loadStates_of_fits (h : NamesFit n input) :
    ∃ infos, loadStates rows n input = .ok (infos, Input.fgets^[2 * n] input) := by
  induction n generalizing rows input with
  | zero => exact ⟨[], rfl⟩
  | succ n ih =>
    obtain ⟨hfits, hothers⟩ := namesFit_succ.mp h
    have hstate : ∃ info, loadCstate (rows 0) input = .ok (info, input.fgets.fgets) :=
      loadCstate_of_fits hfits
    obtain ⟨info, hstate⟩ := hstate
    have hstates : ∃ infos, loadStates (fun i => rows (i + 1)) n input.fgets.fgets =
        .ok (infos, Input.fgets^[2 * n] input.fgets.fgets) := ih hothers
    obtain ⟨infos, hstates⟩ := hstates
    exact ⟨info :: infos, by simp only [loadStates, hstate, hstates, bind, Except.bind]; rfl⟩

theorem loadStates_pairs {block lines : List (List Char)} {buf : List Char}
    {wanted : List CstateInfo} (hpairs : Pairs wanted block)
    (h : loadStates rows wanted.length ⟨buf, block ++ lines⟩ = .ok (infos, next)) :
    infos = wanted ∧ next.file = lines := by
  induction hpairs generalizing rows buf infos with
  | nil =>
    obtain ⟨rfl, rfl⟩ := Prod.mk.inj (Except.ok.inj h)
    exact ⟨rfl, rfl⟩
  | @cons info wanted name target block hname htarget hrest ih =>
    obtain ⟨⟨first, middle⟩, hstate, hrest⟩ := Runs.bind_eq_ok h
    obtain ⟨⟨others, last⟩, hstates, hok⟩ := Runs.bind_eq_ok hrest
    obtain ⟨rfl, rfl⟩ := Prod.mk.inj (Except.ok.inj hok)
    obtain ⟨read, hread, hinfo⟩ := Runs.bind_eq_ok hstate
    obtain ⟨hfirst, rfl⟩ := Prod.mk.inj (Except.ok.inj hinfo)
    obtain ⟨rfl, hfile⟩ := ih hstates
    obtain ⟨text, htext, hnamed⟩ := hname
    have hread : read = text := scanName_eq_text htext hread
    have htarget : (sscanf targetFormat target).assigned = [.int info.targetResidency] := htarget
    have hsame : first = info := by
      rw [← hfirst, hread, ← hnamed]
      simp only [Input.fgets, List.cons_append, assignedInt, htarget]
    exact ⟨by rw [hsame], hfile⟩

end States

section Cpus

variable {uninit : Int → Nat → Uninit} {rows : Nat → Uninit} {topo : CpuTopology}
  {input next : Input} {cpu : Int}
  {cpus : List Int} {array : List CpuidleCstates}

theorem cpuIsOnline_eq (hcpu : 0 ≤ cpu) : cpuIsOnline topo cpu = .ok (isOnline topo cpu) := by
  have hnot : ¬ cpu < 0 := by omega
  unfold isOnline cpuIsOnline
  rw [if_neg hnot]
  split <;> rfl

theorem loadCpu_offline (hcpu : 0 ≤ cpu) (hoffline : isOnline topo cpu = false) :
    loadCpu rows topo cpu input = .ok (some (emptyCstates, input)) := by
  have honline : cpuIsOnline topo cpu = .ok (isOnline topo cpu) := cpuIsOnline_eq hcpu
  rw [hoffline] at honline
  simp only [loadCpu, honline, bind, Except.bind]
  rfl

theorem loadCpu_missing (hcpu : 0 ≤ cpu) (honline : isOnline topo cpu = true)
    (hid : ¬ IsCpuid cpu input.buf) : loadCpu rows topo cpu input = .ok none := by
  have hcall : cpuIsOnline topo cpu = .ok (isOnline topo cpu) := cpuIsOnline_eq hcpu
  rw [honline] at hcall
  simp only [loadCpu, hcall, bind, Except.bind, not_true, if_false]
  exact if_pos hid

theorem loadCpu_found (hcpu : 0 ≤ cpu) (honline : isOnline topo cpu = true)
    (hid : IsCpuid cpu input.buf) :
    loadCpu rows topo cpu input =
      (loadStates rows maxcstate input).map fun (infos, next) =>
        some (buildCstateInfo fun i => infos.getD i noInfo, next.fgets) := by
  have hcall : cpuIsOnline topo cpu = .ok (isOnline topo cpu) := cpuIsOnline_eq hcpu
  rw [honline] at hcall
  have hscan : (sscanf cpuidFormat input.buf).assigned = [.int cpu] := hid
  simp only [loadCpu, hcall, bind, Except.bind, not_true, if_false]
  rw [if_neg (not_not.mpr hscan)]
  cases loadStates rows maxcstate input <;> rfl

theorem missingIn_cons : MissingIn (cpu :: cpus) input ↔
    ¬ IsCpuid cpu input.buf ∨
      NamesFit maxcstate input ∧ MissingIn cpus (Input.fgets^[33] input) := by
  have hshift : ∀ k n, lineAt (Input.fgets^[33] input) (33 * k + n) =
      lineAt input (33 * (k + 1) + n) := by
    intro k n
    rw [lineAt_advance]
    congr 1
    omega
  constructor
  · rintro ⟨k, other, hk, hmiss, hfits⟩
    cases k with
    | zero =>
      obtain rfl := Option.some.inj hk
      exact .inl hmiss
    | succ k =>
      refine .inr ⟨fun i hi => ?_, k, other, hk, ?_, fun j hj i hi => ?_⟩
      · have hfirst := hfits 0 (by omega) i hi
        rwa [Nat.mul_zero, Nat.zero_add] at hfirst
      · rw [← Nat.add_zero (33 * k), hshift]
        exact hmiss
      · rw [hshift]
        exact hfits (j + 1) (by omega) i hi
  · intro h
    rcases h with hmiss | ⟨hnames, k, other, hk, hmiss, hfits⟩
    · exact ⟨0, cpu, rfl, hmiss, fun j hj => by omega⟩
    · rw [← Nat.add_zero (33 * k), hshift] at hmiss
      refine ⟨k + 1, other, hk, hmiss, fun j hj i hi => ?_⟩
      cases j with
      | zero =>
        rw [Nat.mul_zero, Nat.zero_add]
        exact hnames i hi
      | succ j =>
        have hlater := hfits j (by omega) i hi
        rwa [hshift] at hlater

theorem loadCpus_cons {first : CpuidleCstates}
    (h : loadCpu (uninit cpu) topo cpu input = .ok (some (first, next))) :
    loadCpus uninit topo (cpu :: cpus) input =
      (loadCpus uninit topo cpus next).map fun loaded =>
        loaded.map fun (array, last) => (first :: array, last) := by
  simp only [loadCpus, h, bind, Except.bind]
  cases loadCpus uninit topo cpus next with
  | error fault => rfl
  | ok loaded => cases loaded <;> rfl

/-- The loop fails exactly where a CPU's line is missing. -/
theorem loadCpus_none_iff (hcpus : ∀ cpu ∈ cpus, 0 ≤ cpu) :
    loadCpus uninit topo cpus input = .ok none ↔
      MissingIn (cpus.filter (isOnline topo)) input := by
  induction cpus generalizing input with
  | nil => simp [loadCpus, MissingIn]
  | cons cpu cpus ih =>
    have hcpu : 0 ≤ cpu := hcpus cpu List.mem_cons_self
    have hrest : ∀ input, loadCpus uninit topo cpus input = .ok none ↔
        MissingIn (cpus.filter (isOnline topo)) input :=
      fun _ => ih fun other hmem => hcpus other (List.mem_cons_of_mem cpu hmem)
    have hmap : ∀ (first : CpuidleCstates) next, ((loadCpus uninit topo cpus next).map fun loaded =>
        loaded.map fun (array, last) => (first :: array, last)) = .ok none ↔
        loadCpus uninit topo cpus next = .ok none := by
      intro first next
      cases loadCpus uninit topo cpus next with
      | error fault => simp [Except.map]
      | ok loaded => cases loaded <;> simp [Except.map]
    by_cases honline : isOnline topo cpu = true
    · rw [List.filter_cons_of_pos honline, missingIn_cons]
      by_cases hid : IsCpuid cpu input.buf
      · have hload : loadCpu (uninit cpu) topo cpu input =
            (loadStates (uninit cpu) maxcstate input).map fun (infos, next) =>
              some (buildCstateInfo fun i => infos.getD i noInfo, next.fgets) :=
          loadCpu_found hcpu honline hid
        rw [or_iff_right (not_not.mpr hid), ← hrest]
        by_cases hfits : NamesFit maxcstate input
        · have hstates : ∃ infos, loadStates (uninit cpu) maxcstate input =
              .ok (infos, Input.fgets^[2 * maxcstate] input) := loadStates_of_fits hfits
          obtain ⟨infos, hstates⟩ := hstates
          rw [hstates] at hload
          have hadvance : (Input.fgets^[2 * maxcstate] input).fgets = Input.fgets^[33] input :=
            (Function.iterate_succ_apply' Input.fgets 32 input).symm
          rw [loadCpus_cons hload, hmap, hadvance, and_iff_right hfits]
        · cases hstates : loadStates (uninit cpu) maxcstate input with
          | error fault =>
            rw [hstates] at hload
            simp [loadCpus, hload, hfits, bind, Except.bind, Except.map]
          | ok loaded => exact absurd (loadStates_next hstates).1 hfits
      · simp [loadCpus, loadCpu_missing hcpu honline hid, hid, bind, Except.bind]
    · rw [List.filter_cons_of_neg honline,
        loadCpus_cons (loadCpu_offline hcpu (Bool.eq_false_iff.mpr honline)), hmap, hrest]

theorem loadCpus_cons_ok {last : Input}
    (h : loadCpus uninit topo (cpu :: cpus) input = .ok (some (array, last))) :
    ∃ first middle rest, loadCpu (uninit cpu) topo cpu input = .ok (some (first, middle)) ∧
      loadCpus uninit topo cpus middle = .ok (some (rest, last)) ∧ array = first :: rest := by
  obtain ⟨loaded, hload, hrest⟩ := Runs.bind_eq_ok h
  cases loaded with
  | none => cases hrest
  | some loaded =>
    obtain ⟨others, hothers, hok⟩ := Runs.bind_eq_ok hrest
    cases others with
    | none => cases hok
    | some others =>
      obtain ⟨rfl, rfl⟩ := Prod.mk.inj (Option.some.inj (Except.ok.inj hok))
      exact ⟨loaded.1, loaded.2, others.1, hload, hothers, rfl⟩

/-- The input stands at the lines, or has run past the last one. -/
def Stands (input : Input) (lines : List (List Char)) : Prop :=
  lines = [] ∨ lines = input.buf :: input.file

theorem stands_fgets {lines : List (List Char)} (h : input.file = lines) :
    Stands input.fgets lines := by
  cases lines with
  | nil => exact .inl rfl
  | cons line rest =>
    refine .inr ?_
    simp only [Input.fgets, h]

theorem loadCpus_sections {lines : List (List Char)} {wanted : List CpuidleCstates}
    (h : Sections topo cpus lines wanted) (hcpus : ∀ cpu ∈ cpus, 0 ≤ cpu)
    (hstands : Stands input lines)
    (hload : loadCpus uninit topo cpus input = .ok (some (array, next))) : array = wanted := by
  induction h generalizing input array with
  | nil => exact (Prod.mk.inj (Option.some.inj (Except.ok.inj hload))).1.symm
  | @offline cpu cpus lines wanted hoffline hrest ih =>
    obtain ⟨first, middle, rest, hcpu, hothers, rfl⟩ := loadCpus_cons_ok hload
    rw [loadCpu_offline (hcpus cpu List.mem_cons_self) hoffline] at hcpu
    obtain ⟨rfl, rfl⟩ := Prod.mk.inj (Option.some.inj (Except.ok.inj hcpu))
    rw [ih (fun cpu hmem => hcpus cpu (List.mem_cons_of_mem _ hmem)) hstands hothers]
  | @online cpu cpus header block lines infos wanted honline hheader hlength hblock hrest ih =>
    obtain ⟨first, middle, rest, hcpu, hothers, rfl⟩ := loadCpus_cons_ok hload
    have hinput : input = ⟨header, block ++ lines⟩ := by
      cases hstands with
      | inl hnil => cases hnil
      | inr hcons =>
        obtain ⟨hbuf, hfile⟩ := List.cons.inj hcons
        rw [hbuf, hfile]
    rw [hinput, loadCpu_found (hcpus cpu List.mem_cons_self) honline hheader] at hcpu
    obtain ⟨⟨read, after⟩, hstates, hread⟩ := Runs.map_eq_ok hcpu
    obtain ⟨rfl, rfl⟩ := Prod.mk.inj (Option.some.inj hread)
    rw [← hlength] at hstates
    obtain ⟨rfl, hfile⟩ := loadStates_pairs hblock hstates
    rw [ih (fun cpu hmem => hcpus cpu (List.mem_cons_of_mem _ hmem)) (stands_fgets hfile) hothers]

end Cpus

/-- What is not a whole section is refused, and nothing is made up, exactly when
the section is whole or the line of a CPU is missing. -/
theorem truncated_refused (topo : CpuTopology) (nrcpus : Int) (input : Input) :
    Sound topo nrcpus input ↔ Complete topo nrcpus input ∨ Missing topo nrcpus input := by
  have hcpus : ∀ cpu ∈ cpuNumbers nrcpus, 0 ≤ cpu := by
    intro cpu hmem
    obtain ⟨n, -, rfl⟩ := List.mem_map.mp hmem
    exact Int.natCast_nonneg n
  have hnone : ∀ uninit, 0 < nrcpus → (loadAndBuildCstateInfo uninit input nrcpus topo = .ok none ↔
      Missing topo nrcpus input) := by
    intro uninit hpos
    rw [loadAndBuildCstateInfo, if_neg (by omega)]
    exact loadCpus_none_iff hcpus
  have hempty : ¬ 0 < nrcpus → Complete topo nrcpus input := by
    intro hnot
    have hzero : cpuNumbers nrcpus = [] := by
      simp only [cpuNumbers, List.map_eq_nil_iff, List.range_eq_nil]
      omega
    refine ⟨[], ?_⟩
    rw [SectionOf, hzero]
    exact .nil
  have hrefused : Missing topo nrcpus input → ¬ Complete topo nrcpus input →
      ∀ uninit, loadAndBuildCstateInfo uninit input nrcpus topo = .ok none := by
    intro hmissing hcomplete uninit
    apply (hnone uninit _).mpr hmissing
    by_contra hnot
    exact hcomplete (hempty hnot)
  constructor
  · intro h
    by_cases hcomplete : Complete topo nrcpus input
    · exact .inl hcomplete
    · have hpos : 0 < nrcpus := by
        by_contra hnot
        exact hcomplete (hempty hnot)
      exact .inr ((hnone (fun _ _ => ⟨[], 0⟩) hpos).mp (h.refused hcomplete _))
  · intro h
    have hload : ¬ Complete topo nrcpus input →
        ∀ uninit, loadAndBuildCstateInfo uninit input nrcpus topo = .ok none :=
      fun hcomplete => hrefused (h.resolve_left hcomplete) hcomplete
    refine ⟨?_, hload, ?_⟩
    · intro uninit array next hok
      by_cases hcomplete : Complete topo nrcpus input
      · obtain ⟨wanted, hsection⟩ := hcomplete
        unfold loadAndBuildCstateInfo at hok
        split at hok
        · cases hok
        · rw [loadCpus_sections hsection hcpus (.inr rfl) hok]
          exact hsection
      · rw [hload hcomplete uninit] at hok
        cases hok
    · intro hcomplete env text cpus start hsecond hnrcpus htopo
      have hcstates : loadAndBuildCstateInfo env.uninit ⟨input.buf, input.file⟩ nrcpus topo =
          .ok none := hload hcomplete env.uninit
      simp only [traceLoad, loadDatas, idlestatDatas, hsecond, hnrcpus, htopo, hcstates, bind,
        Except.bind]

/-- A file that ends behind the line of its only CPU. -/
def cutText : List Char :=
  "idlestat version = 0.8\ncpus=1\nclusterA:\n\tcore0\n\t\tcpu0\ncpuid 0:\n".toList

def cutEnv : Env where
  signedChar := true
  cpuInfo := ⟨0, 0, 0⟩
  pid := 'A'
  uninit := fun _ _ => ⟨"garbage".toList, 7⟩
  host := none
  info := fun _ _ => noInfo
  strtod := fun _ => 0

def cutTopo : CpuTopology :=
  ((addTopoInfo allocCpuTopoInfo ⟨0, 0, 0⟩).toOption).getD allocCpuTopoInfo

def cutInput : Input := ⟨"cpuid 0:\n".toList, []⟩

theorem cut_not_complete : ¬ Complete cutTopo 1 cutInput := by
  have hcpus : cpuNumbers 1 = [0] := by decide
  have honline : isOnline cutTopo 0 = true := by decide +kernel
  rintro ⟨array, h⟩
  rw [SectionOf, hcpus] at h
  generalize hlines : cutInput.buf :: cutInput.file = lines at h
  cases h with
  | offline hoffline =>
    rw [honline] at hoffline
    cases hoffline
  | @online _ _ header block rest infos array _ _ hlength hblock _ =>
    -- nothing is left for the states
    have hnil : block = [] := (List.append_eq_nil_iff.mp (List.cons.inj hlines).2.symm).1
    rw [hnil] at hblock
    cases hblock
    cases hlength

/-- The file is loaded: the CPU's own line serves as the name of each of its
states, and whatever the memory held as their residency. -/
theorem truncated_refused_cut :
    ((idlestatDatas cutEnv cutText).toOption.bind id).map (fun load =>
        let cstate := (load.datas.cstates (.percpu 0)).cstate 15
        (cstate.name, cstate.targetResidency)) = some (some "cpuid".toList, 7) ∧
      ¬ Sound cutTopo 1 cutInput := by
  refine ⟨by decide +kernel, ?_⟩
  intro h
  have hnone := h.refused cut_not_complete cutEnv.uninit
  have hsome : ((loadAndBuildCstateInfo cutEnv.uninit cutInput 1 cutTopo).toOption.bind id).isSome =
      true := by decide +kernel
  rw [hnone] at hsome
  cases hsome

end Idlestat.Theory.CstateSection
