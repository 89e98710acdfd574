import Idlestat.Model.CstateFile
import Idlestat.Theory.TopologyRoundTrip
import Mathlib.Data.List.FinRange

/-! The C-state section read back. Writer and reader stay in step over every
set of online CPUs, and the reader stops at the line after the section. -/
namespace Idlestat.Theory.CstateRoundTrip

open Idlestat.Library Idlestat.Library.Scan Idlestat.Library.TextFile Idlestat.Model.Topology
  Idlestat.Model.Cstates Idlestat.Model.TopologyFile Idlestat.Model.CstateFile
  Idlestat.Theory.TopologyRoundTrip
open Idlestat.Model.Loaders hiding loadAndBuildCstateInfo

/-- A name as sysfs gives them, and that printing does not mistake for a null
pointer. -/
structure IsName (name : List Char) : Prop where
  inhabited : name ≠ []
  noSpace : ∀ c ∈ name, isSpace c = false
  noNul : '\x00' ∉ name
  fits : name.length < nameSize
  notNull : name ≠ "(null)".toList

/-- What the section can carry about one state. -/
structure InfoOk (info : CstateInfo) : Prop where
  name : ∀ name ∈ info.name, IsName name
  target : IsInt info.targetResidency

section Lines

variable {name : Option (List Char)} {target cpu : Int}

theorem isInt_of_isId (h : IsId cpu) : IsInt cpu := by
  obtain ⟨hnonneg, hmax⟩ := h
  exact ⟨by omega, hmax⟩

theorem word_printString (h : ∀ text ∈ name, IsName text) :
    printString name ≠ [] ∧ (∀ c ∈ printString name, isSpace c = false) ∧
      '\x00' ∉ printString name ∧ (printString name).length < nameSize := by
  cases name with
  | none =>
    have hword : ("(null)".toList.all fun c => !isSpace c) = true := by decide
    refine ⟨by decide, fun c hc => ?_, by decide, by decide⟩
    simpa using List.all_eq_true.mp hword c hc
  | some text =>
    have htext : IsName text := h text rfl
    exact ⟨htext.inhabited, htext.noSpace, htext.noNul, htext.fits⟩

theorem scan_name (h : ∀ text ∈ name, IsName text) :
    sscanf nameFormat (nameText name) = ⟨[.str (printString name)], false⟩ := by
  obtain ⟨hne, hword, -, -⟩ := word_printString h
  have hhead : ∀ c ∈ (printString name).head?, isSpace c = false := fun c hc =>
    hword c (List.mem_of_mem_head? hc)
  have htab : sscanf nameFormat (nameText name) =
      sscanf nameFormat (printString name ++ ['\n']) := sscanf_space_cons rfl
  rw [htab, nameFormat, sscanf_space hne hhead]
  simp only [sscanf, read_s hne hword (show isSpace '\n' = true by decide)]

theorem scan_target (h : IsInt target) :
    sscanf targetFormat (targetText target) = ⟨[.int target], false⟩ := by
  have htab : sscanf targetFormat (targetText target) =
      sscanf targetFormat (printInt target ++ ['\n']) := sscanf_space_cons rfl
  have hstop : NoDigit ['\n'] := by decide
  rw [htab, targetFormat, sscanf_space (printInt_ne_nil target) (isSpace_head_printInt target)]
  simp only [sscanf, read_d_int h hstop]

theorem scan_cpuid (h : IsId cpu) :
    (sscanf cpuidFormat (cpuidLine cpu)).assigned = [.int cpu] := by
  have hword : sscanf cpuidFormat (cpuidLine cpu) =
      sscanf [.space, .conv .d, .lit ':', .space] (' ' :: printInt cpu ++ [':', '\n']) :=
    sscanf_lits "cpuid".toList
  have hstop : NoDigit [':', '\n'] := by decide
  rw [hword, List.cons_append, sscanf_space_cons rfl,
    sscanf_space (printInt_ne_nil cpu) (isSpace_head_printInt cpu)]
  simp only [sscanf, read_d_int (isInt_of_isId h) hstop, if_true]

end Lines

section Reading

variable {uninit : Uninit} {rows : Nat → Uninit} {topo : CpuTopology} {buf next : List Char}
  {file : List (List Char)}

def stateLines (info : CstateInfo) : List (List Char) :=
  [nameText info.name, targetText info.targetResidency]

def cpuLines (online : Int → Bool) (info : Int → Fin maxcstate → CstateInfo) (cpu : Int) :
    List (List Char) :=
  if online cpu then cpuidLine cpu :: (List.ofFn (info cpu)).flatMap stateLines else []

def cpuCstates (online : Int → Bool) (info : Int → Fin maxcstate → CstateInfo) (cpu : Int) :
    CpuidleCstates :=
  if online cpu then buildCstateInfo (info cpu) else emptyCstates

theorem scanName_nameText {name : Option (List Char)} (h : ∀ text ∈ name, IsName text) :
    scanName uninit (nameText name) = .ok (printString name) := by
  obtain ⟨-, -, -, hlen⟩ := word_printString h
  have hfits : ¬ nameSize ≤ (printString name).length := by omega
  simp only [scanName, scan_name h, hfits, if_false]

theorem name_read {name : Option (List Char)} (h : ∀ text ∈ name, IsName text) :
    (if printString name = "(null)".toList then none else some (printString name)) = name := by
  cases name with
  | none => rfl
  | some text => exact if_neg (h text rfl).notNull

theorem loadCstate_eq {info : CstateInfo} (h : InfoOk info) :
    loadCstate uninit ⟨buf, stateLines info ++ file⟩ =
      .ok (info, ⟨targetText info.targetResidency, file⟩) := by
  have hname : scanName uninit (nameText info.name) = .ok (printString info.name) :=
    scanName_nameText h.name
  have htarget : assignedInt (sscanf targetFormat (targetText info.targetResidency))
      uninit.residency = info.targetResidency := by
    rw [scan_target h.target]
    rfl
  simp only [loadCstate, Input.fgets, stateLines, List.cons_append, List.nil_append, hname,
    htarget, bind, Except.bind, name_read h.name]

theorem loadStates_eq {infos : List CstateInfo} (h : ∀ info ∈ infos, InfoOk info) :
    ∃ last, loadStates rows infos.length ⟨buf, infos.flatMap stateLines ++ file⟩ =
      .ok (infos, ⟨last, file⟩) := by
  induction infos generalizing buf rows with
  | nil => exact ⟨buf, rfl⟩
  | cons info infos ih =>
    have hinfo : InfoOk info := h info List.mem_cons_self
    have hstates : ∃ last, loadStates (fun i => rows (i + 1)) infos.length
        ⟨targetText info.targetResidency, infos.flatMap stateLines ++ file⟩ =
          .ok (infos, ⟨last, file⟩) := ih fun info' hmem => h info' (List.mem_cons_of_mem _ hmem)
    obtain ⟨last, hrest⟩ := hstates
    refine ⟨last, ?_⟩
    rw [List.flatMap_cons, List.append_assoc, List.length_cons, loadStates, loadCstate_eq hinfo]
    simp only [bind, Except.bind, hrest]

theorem loadCpu_online {cpu : Int} {info : Fin maxcstate → CstateInfo}
    (honline : cpuIsOnline topo cpu = .ok true) (hcpu : IsId cpu) (h : ∀ i, InfoOk (info i)) :
    loadCpu rows topo cpu
        ⟨cpuidLine cpu, (List.ofFn info).flatMap stateLines ++ next :: file⟩ =
      .ok (some (buildCstateInfo info, ⟨next, file⟩)) := by
  have hinfos : ∀ info' ∈ List.ofFn info, InfoOk info' := by
    intro info' hmem
    obtain ⟨i, rfl⟩ := List.mem_ofFn.mp hmem
    exact h i
  have hload : ∃ last, loadStates rows (List.ofFn info).length
      ⟨cpuidLine cpu, (List.ofFn info).flatMap stateLines ++ next :: file⟩ =
        .ok (List.ofFn info, ⟨last, next :: file⟩) := loadStates_eq hinfos
  obtain ⟨last, hstates⟩ := hload
  rw [List.length_ofFn] at hstates
  have hread : (fun i : Fin maxcstate => (List.ofFn info).getD i noInfo) = info := by
    funext i
    simp
  simp only [loadCpu, honline, scan_cpuid hcpu, hstates, hread, bind, Except.bind, not_true,
    ne_eq, if_false, Input.fgets]

theorem loadCpu_eq {online : Int → Bool} {info : Int → Fin maxcstate → CstateInfo} {cpu : Int}
    (honline : cpuIsOnline topo cpu = .ok (online cpu)) (hcpu : IsId cpu)
    (h : online cpu = true → ∀ i, InfoOk (info cpu i)) {input : Input}
    (hinput : input.buf :: input.file = cpuLines online info cpu ++ next :: file) :
    loadCpu rows topo cpu input = .ok (some (cpuCstates online info cpu, ⟨next, file⟩)) := by
  obtain ⟨buf, lines⟩ := input
  cases hflag : online cpu with
  | true =>
    simp only [cpuLines, hflag, if_true, List.cons_append, List.cons.injEq] at hinput
    obtain ⟨rfl, rfl⟩ := hinput
    rw [hflag] at honline
    rw [loadCpu_online honline hcpu (h hflag), cpuCstates, if_pos hflag]
  | false =>
    simp only [cpuLines, hflag, Bool.false_eq_true, if_false, List.nil_append,
      List.cons.injEq] at hinput
    obtain ⟨rfl, rfl⟩ := hinput
    simp [loadCpu, honline, hflag, cpuCstates, bind, Except.bind]

theorem loadCpus_eq {uninit : Int → Nat → Uninit} {online : Int → Bool}
    {info : Int → Fin maxcstate → CstateInfo} {cpus : List Int}
    (honline : ∀ cpu ∈ cpus, cpuIsOnline topo cpu = .ok (online cpu))
    (hcpu : ∀ cpu ∈ cpus, IsId cpu)
    (h : ∀ cpu ∈ cpus, online cpu = true → ∀ i, InfoOk (info cpu i)) {input : Input}
    (hinput : input.buf :: input.file = cpus.flatMap (cpuLines online info) ++ next :: file) :
    loadCpus uninit topo cpus input =
      .ok (some (cpus.map (cpuCstates online info), ⟨next, file⟩)) := by
  induction cpus generalizing input with
  | nil =>
    obtain ⟨rfl, rfl⟩ := List.cons.inj hinput
    rfl
  | cons cpu rest ih =>
    have hhead := honline cpu List.mem_cons_self
    rw [List.flatMap_cons, List.append_assoc] at hinput
    obtain ⟨buf, lines, hlines⟩ : ∃ buf lines,
        rest.flatMap (cpuLines online info) ++ next :: file = buf :: lines :=
      List.exists_cons_of_ne_nil (by simp)
    rw [hlines] at hinput
    have hload : loadCpu (uninit cpu) topo cpu input =
        .ok (some (cpuCstates online info cpu, ⟨buf, lines⟩)) :=
      loadCpu_eq hhead (hcpu cpu List.mem_cons_self) (h cpu List.mem_cons_self) hinput
    have hrest : loadCpus uninit topo rest ⟨buf, lines⟩ =
        .ok (some (rest.map (cpuCstates online info), ⟨next, file⟩)) := ih
      (fun c hc => honline c (List.mem_cons_of_mem _ hc))
      (fun c hc => hcpu c (List.mem_cons_of_mem _ hc))
      (fun c hc => h c (List.mem_cons_of_mem _ hc)) hlines.symm
    simp only [loadCpus, hload, hrest, bind, Except.bind, List.map_cons]

end Reading

section Text

variable {name : Option (List Char)} {target cpu : Int}

theorem plain_int (i : Int) : Plain (printInt i) := by
  unfold printInt
  split
  · have hsign : Plain ['-'] := by decide
    exact hsign.append (plain_toDigits _)
  · exact plain_toDigits _

theorem length_int (h : IsInt target) : (printInt target).length ≤ 11 := by
  obtain ⟨hmin, hmax⟩ := h
  have hlen : (Nat.toDigits 10 target.natAbs).length ≤ 10 := by
    apply length_toDigits
    unfold intMax at hmax
    omega
  unfold printInt
  split
  · rw [List.length_cons]
    omega
  · omega

theorem wholeLine_name (h : ∀ text ∈ name, IsName text) :
    WholeLine bufsize (nameText name) := by
  obtain ⟨-, hword, hnul, hlen⟩ := word_printString h
  have hplain : Plain (printString name) := by
    intro c hc
    constructor
    · intro heq
      exact absurd (hword c hc) (by rw [heq]; decide)
    · intro heq
      exact hnul (heq ▸ hc)
  have hfits : ('\t' :: printString name).length ≤ 200 := by
    unfold nameSize at hlen
    rw [List.length_cons]
    omega
  have htab : Plain ['\t'] := by decide
  exact wholeLine_of_plain (htab.append hplain) hfits

theorem wholeLine_target (h : IsInt target) : WholeLine bufsize (targetText target) := by
  have hlen := length_int h
  have hfits : ('\t' :: printInt target).length ≤ 200 := by
    rw [List.length_cons]
    omega
  have htab : Plain ['\t'] := by decide
  exact wholeLine_of_plain (htab.append (plain_int target)) hfits

variable {online : Int → Bool} {info : Int → Fin maxcstate → CstateInfo}

theorem wholeLine_cpuLines (hcpu : IsId cpu) (h : online cpu = true → ∀ i, InfoOk (info cpu i)) :
    ∀ line ∈ cpuLines online info cpu, WholeLine bufsize line := by
  intro line hline
  cases hflag : online cpu with
  | false => simp [cpuLines, hflag] at hline
  | true =>
    simp only [cpuLines, hflag, if_true, List.mem_cons, List.mem_flatMap, List.mem_ofFn,
      stateLines, List.not_mem_nil, or_false] at hline
    cases hline with
    | inl hhead =>
      rw [hhead]
      exact wholeLine_cpuid hcpu
    | inr hstate =>
      obtain ⟨state, ⟨i, rfl⟩, hline⟩ := hstate
      have hinfo := h hflag i
      cases hline with
      | inl hname =>
        rw [hname]
        exact wholeLine_name hinfo.name
      | inr htarget =>
        rw [htarget]
        exact wholeLine_target hinfo.target

theorem writeCpuInfo_eq (info : Fin maxcstate → CstateInfo) :
    writeCpuInfo cpu (buildCstateInfo info) =
      (cpuidLine cpu :: (List.ofFn info).flatMap stateLines).flatten := by
  simp [writeCpuInfo, writeCstateInfo, buildCstateInfo, initCstate, List.ofFn_eq_map,
    List.flatMap_map, flatten_flatMap, stateLines]

theorem outputCstateInfo_eq {topo : CpuTopology} {nrcpus : Int} (hpos : 0 < nrcpus)
    (honline : ∀ cpu ∈ cpuNumbers nrcpus, cpuIsOnline topo cpu = .ok (online cpu)) :
    outputCstateInfo topo nrcpus info =
      .ok ((cpuNumbers nrcpus).flatMap (cpuLines online info)).flatten := by
  have hsections : ((cpuNumbers nrcpus).mapM fun i => do
      let online ← cpuIsOnline topo i
      .ok (if online then writeCpuInfo i (buildCstateInfo (info i)) else [])) =
      .ok ((cpuNumbers nrcpus).map fun i => (cpuLines online info i).flatten) := by
    apply Runs.mapM_eq_ok_map
    intro cpu hcpu
    simp only [honline cpu hcpu, bind, Except.bind, cpuLines, writeCpuInfo_eq]
    split <;> rfl
  have hnot : ¬ nrcpus ≤ 0 := by omega
  rw [outputCstateInfo, if_neg hnot, hsections, flatten_flatMap, List.flatMap_def]
  rfl

end Text

theorem mem_cpuNumbers {nrcpus cpu : Int} : cpu ∈ cpuNumbers nrcpus ↔ 0 ≤ cpu ∧ cpu < nrcpus := by
  unfold cpuNumbers
  rw [List.mem_map]
  constructor
  · intro h
    obtain ⟨n, hn, rfl⟩ := h
    rw [List.mem_range] at hn
    omega
  · intro h
    refine ⟨cpu.toNat, ?_, Int.toNat_of_nonneg h.1⟩
    rw [List.mem_range]
    omega

theorem buffers_of_start {text : List Char} {input : Input} (h : Input.start text = some input) :
    buffers bufsize text = input.buf :: input.file := by
  unfold Input.start at h
  split at h
  · cases h
  · next heq =>
    rw [heq, ← Option.some.inj h]

/-- A line that fits the buffer is the next one to be read. -/
theorem start_line {line : List Char} (h : WholeLine bufsize line) (more : List Char) :
    Input.start (line ++ more) = some ⟨line, buffers bufsize more⟩ := by
  have hread : buffers bufsize ([line].flatten ++ more) = [line] ++ buffers bufsize more :=
    buffers_flatten (by simpa using h)
  rw [List.flatten_singleton] at hread
  rw [Input.start, hread]
  rfl

/-- The section comes back for every number of CPUs, every set of online ones
and every table, whatever text follows: the buffer holds its first line and the
file the rest. -/
theorem cstate_round_trip (uninit : Int → Nat → Uninit) (nrcpus : Int) (hpos : 0 < nrcpus)
    (hmax : nrcpus ≤ intMax) (topo topo' : CpuTopology) (online : Int → Bool)
    (honline : ∀ cpu, 0 ≤ cpu → cpu < nrcpus →
      cpuIsOnline topo cpu = .ok (online cpu) ∧ cpuIsOnline topo' cpu = .ok (online cpu))
    (info : Int → Fin maxcstate → CstateInfo)
    (hinfo : ∀ cpu, 0 ≤ cpu → cpu < nrcpus → online cpu = true → ∀ i, InfoOk (info cpu i)) :
    ∃ text, outputCstateInfo topo nrcpus info = .ok text ∧
      ∀ following next, Input.start following = some next →
        ∃ input, Input.start (text ++ following) = some input ∧
          loadAndBuildCstateInfo uninit input nrcpus topo' =
            .ok (some ((cpuNumbers nrcpus).map fun cpu =>
              if online cpu then buildCstateInfo (info cpu) else emptyCstates, next)) := by
  have hid : ∀ cpu ∈ cpuNumbers nrcpus, IsId cpu := by
    intro cpu hcpu
    obtain ⟨hnonneg, hlt⟩ := mem_cpuNumbers.mp hcpu
    exact ⟨hnonneg, by omega⟩
  have hread : ∀ cpu ∈ cpuNumbers nrcpus, online cpu = true → ∀ i, InfoOk (info cpu i) := by
    intro cpu hcpu
    obtain ⟨hnonneg, hlt⟩ := mem_cpuNumbers.mp hcpu
    exact hinfo cpu hnonneg hlt
  have hflags : ∀ cpu ∈ cpuNumbers nrcpus,
      cpuIsOnline topo cpu = .ok (online cpu) ∧ cpuIsOnline topo' cpu = .ok (online cpu) := by
    intro cpu hcpu
    obtain ⟨hnonneg, hlt⟩ := mem_cpuNumbers.mp hcpu
    exact honline cpu hnonneg hlt
  refine ⟨_, outputCstateInfo_eq hpos fun cpu hcpu => (hflags cpu hcpu).1, ?_⟩
  intro following next hnext
  have hwhole : ∀ line ∈ (cpuNumbers nrcpus).flatMap (cpuLines online info),
      WholeLine bufsize line := by
    intro line hline
    obtain ⟨cpu, hcpu, hmem⟩ := List.mem_flatMap.mp hline
    exact wholeLine_cpuLines (hid cpu hcpu) (hread cpu hcpu) line hmem
  have htext : buffers bufsize
      (((cpuNumbers nrcpus).flatMap (cpuLines online info)).flatten ++ following) =
        (cpuNumbers nrcpus).flatMap (cpuLines online info) ++ buffers bufsize following :=
    buffers_flatten hwhole
  rw [buffers_of_start hnext] at htext
  obtain ⟨buf, file, hlines⟩ : ∃ buf file,
      (cpuNumbers nrcpus).flatMap (cpuLines online info) ++ next.buf :: next.file = buf :: file :=
    List.exists_cons_of_ne_nil (by simp)
  refine ⟨⟨buf, file⟩, by rw [Input.start, htext, hlines], ?_⟩
  have hnot : ¬ nrcpus ≤ 0 := by omega
  rw [loadAndBuildCstateInfo, if_neg hnot]
  exact loadCpus_eq (fun cpu hcpu => (hflags cpu hcpu).2) hid hread hlines.symm

def holeTopo : CpuTopology :=
  { onlineCpus := [false, true], onlineArraySize := 2 }

def holeOnline (cpu : Int) : Bool :=
  cpu = 1

/-- One named state; the others are those sysfs has no directory for. -/
def holeInfo (_ : Int) (i : Fin maxcstate) : CstateInfo :=
  if i = 0 then { name := some "WFI".toList, targetResidency := 1 }
  else { name := none, targetResidency := -1 }

theorem cstate_round_trip_hole :
    ∃ text, outputCstateInfo holeTopo 2 holeInfo = .ok text ∧
      ∀ following next, Input.start following = some next →
        ∃ input, Input.start (text ++ following) = some input ∧
          loadAndBuildCstateInfo (fun _ _ => ⟨[], 0⟩) input 2 holeTopo =
            .ok (some ((cpuNumbers 2).map fun cpu =>
              if holeOnline cpu then buildCstateInfo (holeInfo cpu) else emptyCstates, next)) := by
  apply cstate_round_trip (fun _ _ => ⟨[], 0⟩) 2 (by decide) (by decide) holeTopo holeTopo
    holeOnline
  · intro cpu hnonneg hlt
    obtain rfl | rfl : cpu = 0 ∨ cpu = 1 := by omega
    · exact ⟨rfl, rfl⟩
    · exact ⟨rfl, rfl⟩
  · intro cpu _ _ _ i
    by_cases hi : i = 0
    · simp only [holeInfo, hi, if_true]
      refine ⟨?_, by decide⟩
      intro name hname
      rw [← Option.some.inj hname]
      exact ⟨by decide, by simp [isSpace], by decide, by decide, by decide⟩
    · simp only [holeInfo, hi, if_false]
      refine ⟨?_, by decide⟩
      intro name hname
      cases hname

end Idlestat.Theory.CstateRoundTrip
