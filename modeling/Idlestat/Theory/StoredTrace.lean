import Idlestat.Model.StoreFile
import Idlestat.Theory.CstateRoundTrip
import Idlestat.Theory.EventLine

/-! Storing a trace and loading it again. Each section of the file is read back
by the loader that the file is for, whichever order the loaders are asked in, and
the frequency lines around the kernel's trace are the calls they stand for. -/
namespace Idlestat.Theory.StoredTrace

open Idlestat.Library Idlestat.Library.Scan Idlestat.Library.TextFile Idlestat.Model.Topology
  Idlestat.Model.Cstates Idlestat.Model.Recorder Idlestat.Model.TopologyFile
  Idlestat.Model.CstateFile Idlestat.Model.TraceLine Idlestat.Model.TraceFiles
  Idlestat.Model.StoreFile Idlestat.Theory.TopologyTree Idlestat.Theory.TopologyCanonical
  Idlestat.Theory.TopologyRoundTrip Idlestat.Theory.CstateRoundTrip Idlestat.Theory.EventLine
open Idlestat.Model.Loaders hiding loadAndBuildCstateInfo
open Idlestat.Theory.TraceLineSafety hiding lineStep

section Line

variable {pid : Int} {ts : ℚ} {freq : UInt32} {cpu : Nat}

theorem tsUsec_lt (ts : ℚ) : tsUsec ts < 10 ^ 6 := by
  have hlt : (ts - tsSec ts) * 1000000 < 1000000 := by
    have hfloor : ts < (⌊ts⌋.toNat : ℚ) + 1 := by
      have hle : ⌊ts⌋ ≤ (⌊ts⌋.toNat : Int) := Int.self_le_toNat _
      have hcast : (⌊ts⌋ : ℚ) ≤ (⌊ts⌋.toNat : ℚ) := by exact_mod_cast hle
      exact (Int.lt_floor_add_one ts).trans_le (by linarith)
    unfold tsSec
    linarith
  have hint : ⌊(ts - tsSec ts) * 1000000⌋ < 1000000 := Int.floor_lt.mpr (by exact_mod_cast hlt)
  unfold tsUsec
  omega

def stampNumbers (ts : ℚ) : Numbers where
  cpu := 0
  sec := tsSec ts
  usec := tsUsec ts
  irqid := 0
  cpu_int := by decide
  usec_digits := tsUsec_lt ts
  irqid_int := by decide

def timeText (ts : ℚ) : List Char :=
  (stampNumbers ts).time

def taskText (pid : Int) (cpu : Nat) : List Char :=
  padLeft 16 "idlestat".toList ++ '-' :: (padRight 5 (printInt pid) ++ ' ' :: '[' :: zeroPad 3 cpu)

theorem pstateLine_eq : pstateLine pid ts freq cpu =
    taskText pid cpu ++ ']' :: ' ' :: ("....".toList ++ ' ' ::
      (List.replicate (5 - (Nat.toDigits 10 (tsSec ts)).length) ' ' ++ (timeText ts ++ ':' :: ' ' ::
        ("cpu_frequency".toList ++ ':' :: ' ' :: (powerFields freq cpu ++ ['\n']))))) := by
  simp only [pstateLine, taskText, timeText, Numbers.time, stampNumbers, padLeft]
  unfold powerFields
  simp only [List.append_assoc, List.cons_append]

theorem sscanf_spaces {format : List Directive} {rest : List Char} (n : Nat) :
    sscanf (.space :: format) (List.replicate n ' ' ++ rest) = sscanf (.space :: format) rest := by
  induction n with
  | zero => rfl
  | succ n ih => rw [List.replicate_succ, List.cons_append, sscanf_space_cons (by decide), ih]

theorem bracket_not_pid : ∀ c ∈ padRight 5 (printInt pid), c ≠ ']' := by
  have hint : ∀ c ∈ printInt pid, c ≠ ']' := by
    intro c hc heq
    have hdigits : ']' ∉ Nat.toDigits 10 pid.natAbs := not_mem_digits (by decide)
    rw [heq] at hc
    unfold printInt at hc
    split at hc
    · exact hdigits (by simpa using hc)
    · exact hdigits hc
  intro c hc
  rcases List.mem_append.mp hc with hc | hc
  · exact hint c hc
  · rw [List.eq_of_mem_replicate hc]
    decide

theorem not_mem_taskText : ']' ∉ taskText pid cpu := by
  have hname : ']' ∉ padLeft 16 "idlestat".toList := by decide
  have hpid : ']' ∉ padRight 5 (printInt pid) := fun hmem => bracket_not_pid _ hmem rfl
  have hcpu : ']' ∉ zeroPad 3 cpu := not_mem_zeroPad (by decide)
  simp only [taskText, List.mem_append, List.mem_cons, not_or]
  exact ⟨hname, by decide, hpid, by decide, by decide, hcpu⟩

theorem scan_pstateLine (hcpu : cpu ≤ intMax) :
    (sscanf traceFormat (pstateLine pid ts freq cpu)).assigned =
      [.float (timeText ts), .uint freq.toNat, .int cpu] := by
  have hflags : ∀ c ∈ "....".toList.head?, isSpace c = false := by
    intro c hc
    obtain rfl := Option.some.inj hc
    decide
  have hdrop : ∀ rest, ("....".toList ++ ' ' :: rest).dropWhile (fun c => !isSpace c) =
      ' ' :: rest := fun rest => rfl
  have hword : ∀ rest : List Char, ∀ c ∈ ("....".toList ++ ' ' :: rest).head?,
      isSpace c = false := by
    intro rest c hc
    obtain rfl := Option.some.inj hc
    decide
  have htask : taskText pid cpu ≠ [] := by simp [taskText]
  have hevent : '=' ∉ ' ' :: ("cpu_frequency".toList ++ [':', ' ']) := by decide
  rw [pstateLine_eq, traceFormat, sscanf_skipTo htask not_mem_taskText,
    sscanf_space_cons (by decide), sscanf_space (by decide) hflags,
    sscanf_skip_word (by simp) (hword _), hdrop, sscanf_space_cons (by decide), sscanf_spaces]
  let rest := ' ' :: ("cpu_frequency".toList ++ ':' :: ' ' :: (powerFields freq cpu ++ ['\n']))
  have htime : sscanf (.space :: .conv .lf :: .lit ':' :: fieldsFormat)
      (' ' :: (timeText ts ++ ':' :: rest)) =
        ⟨.float (timeText ts) :: (sscanf fieldsFormat rest).assigned,
          (sscanf fieldsFormat rest).eof⟩ := scan_time
  have hfields : sscanf fieldsFormat rest = ⟨[.uint freq.toNat, .int cpu], false⟩ := by
    have hsplit : rest =
        ' ' :: ("cpu_frequency".toList ++ [':', ' ']) ++ (powerFields freq cpu ++ ['\n']) := by
      simp [rest]
    rw [hsplit]
    exact scan_fields hevent hcpu (.inr rfl)
  rw [hfields, sscanf_space_cons (by decide)] at htime
  exact congrArg Result.assigned htime

theorem infix_pstateLine {word : String} (hne : word.toList ≠ [])
    (hword : ∀ c ∈ word.toList, wordChar c = true) :
    word.toList <:+: pstateLine pid ts freq cpu ↔
      word.toList <:+: padLeft 16 "idlestat".toList ∨ word.toList <:+: "cpu_frequency".toList ∨
        word.toList <:+: "state".toList ∨ word.toList <:+: "cpu_id".toList := by
  let head := '-' :: (padRight 5 (printInt pid) ++ ' ' :: '[' :: (zeroPad 3 cpu ++
    ']' :: ' ' :: ("....".toList ++ ' ' ::
      (List.replicate (5 - (Nat.toDigits 10 (tsSec ts)).length) ' ' ++ (timeText ts ++
        [':', ' '])))))
  have hspaces : ∀ n, ∀ c ∈ List.replicate n ' ', wordChar c = false := by
    intro n c hc
    rw [List.eq_of_mem_replicate hc]
    decide
  have hhead : ∀ c ∈ head, wordChar c = false := by
    simp only [head, padRight, List.forall_mem_append, List.forall_mem_cons]
    exact ⟨by decide, ⟨wordChar_printInt, hspaces _⟩, by decide, by decide, wordChar_zeroPad,
      by decide, by decide, by decide, by decide, hspaces _, wordChar_time, by decide⟩
  have hcolon : ∀ c ∈ [':', ' '], wordChar c = false := by decide
  have hsplit : pstateLine pid ts freq cpu = padLeft 16 "idlestat".toList ++ (head ++
      ("cpu_frequency".toList ++ ([':', ' '] ++ (powerFields freq cpu ++ ['\n'])))) := by
    simp [pstateLine_eq, taskText, head]
  rw [hsplit, word_between hne hword (by simp [head]) hhead,
    word_between hne hword (by simp) hcolon, powerFields_plain (.inr rfl) hne hword]

theorem lineEvent_pstateLine (strtod : List Char → ℚ) (hcpu : cpu ≤ intMax) :
    lineEvent strtod traceFormat (pstateLine pid ts freq cpu) =
      some (.frequency (strtod (timeText ts)) freq.toNat cpu) := by
  have hname : ¬ "cpu_idle".toList <:+: padLeft 16 "idlestat".toList := by decide
  have hevent : ¬ "cpu_idle".toList <:+: "cpu_frequency".toList := by decide
  have hstate : ¬ "cpu_idle".toList <:+: "state".toList := by decide
  have hfield : ¬ "cpu_idle".toList <:+: "cpu_id".toList := by decide
  have hidle : strstr (pstateLine pid ts freq cpu) "cpu_idle" = false := by
    apply Bool.eq_false_iff.mpr
    rw [ne_eq, strstr_iff, infix_pstateLine (by decide) (by decide)]
    simp only [hname, hevent, hstate, hfield, or_false, not_false_iff]
  have hfrequency : strstr (pstateLine pid ts freq cpu) "cpu_frequency" = true :=
    strstr_iff.mpr ((infix_pstateLine (by decide) (by decide)).mpr (.inr (.inl List.infix_rfl)))
  exact lineEvent_frequency hidle hfrequency (scan_pstateLine hcpu)

theorem lineStep_pstateLine (env : Env) (hcpu : cpu ≤ intMax) (datas : CpuidleDatas)
    (span : LogSpan) :
    lineStep env .idlestat (datas, span) (pstateLine pid ts freq cpu) = (do
      let datas ← cpuChangePstate datas cpu freq.toNat (env.strtod (timeText ts))
      .ok (datas, span)) := by
  rw [lineStep, loadTextDataLine_eq]
  have hevent : lineEvent env.strtod TraceOps.idlestat.format (pstateLine pid ts freq cpu) =
      some (.frequency (env.strtod (timeText ts)) freq.toNat cpu) :=
    lineEvent_pstateLine env.strtod hcpu
  rw [hevent]
  cases hchange : cpuChangePstate datas cpu freq.toNat (env.strtod (timeText ts)) with
  | error fault => simp [TraceLineSafety.record, hchange, bind, Except.bind, Except.map]
  | ok datas' =>
    simp [TraceLineSafety.record, hchange, bind, Except.bind, Except.map, LineEvent.extend]

def pstateBody (pid : Int) (ts : ℚ) (freq : UInt32) (cpu : Nat) : List Char :=
  taskText pid cpu ++ ']' :: ' ' :: ("....".toList ++ ' ' ::
    (List.replicate (5 - (Nat.toDigits 10 (tsSec ts)).length) ' ' ++ (timeText ts ++ ':' :: ' ' ::
      ("cpu_frequency".toList ++ ':' :: ' ' :: powerFields freq cpu))))

theorem pstateLine_body : pstateLine pid ts freq cpu = pstateBody pid ts freq cpu ++ ['\n'] := by
  simp only [pstateLine_eq, pstateBody, List.append_assoc, List.cons_append]

theorem plain_pstateBody : Plain (pstateBody pid ts freq cpu) := by
  have hspaces : ∀ n, Plain (List.replicate n ' ') := by
    intro n c hc
    rw [List.eq_of_mem_replicate hc]
    decide
  have hzeros : ∀ width n, Plain (zeroPad width n) := by
    intro width n
    apply Plain.append _ (plain_toDigits n)
    intro c hc
    rw [List.eq_of_mem_replicate hc]
    decide
  have htask : Plain (taskText pid cpu) := by
    have hname : Plain (padLeft 16 "idlestat".toList ++ ['-']) := by decide
    have hopen : Plain [' ', '['] := by decide
    have hpid : Plain (padRight 5 (printInt pid)) := (plain_int pid).append (hspaces _)
    have hsplit : taskText pid cpu = padLeft 16 "idlestat".toList ++ ['-'] ++
        (padRight 5 (printInt pid) ++ ([' ', '['] ++ zeroPad 3 cpu)) := by simp [taskText]
    rw [hsplit]
    exact hname.append (hpid.append (hopen.append (hzeros 3 cpu)))
  have htime : Plain (timeText ts) := by
    have hdot : Plain ['.'] := by decide
    exact (plain_toDigits _).append (hdot.append (hzeros 6 _))
  have hpower : Plain (powerFields freq cpu) := by
    have hstate : Plain "state=".toList := by decide
    have hid : Plain " cpu_id=".toList := by decide
    exact hstate.append ((plain_toDigits _).append (hid.append (plain_toDigits _)))
  have hflags : Plain (']' :: ' ' :: ("....".toList ++ [' '])) := by decide
  have hevent : Plain (':' :: ' ' :: ("cpu_frequency".toList ++ [':', ' '])) := by decide
  have hsplit : pstateBody pid ts freq cpu = taskText pid cpu ++
      (']' :: ' ' :: ("....".toList ++ [' ']) ++
        (List.replicate (5 - (Nat.toDigits 10 (tsSec ts)).length) ' ' ++ (timeText ts ++
          (':' :: ' ' :: ("cpu_frequency".toList ++ [':', ' ']) ++ powerFields freq cpu)))) := by
    simp [pstateBody]
  rw [hsplit]
  exact htask.append (hflags.append ((hspaces _).append (htime.append (hevent.append hpower))))

theorem length_pstateBody (hpid : IsInt pid) (hts : tsSec ts < 2 ^ 64) (hcpu : cpu ≤ intMax) :
    (pstateBody pid ts freq cpu).length ≤ 200 := by
  have hname : (padLeft 16 "idlestat".toList).length = 16 := by decide
  have hprint : (printInt pid).length ≤ 11 := length_int hpid
  have hsec : (Nat.toDigits 10 (tsSec ts)).length ≤ 20 := by
    rw [Nat.length_toDigits_le_iff (by decide) (by decide)]
    omega
  have husec : (Nat.toDigits 10 (tsUsec ts)).length ≤ 6 := by
    rw [Nat.length_toDigits_le_iff (by decide) (by decide)]
    exact tsUsec_lt ts
  have hnumber : (Nat.toDigits 10 cpu).length ≤ 10 := by
    apply length_toDigits
    unfold intMax at hcpu
    omega
  have hfreq : (Nat.toDigits 10 freq.toNat).length ≤ 10 := length_toDigits freq.toNat_lt
  have hdots : "....".toList.length = 4 := rfl
  have hevent : "cpu_frequency".toList.length = 13 := rfl
  have hstate : "state=".toList.length = 6 := rfl
  have hid : " cpu_id=".toList.length = 8 := rfl
  unfold pstateBody taskText powerFields
  simp only [timeText, Numbers.time, stampNumbers, padRight, zeroPad, List.length_append,
    List.length_cons, List.length_replicate, hname, hdots, hevent, hstate, hid]
  omega

theorem wholeLine_pstateLine (hpid : IsInt pid) (hts : tsSec ts < 2 ^ 64) (hcpu : cpu ≤ intMax) :
    WholeLine bufsize (pstateLine pid ts freq cpu) := by
  rw [pstateLine_body]
  exact wholeLine_of_plain plain_pstateBody (length_pstateBody hpid hts hcpu)

end Line

section Changes

variable {topo : CpuTopology} {online : Int → Bool} {pid : Int} {ts : ℚ} {cpu : Nat}

def onlineNumbers (online : Int → Bool) (nrcpus : Int) : List Nat :=
  (List.range nrcpus.toNat).filter fun cpu : Nat => online cpu

/-- The frequency that is written for a CPU: 0 at the end of the run. -/
def changeFreq (freqs : Option InitPstates) (cpu : Nat) : UInt32 :=
  match freqs with
  | none => 0
  | some initp => initp.freqs.getD cpu 0

/-- The CPUs for which a run that knows the first frequencies writes lines. -/
def changedCpus (known : Option InitPstates) (online : Int → Bool) (nrcpus : Int) : List Nat :=
  if known.isSome then onlineNumbers online nrcpus else []

def changeLines (pid : Int) (freqs : Option InitPstates) (ts : ℚ) (cpus : List Nat) :
    List (List Char) :=
  cpus.map fun cpu => pstateLine pid ts (changeFreq freqs cpu) cpu

def changePstates (freqs : Option InitPstates) (time : ℚ) (cpus : List Nat)
    (datas : CpuidleDatas) : Except Fault CpuidleDatas :=
  cpus.foldlM (fun datas (cpu : Nat) =>
    cpuChangePstate datas cpu (changeFreq freqs cpu).toNat time) datas

theorem mem_onlineNumbers {nrcpus : Int} :
    cpu ∈ onlineNumbers online nrcpus ↔ (cpu : Int) < nrcpus ∧ online cpu = true := by
  unfold onlineNumbers
  rw [List.mem_filter, List.mem_range]
  exact and_congr_left fun _ => by omega

theorem mem_changedCpus {known : Option InitPstates} {nrcpus : Int}
    (h : cpu ∈ changedCpus known online nrcpus) : (cpu : Int) < nrcpus ∧ online cpu = true := by
  unfold changedCpus at h
  split at h
  · exact mem_onlineNumbers.mp h
  · cases h

theorem outputFreq_eq {freqs : Option InitPstates} {nrcpus : Int}
    (hfreqs : ∀ initp ∈ freqs, initp.nrcpus = nrcpus) (hcpu : (cpu : Int) < nrcpus) :
    outputFreq freqs cpu = .ok (changeFreq freqs cpu) := by
  cases freqs with
  | none => rfl
  | some initp =>
    have hlt : cpu < initp.freqs.length := by
      rw [initp.sized, hfreqs initp rfl]
      omega
    simp [outputFreq, changeFreq, List.getElem?_eq_getElem hlt]

theorem flatten_if {α β : Type} (l : List α) (p : α → Bool) (f : α → List β) :
    (l.map fun x => if p x then f x else []).flatten = ((l.filter p).map f).flatten := by
  induction l with
  | nil => rfl
  | cons x rest ih => cases hx : p x <;> simp [hx, ih]

theorem outputPstatesIf_eq {known freqs : Option InitPstates} {nrcpus : Int}
    (honline : ∀ cpu : Nat, (cpu : Int) < nrcpus → cpuIsOnline topo cpu = .ok (online cpu))
    (hknown : ∀ initp ∈ known, initp.nrcpus = nrcpus)
    (hfreqs : ∀ initp ∈ freqs, initp.nrcpus = nrcpus) :
    outputPstatesIf pid known freqs topo ts =
      .ok (changeLines pid freqs ts (changedCpus known online nrcpus)).flatten := by
  cases known with
  | none => rfl
  | some initp =>
    have hlines : (List.range nrcpus.toNat).mapM (outputPstate pid freqs topo ts) =
        .ok ((List.range nrcpus.toNat).map fun cpu : Nat =>
          if online cpu then pstateLine pid ts (changeFreq freqs cpu) cpu else []) := by
      apply Runs.mapM_eq_ok_map
      intro cpu hcpu
      have hlt : (cpu : Int) < nrcpus := by
        rw [List.mem_range] at hcpu
        omega
      rw [outputPstate, honline cpu hlt, outputFreq_eq hfreqs hlt]
      cases hflag : online cpu with
      | false => rfl
      | true => rfl
    rw [outputPstatesIf, hknown initp rfl, outputPstates, hlines]
    exact congrArg Except.ok (flatten_if _ _ _)

theorem foldlM_changeLines (env : Env) {freqs : Option InitPstates} {cpus : List Nat}
    (hcpus : ∀ cpu ∈ cpus, cpu ≤ intMax) (datas : CpuidleDatas) (span : LogSpan) :
    (changeLines pid freqs ts cpus).foldlM (lineStep env .idlestat) (datas, span) =
      (do
        let datas ← changePstates freqs (env.strtod (timeText ts)) cpus datas
        .ok (datas, span)) := by
  induction cpus generalizing datas with
  | nil => rfl
  | cons cpu cpus ih =>
    have hline : lineStep env .idlestat (datas, span)
        (pstateLine pid ts (changeFreq freqs cpu) cpu) =
        _ := lineStep_pstateLine env (hcpus cpu List.mem_cons_self) datas span
    have hrest := ih fun cpu' hmem => hcpus cpu' (List.mem_cons_of_mem _ hmem)
    rw [changeLines, List.map_cons, List.foldlM_cons, hline, changePstates, List.foldlM_cons]
    cases hchange : cpuChangePstate datas cpu (changeFreq freqs cpu).toNat
        (env.strtod (timeText ts)) with
    | error fault => rfl
    | ok datas' => exact hrest datas'

end Changes

section Kept

variable {trace text : List Char}

def keptLines (trace : List Char) : List (List Char) :=
  (buffers bufsize trace).filter fun line => line.head? ≠ some '#'

/-- A text file: no NUL in it, and a newline at its end. -/
structure TextLines (trace : List Char) : Prop where
  noNul : '\x00' ∉ trace
  ends : ∀ c ∈ trace.getLast?, c = '\n'

theorem forEachLine_storeLine (lines : List (List Char)) :
    forEachLine storeLine lines 0 text =
      (0, text ++ (lines.filter fun line => line.head? ≠ some '#').flatten) := by
  induction lines generalizing text with
  | nil => simp [forEachLine]
  | cons line lines ih =>
    by_cases hcomment : line.head? = some '#'
    · simp [forEachLine, storeLine, hcomment, ih]
    · simp [forEachLine, storeLine, hcomment, ih]

theorem storeLines_eq : idlestatFileForEachLine (some trace) storeLine text =
    (0, text ++ (keptLines trace).flatten) :=
  forEachLine_storeLine _

theorem buffers_nil (size : Nat) : buffers size [] = [] := rfl

theorem buffers_following {first last : List (List Char)} (htrace : TextLines trace)
    (hfirst : ∀ line ∈ first, WholeLine bufsize line)
    (hlast : ∀ line ∈ last, WholeLine bufsize line) :
    buffers bufsize (first.flatten ++ ((keptLines trace).flatten ++ last.flatten)) =
      first ++ (keptLines trace ++ last) := by
  have hkept : keptLines trace ⊆ buffers bufsize trace := List.filter_sublist.subset
  have hend : buffers bufsize (last.flatten ++ []) = last ++ buffers bufsize [] :=
    buffers_flatten hlast
  rw [buffers_nil, List.append_nil, List.append_nil] at hend
  rw [buffers_flatten hfirst, buffers_sublist (by decide) htrace.ends htrace.noNul hkept, hend]

end Kept

section Head

variable {nrcpus : Int}

theorem scanNrcpus_cpusLine (hpos : 0 < nrcpus) (hmax : nrcpus ≤ intMax) :
    scanNrcpus cpusFormat (cpusLine nrcpus) = nrcpus.toNat := by
  have hlits : sscanf cpusFormat (cpusLine nrcpus) =
      sscanf [.conv .u] (printInt nrcpus ++ ['\n']) :=
    sscanf_lits "cpus=".toList
  have hlt : nrcpus.toNat < 2 ^ 32 := by
    unfold intMax at hmax
    omega
  have hread : Spec.u.read (Nat.toDigits 10 nrcpus.toNat ++ ['\n']) =
      .matched (.uint nrcpus.toNat) ['\n'] := read_u hlt (by decide)
  rw [scanNrcpus, hlits, printInt_of_nonneg hpos.le, sscanf_conv hread]
  rfl

theorem checkNrcpus_toNat (hpos : 0 < nrcpus) (hmax : nrcpus ≤ intMax) :
    checkNrcpus nrcpus.toNat = some nrcpus := by
  have hint : toInt (nrcpus.toNat : Int) = nrcpus := by
    unfold intMax at hmax
    rw [toInt, Int.bmod_eq_of_le (by omega) (by omega)]
    omega
  have hne : nrcpus.toNat ≠ 0 := by omega
  simp only [checkNrcpus, hint, hne, false_or]
  rw [if_neg (by omega)]

theorem wholeLine_cpusLine (hpos : 0 < nrcpus) (hmax : nrcpus ≤ intMax) :
    WholeLine bufsize (cpusLine nrcpus) := by
  have hid : IsId nrcpus := ⟨hpos.le, hmax⟩
  have hword : Plain "cpus=".toList := by decide
  have hfive : "cpus=".toList.length = 5 := rfl
  have hlen := length_printInt hid
  apply wholeLine_of_plain (hword.append (plain_printInt hid))
  rw [List.length_append, hfive]
  omega

theorem wholeLine_versionLine : WholeLine bufsize versionLine :=
  wholeLine_of_plain (show Plain "idlestat version = 0.8".toList by decide) (by decide)

theorem buffers_head (hpos : 0 < nrcpus) (hmax : nrcpus ≤ intMax) (rest : List Char) :
    buffers bufsize (versionLine ++ (cpusLine nrcpus ++ rest)) =
      versionLine :: cpusLine nrcpus :: buffers bufsize rest := by
  have hlines : ∀ line ∈ [versionLine, cpusLine nrcpus], WholeLine bufsize line := by
    rw [List.forall_mem_cons, List.forall_mem_singleton]
    exact ⟨wholeLine_versionLine, wholeLine_cpusLine hpos hmax⟩
  have hread : buffers bufsize ([versionLine, cpusLine nrcpus].flatten ++ rest) =
      [versionLine, cpusLine nrcpus] ++ buffers bufsize rest := buffers_flatten hlines
  simpa using hread

theorem checkMagic_version {text : List Char} {lines : List (List Char)} (loader : TraceOps)
    (h : buffers bufsize text = versionLine :: lines) :
    checkMagic loader text = decide (loader = .idlestat) := by
  have hfirst : ∀ loader, decide (versionLine.take (magic loader).length = magic loader) =
      decide (loader = .idlestat) := by
    intro loader
    cases loader with
    | idlestat => decide
    | ftrace => decide
    | tracecmd => decide
  unfold checkMagic
  rw [h]
  exact hfirst loader

theorem idlestatLoad_version {env : Env} {text : List Char} {lines : List (List Char)}
    (h : buffers bufsize text = versionLine :: lines) {loaders : List TraceOps}
    (hmem : .idlestat ∈ loaders) :
    idlestatLoad env (some text) loaders = traceLoad env .idlestat text := by
  induction loaders with
  | nil => cases hmem
  | cons loader rest ih =>
    rw [idlestatLoad, checkMagic_version loader h]
    by_cases hloader : loader = .idlestat
    · simp [hloader]
    · have hrest : .idlestat ∈ rest := by
        cases List.mem_cons.mp hmem with
        | inl heq => exact absurd heq.symm hloader
        | inr hrest => exact hrest
      simp [hloader, ih hrest]

end Head

def onlineIn (infos : List TopologyInfo) (cpu : Int) : Bool :=
  infos.any fun info => info.cpuId = cpu

/-- A host that the file can carry: the topology has a letter for each cluster
and a CPU among those that are counted, and the C-states have names that can be
printed. -/
structure Recordable (env : Env) (host : Host) (infos : List TopologyInfo)
    (topo : CpuTopology) : Prop where
  built : addTopoInfos infos = .ok topo
  ids : ∀ x ∈ infos, IntIds x
  letters : ∀ x ∈ infos, x.physicalId ≤ lastCluster env.signedChar
  online : ∃ x ∈ infos, x.cpuId < host.nprocessors
  nprocessors : host.nprocessors ≤ intMax
  cstates : ∀ x ∈ infos, x.cpuId < host.nprocessors → ∀ i, InfoOk (host.info x.cpuId i)
  pid : IsInt host.pid
  canOpen : host.canOpen = true

/-- What loading the file has to do: start from the stored topology and C-states,
set the first frequencies, take the kernel's lines, and end every frequency. -/
def replay (env : Env) (host : Host) (infos : List TopologyInfo) (startTs endTs : ℚ)
    (initp : Option InitPstates) (trace : List Char) (topo : CpuTopology) :
    Except Fault (Option CpuidleDatas) := do
  let cpus := changedCpus initp (onlineIn infos) host.nprocessors
  let datas ← setupTopoStates (nativeDatas host.nprocessors topo
    ((cpuNumbers host.nprocessors).map (cpuCstates (onlineIn infos) host.info)))
  let datas ← changePstates initp (env.strtod (timeText startTs)) cpus datas
  let state ← (keptLines trace).foldlM (lineStep env .idlestat)
    (datas, { beginTime := 0, endTime := 0, start := 1 })
  let datas ← changePstates none (env.strtod (timeText endTs)) cpus state.1
  .ok (some datas)

section RoundTrip

variable {env : Env} {host : Host} {infos : List TopologyInfo} {topo : CpuTopology}
  {startTs endTs : ℚ} {initp : Option InitPstates} {trace : List Char}

theorem Recordable.wf (h : Recordable env host infos topo) :
    TopoWf topo ∧ ∀ x, TopoHas topo x ↔ x ∈ infos := by
  have hnonneg : ∀ x ∈ infos, NonNegative x := fun x hx =>
    ⟨(h.ids x hx).1.1, (h.ids x hx).2.1.1, (h.ids x hx).2.2.1⟩
  obtain ⟨topo', hbuilt, hspec⟩ := addTopoInfos_spec hnonneg
  obtain rfl : topo' = topo := Except.ok.inj (hbuilt.symm.trans h.built)
  exact hspec

theorem Recordable.nprocessors_pos (h : Recordable env host infos topo) :
    0 < host.nprocessors := by
  obtain ⟨x, hx, hlt⟩ := h.online
  exact (h.ids x hx).2.2.1.trans_lt hlt

theorem Recordable.cpuIsOnline (h : Recordable env host infos topo) {topo' : CpuTopology}
    (hsame : SameTree topo topo') {cpu : Int} (hcpu : 0 ≤ cpu) :
    cpuIsOnline topo cpu = .ok (onlineIn infos cpu) ∧
      cpuIsOnline topo' cpu = .ok (onlineIn infos cpu) := by
  obtain ⟨hwf, hhas⟩ := h.wf
  obtain ⟨online, heq, hflag⟩ := cpuIsOnline_spec hwf.online hcpu
  have honline : online = onlineIn infos cpu := by
    rw [Bool.eq_iff_iff, hflag, onlineIn, List.any_eq_true]
    simp only [hhas, decide_eq_true_eq]
  have hsame' : Model.Topology.cpuIsOnline topo' cpu = Model.Topology.cpuIsOnline topo cpu := by
    simp only [Model.Topology.cpuIsOnline, hsame.onlineCpus, hsame.onlineArraySize]
  rw [hsame', heq, honline]
  exact ⟨rfl, rfl⟩

theorem cpuLines_cons {online : Int → Bool} {info : Int → Fin maxcstate → CstateInfo}
    {cpus : List Int} (h : ∃ cpu ∈ cpus, online cpu = true) :
    ∃ cpu ∈ cpus, ∃ lines, cpus.flatMap (cpuLines online info) = cpuidLine cpu :: lines := by
  induction cpus with
  | nil =>
    obtain ⟨cpu, hcpu, -⟩ := h
    cases hcpu
  | cons first rest ih =>
    by_cases hfirst : online first = true
    · exact ⟨first, List.mem_cons_self, _, by
        rw [List.flatMap_cons, cpuLines, if_pos hfirst, List.cons_append]⟩
    · have hrest : ∃ cpu ∈ rest, online cpu = true := by
        obtain ⟨cpu, hcpu, honline⟩ := h
        cases List.mem_cons.mp hcpu with
        | inl heq => exact absurd (heq ▸ honline) hfirst
        | inr hmem => exact ⟨cpu, hmem, honline⟩
      obtain ⟨cpu, hcpu, lines, heq⟩ := ih hrest
      exact ⟨cpu, List.mem_cons_of_mem _ hcpu, lines, by
        rw [List.flatMap_cons, cpuLines, if_neg hfirst, heq, List.nil_append]⟩

theorem Recordable.isId (h : Recordable env host infos topo) {cpu : Int}
    (hcpu : cpu ∈ cpuNumbers host.nprocessors) : IsId cpu := by
  obtain ⟨hnonneg, hlt⟩ := mem_cpuNumbers.mp hcpu
  exact ⟨hnonneg, by have := h.nprocessors; omega⟩

theorem Recordable.infoOk (h : Recordable env host infos topo) {cpu : Int}
    (hcpu : cpu ∈ cpuNumbers host.nprocessors) (honline : onlineIn infos cpu = true)
    (i : Fin maxcstate) : InfoOk (host.info cpu i) := by
  obtain ⟨x, hx, heq⟩ := List.any_eq_true.mp honline
  obtain rfl := of_decide_eq_true heq
  exact h.cstates x hx (mem_cpuNumbers.mp hcpu).2 i

theorem Recordable.exists_online (h : Recordable env host infos topo) :
    ∃ cpu ∈ cpuNumbers host.nprocessors, onlineIn infos cpu = true := by
  obtain ⟨x, hx, hlt⟩ := h.online
  exact ⟨x.cpuId, mem_cpuNumbers.mpr ⟨(h.ids x hx).2.2.1, hlt⟩,
    List.any_eq_true.mpr ⟨x, hx, decide_eq_true rfl⟩⟩

theorem Recordable.wholeLine (h : Recordable env host infos topo) {line : List Char}
    (hline : line ∈ (cpuNumbers host.nprocessors).flatMap
      (cpuLines (onlineIn infos) host.info)) : WholeLine bufsize line := by
  obtain ⟨cpu, hcpu, hmem⟩ := List.mem_flatMap.mp hline
  exact wholeLine_cpuLines (h.isId hcpu) (h.infoOk hcpu) line hmem

/-- What the loader reads back from a file made of these sections. -/
theorem loadDatas_sections (h : Recordable env host infos topo) {following : List Char}
    {next : List Char} {file : List (List Char)}
    (hnext : buffers bufsize following = next :: file) :
    ∃ cstates topo', outputCstateInfo topo host.nprocessors host.info = .ok cstates ∧
      SameTree topo topo' ∧
      idlestatDatas env (versionLine ++ (cpusLine host.nprocessors ++
        (outfileTopoInfo topo ++ (cstates ++ following)))) =
        .ok (some ⟨nativeDatas host.nprocessors topo'
          ((cpuNumbers host.nprocessors).map (cpuCstates (onlineIn infos) host.info)),
          ⟨next, file⟩⟩) := by
  obtain ⟨hwf, hhas⟩ := h.wf
  have hpos := h.nprocessors_pos
  have hids : ∀ x, TopoHas topo x → IntIds x := fun x hx => h.ids x ((hhas x).mp hx)
  have hletters : ∀ x, TopoHas topo x → x.physicalId ≤ lastCluster env.signedChar :=
    fun x hx => h.letters x ((hhas x).mp hx)
  have honline : ∀ topo', SameTree topo topo' → ∀ cpu ∈ cpuNumbers host.nprocessors,
      Model.Topology.cpuIsOnline topo cpu = .ok (onlineIn infos cpu) ∧
        Model.Topology.cpuIsOnline topo' cpu = .ok (onlineIn infos cpu) :=
    fun topo' hsame cpu hcpu => h.cpuIsOnline hsame (mem_cpuNumbers.mp hcpu).1
  have hself : SameTree topo topo := sameTree_of_has hwf hwf fun x => Iff.rfl
  obtain ⟨cpu, hcpu, lines, hlines⟩ : ∃ cpu ∈ cpuNumbers host.nprocessors, ∃ lines,
      (cpuNumbers host.nprocessors).flatMap (cpuLines (onlineIn infos) host.info) =
        cpuidLine cpu :: lines := cpuLines_cons h.exists_online
  have hwrite : outputCstateInfo topo host.nprocessors host.info =
      .ok (cpuidText cpu ++ lines.flatten) := by
    rw [outputCstateInfo_eq hpos fun cpu hcpu => (honline topo hself cpu hcpu).1, hlines]
    rfl
  have hwhole : ∀ line ∈ lines, WholeLine bufsize line := by
    intro line hline
    apply h.wholeLine
    rw [hlines]
    exact List.mem_cons_of_mem _ hline
  have hmore : buffers bufsize (lines.flatten ++ following) = lines ++ next :: file := by
    rw [buffers_flatten hwhole, hnext]
  have hround : RoundTrips env.signedChar env.cpuInfo env.pid topo cpu
      (lines.flatten ++ following) := roundTrips_of_lettered hwf hids hletters (h.isId hcpu) _
  obtain ⟨buf, file', read, hbuffers, hread, hsame, hbuf, hfile⟩ := hround
  refine ⟨cpuidText cpu ++ lines.flatten, read.topo, hwrite, hsame, ?_⟩
  have htext : outfileTopoInfo topo ++ (cpuidText cpu ++ lines.flatten ++ following) =
      outfileTopoInfo topo ++ cpuidText cpu ++ (lines.flatten ++ following) := by simp
  have hsecond : secondLine (versionLine ++ (cpusLine host.nprocessors ++ (outfileTopoInfo topo ++
      (cpuidText cpu ++ lines.flatten ++ following)))) =
        some (host.nprocessors.toNat, ⟨buf, file'⟩) := by
    rw [secondLine, buffers_head hpos h.nprocessors, htext, hbuffers]
    simp only [scanNrcpus_cpusLine hpos h.nprocessors]
  have hinput : read.buf :: read.file = (cpuNumbers host.nprocessors).flatMap
      (cpuLines (onlineIn infos) host.info) ++ next :: file := by
    rw [hbuf, hfile, hmore, hlines]
    rfl
  have hload : loadAndBuildCstateInfo env.uninit ⟨read.buf, read.file⟩
      host.nprocessors read.topo = .ok (some ((cpuNumbers host.nprocessors).map
        (cpuCstates (onlineIn infos) host.info), ⟨next, file⟩)) := by
    rw [loadAndBuildCstateInfo, if_neg (by omega)]
    exact loadCpus_eq (fun cpu hcpu => (honline read.topo hsame cpu hcpu).2)
      (fun cpu hcpu => h.isId hcpu) (fun cpu hcpu => h.infoOk hcpu) hinput
  simp only [idlestatDatas, hsecond, checkNrcpus_toNat hpos h.nprocessors, hread, hload, bind,
    Except.bind]

theorem wholeLine_changes (h : Recordable env host infos topo) {freqs : Option InitPstates}
    {ts : ℚ} (hts : tsSec ts < 2 ^ 64) :
    ∀ line ∈ changeLines host.pid freqs ts (changedCpus initp (onlineIn infos) host.nprocessors),
      WholeLine bufsize line := by
  intro line hline
  obtain ⟨cpu, hcpu, rfl⟩ := List.mem_map.mp hline
  have hlt := (mem_changedCpus hcpu).1
  have hmax := h.nprocessors
  exact wholeLine_pstateLine h.pid hts (by omega)

theorem following_ne_nil (h : Recordable env host infos topo)
    (hline : initp = none → keptLines trace ≠ []) {last : List (List Char)} :
    changeLines host.pid initp startTs (changedCpus initp (onlineIn infos) host.nprocessors) ++
      (keptLines trace ++ last) ≠ [] := by
  intro hnil
  obtain ⟨hfirst, hkept⟩ := List.append_eq_nil_iff.mp hnil
  have hkept := (List.append_eq_nil_iff.mp hkept).1
  cases hinitp : initp with
  | none => exact hline hinitp hkept
  | some known =>
    obtain ⟨x, hx, hlt⟩ := h.online
    have hnonneg := (h.ids x hx).2.2.1
    have hcast : ((x.cpuId.toNat : Nat) : Int) = x.cpuId := Int.toNat_of_nonneg hnonneg
    have hmem : x.cpuId.toNat ∈ changedCpus initp (onlineIn infos) host.nprocessors := by
      have hsome : (some known).isSome = true := rfl
      rw [changedCpus, hinitp, if_pos hsome, mem_onlineNumbers, hcast]
      exact ⟨hlt, List.any_eq_true.mpr ⟨x, hx, decide_eq_true rfl⟩⟩
    have hempty := List.map_eq_nil_iff.mp hfirst
    rw [hempty] at hmem
    cases hmem

/-- The loader's lines are the run's. -/
theorem traceLoad_eq_replay (h : Recordable env host infos topo) {text next : List Char}
    {file : List (List Char)} {topo' : CpuTopology}
    (hload : idlestatDatas env text = .ok (some ⟨nativeDatas host.nprocessors topo'
      ((cpuNumbers host.nprocessors).map (cpuCstates (onlineIn infos) host.info)), ⟨next, file⟩⟩))
    (hfile : next :: file =
      changeLines host.pid initp startTs (changedCpus initp (onlineIn infos) host.nprocessors) ++
        (keptLines trace ++ changeLines host.pid none endTs
          (changedCpus initp (onlineIn infos) host.nprocessors))) :
    traceLoad env .idlestat text = replay env host infos startTs endTs initp trace topo' := by
  have hcpus : ∀ cpu ∈ changedCpus initp (onlineIn infos) host.nprocessors, cpu ≤ intMax := by
    intro cpu hcpu
    have hlt := (mem_changedCpus hcpu).1
    have hmax := h.nprocessors
    omega
  rw [traceLoad, loadDatas, hload]
  simp only [loadTextDataLines, replay, bind, Except.bind]
  cases setupTopoStates (nativeDatas host.nprocessors topo'
      ((cpuNumbers host.nprocessors).map (cpuCstates (onlineIn infos) host.info))) with
  | error fault => rfl
  | ok datas =>
    simp only [hfile, List.foldlM_append, foldlM_changeLines env hcpus, bind, Except.bind]
    cases changePstates initp (env.strtod (timeText startTs))
        (changedCpus initp (onlineIn infos) host.nprocessors) datas with
    | error fault => rfl
    | ok datas =>
      dsimp only
      cases (keptLines trace).foldlM (lineStep env .idlestat)
          (datas, { beginTime := 0, endTime := 0, start := 1 }) with
      | error fault => rfl
      | ok state =>
        dsimp only
        cases changePstates none (env.strtod (timeText endTs))
            (changedCpus initp (onlineIn infos) host.nprocessors) state.1 with
        | error fault => rfl
        | ok datas => rfl

/-- A stored run is the native loader's file for every order of the loaders, and
loading it replays the run over the same topology and C-states. -/
theorem stored_run_loads (h : Recordable env host infos topo) (htrace : host.trace = some trace)
    (hlines : TextLines trace) (hstart : tsSec startTs < 2 ^ 64) (hend : tsSec endTs < 2 ^ 64)
    (hinitp : ∀ known ∈ initp, known.nrcpus = host.nprocessors)
    (hline : initp = none → keptLines trace ≠ []) :
    ∃ text topo', idlestatStore host startTs endTs initp topo = .ok (0, some text) ∧
      SameTree topo topo' ∧
      ∀ loaders : List TraceOps, .idlestat ∈ loaders →
        idlestatLoad env (some text) loaders =
          replay env host infos startTs endTs initp trace topo' := by
  let cpus := changedCpus initp (onlineIn infos) host.nprocessors
  let first := changeLines host.pid initp startTs cpus
  let last := changeLines host.pid none endTs cpus
  have hpos := h.nprocessors_pos
  obtain ⟨hwf, -⟩ := h.wf
  have honline : ∀ cpu : Nat, (cpu : Int) < host.nprocessors →
      Model.Topology.cpuIsOnline topo cpu = .ok (onlineIn infos cpu) := fun cpu _ =>
    (h.cpuIsOnline (sameTree_of_has hwf hwf fun x => Iff.rfl) (Int.natCast_nonneg cpu)).1
  have hfirst : outputPstatesIf host.pid initp initp topo startTs = .ok first.flatten :=
    outputPstatesIf_eq honline hinitp hinitp
  have hlast : outputPstatesIf host.pid initp none topo endTs = .ok last.flatten :=
    outputPstatesIf_eq honline hinitp (by simp)
  have hbuffers := buffers_following hlines (wholeLine_changes h hstart : ∀ line ∈ first, _)
    (wholeLine_changes h hend : ∀ line ∈ last, _)
  obtain ⟨next, file, hnext⟩ := List.exists_cons_of_ne_nil
    (following_ne_nil h hline : first ++ (keptLines trace ++ last) ≠ [])
  obtain ⟨cstates, topo', hcstates, hsame, hload⟩ :=
    loadDatas_sections h (hbuffers.trans hnext)
  refine ⟨versionLine ++ (cpusLine host.nprocessors ++ (outfileTopoInfo topo ++ (cstates ++
    (first.flatten ++ ((keptLines trace).flatten ++ last.flatten))))), topo', ?_, hsame, ?_⟩
  · have hknown : initp.any (fun initp => host.nprocessors ≠ initp.nrcpus) = false := by
      cases hcase : initp with
      | none => rfl
      | some known => simp [hinitp known hcase]
    have hnonneg : ¬ host.nprocessors < 0 := by omega
    simp only [idlestatStore, hnonneg, hknown, h.canOpen, hcstates, hfirst, hlast, htrace,
      storeLines_eq, if_false, Bool.not_true, Bool.false_eq_true, bind, Except.bind,
      List.append_assoc]
  · intro loaders hmem
    rw [idlestatLoad_version (buffers_head hpos h.nprocessors _) hmem]
    exact traceLoad_eq_replay h hload hnext.symm

end RoundTrip

def pairInfos : List TopologyInfo :=
  [⟨0, 0, 0⟩, ⟨0, 1, 1⟩]

def pairTrace : List Char :=
  "# tracer: nop\n<idle>-0 [000] d... 1.5: cpu_idle: state=0 cpu_id=0\n".toList

def pairHost : Host where
  nprocessors := 2
  canOpen := true
  pid := 42
  info := fun _ _ => { name := some "WFI".toList, targetResidency := 1 }
  trace := some pairTrace

def pairPstates : InitPstates where
  nrcpus := 2
  freqs := [800000, 1200000]
  sized := rfl

def pairEnv : Env where
  signedChar := true
  cpuInfo := ⟨0, 0, 0⟩
  pid := 'A'
  uninit := fun _ _ => ⟨[], 0⟩
  host := none
  info := fun _ _ => { name := none, targetResidency := -1 }
  strtod := fun _ => 0

theorem stored_run_loads_pair :
    ∃ topo, addTopoInfos pairInfos = .ok topo ∧
      ∃ text topo', idlestatStore pairHost 1 2 (some pairPstates) topo = .ok (0, some text) ∧
        SameTree topo topo' ∧
        ∀ loaders : List TraceOps, .idlestat ∈ loaders →
          idlestatLoad pairEnv (some text) loaders = replay pairEnv pairHost pairInfos 1 2
            (some pairPstates) pairTrace topo' := by
  have hids : ∀ x ∈ pairInfos, IntIds x := by
    simp [pairInfos, IntIds, IsId, intMax]
  have hnonneg : ∀ x ∈ pairInfos, NonNegative x := by
    simp [pairInfos, NonNegative]
  obtain ⟨topo, hbuilt, -⟩ := addTopoInfos_spec hnonneg
  have hname : IsName "WFI".toList :=
    ⟨by decide, by simp [isSpace], by decide, by decide, by decide⟩
  have hinfo : ∀ cpu i, InfoOk (pairHost.info cpu i) := by
    intro cpu i
    refine ⟨?_, show IsInt 1 by decide⟩
    intro name hmem
    rw [← Option.some.inj hmem]
    exact hname
  have hrecord : Recordable pairEnv pairHost pairInfos topo :=
    { built := hbuilt
      ids := hids
      letters := by decide
      online := ⟨⟨0, 0, 0⟩, by decide, by decide⟩
      nprocessors := by decide
      cstates := fun x _ _ i => hinfo x.cpuId i
      pid := by decide
      canOpen := rfl }
  have hlines : TextLines pairTrace :=
    { noNul := by decide +kernel
      ends := by
        intro c hc
        have hlast : pairTrace.getLast? = some '\n' := by decide +kernel
        rw [hlast] at hc
        exact (Option.some.inj hc).symm }
  refine ⟨topo, hbuilt, stored_run_loads hrecord rfl hlines ?_ ?_ ?_ ?_⟩
  · norm_num [tsSec]
  · norm_num [tsSec]
  · intro known hknown
    rw [← Option.some.inj hknown]
    rfl
  · intro hnone
    cases hnone

end Idlestat.Theory.StoredTrace
