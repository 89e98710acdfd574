import Idlestat.Theory.ComparisonReport
import Idlestat.Theory.PstateInvariant

/-! The P-state table of the comparison report for one object. The display loop
pairs the entries of two sorted tables by index, so like is compared with like
exactly when the frequencies agree wherever there are hits. -/
namespace Idlestat.Theory.PstateComparison

open Idlestat.Library Idlestat.Library.SortedKeys Idlestat.Model.Topology
  Idlestat.Model.Cstates Idlestat.Model.Pstates Idlestat.Model.Recorder Idlestat.Model.Report
  Idlestat.Theory.ComparisonReport Idlestat.Theory.PstateRecord Idlestat.Theory.PstateInvariant

/-! ## Like with like -/

/-- The callbacks of the report with the two entries in the row, not their
differences. -/
def pairOps : ReportOps CpufreqPstate
    (CompareReportData CpufreqPstate (CpufreqPstate × CpufreqPstate)) :=
  compareOps Prod.mk emptyPstate fun b => { emptyPstate with freq := b.freq }

def HasHits (ps : CpufreqPstates) (freq : Nat) : Prop :=
  ∃ p ∈ ps.pstate, p.freq = freq ∧ 0 < p.count

variable (a : CpufreqPstates) (base : Option CpufreqPstates)

/-- Every pair is an entry of the main table and the entry of the baseline's
table with its frequency, and each frequency with hits has exactly one pair. -/
structure LikeWithLike (pairs : List (CpufreqPstate × CpufreqPstate)) : Prop where
  same : ∀ pair ∈ pairs, pair.1 ∈ a.pstate ∧ (∃ b, base = some b ∧ pair.2 ∈ b.pstate) ∧
    pair.2.freq = pair.1.freq
  once : (pairs.map fun pair => pair.1.freq).Nodup
  complete : ∀ freq, freq ∈ (pairs.map fun pair => pair.1.freq) ↔
    HasHits a freq ∨ ∃ b, base = some b ∧ HasHits b freq

/-- The rows printed are those of pairs of like entries. -/
def PstatesCompared (cpu : List Char) : Prop :=
  ∀ printed, ∃ pairs,
    displayPstates pairOps a base cpu ⟨none, []⟩ = .ok ⟨none, objectLines cpu pairs⟩ ∧
    displayPstates comparisonPstateOps a base cpu ⟨none, printed⟩ =
      .ok ⟨none, printed ++ objectLines cpu (pairs.map fun pair => pstateRow pair.1 pair.2)⟩ ∧
    LikeWithLike a base pairs

/-- The baseline array is as long as the main one. A null array can still be
indexed with 0. -/
def Readable (b : CpufreqPstates) : Prop :=
  a.pstate.length ≤ b.pstate.length ∨ b.pstate = [] ∧ a.pstate.length = 1

/-- Wherever either table has hits at an index, both have the same frequency
there. -/
structure Aligned (b : CpufreqPstates) : Prop where
  readable : Readable a b
  same : ∀ (i : Nat) (p : CpufreqPstate), a.pstate[i]? = some p →
    Hit CpufreqPstate.count (p, b.pstate[i]?) →
    ∃ q : CpufreqPstate, b.pstate[i]? = some q ∧ q.freq = p.freq
  rest : ∀ (i : Nat) (q : CpufreqPstate), a.pstate.length ≤ i → b.pstate[i]? = some q →
    q.count = 0

variable {a base} {b : CpufreqPstates} {cpu : List Char}

section Loop

def entries (a b : CpufreqPstates) : List (CpufreqPstate × Option CpufreqPstate) :=
  a.pstate.mapIdx fun (i : Nat) (p : CpufreqPstate) => (p, b.pstate[i]?)

def hitEntries (a b : CpufreqPstates) : List (CpufreqPstate × Option CpufreqPstate) :=
  (entries a b).filter (Hit CpufreqPstate.count ·)

def hitPairs (a b : CpufreqPstates) : List (CpufreqPstate × CpufreqPstate) :=
  (hitEntries a b).map (entryRow Prod.mk emptyPstate)

theorem mem_hitEntries {entry : CpufreqPstate × Option CpufreqPstate} :
    entry ∈ hitEntries a b ↔
      (∃ i : Nat, a.pstate[i]? = some entry.1 ∧ entry.2 = b.pstate[i]?) ∧
        Hit CpufreqPstate.count entry := by
  simp only [hitEntries, List.mem_filter, decide_eq_true_eq]
  apply and_congr_left
  intro _
  rw [entries, List.mem_mapIdx]
  constructor
  · intro h
    obtain ⟨i, hi, rfl⟩ := h
    exact ⟨i, List.getElem?_eq_getElem hi, rfl⟩
  · intro h
    obtain ⟨i, hfirst, hsecond⟩ := h
    obtain ⟨hi, hget⟩ := List.getElem?_eq_some_iff.mp hfirst
    exact ⟨i, hi, Prod.ext hget hsecond.symm⟩

theorem basePstateAt_eq {i : Nat} (h : i < b.pstate.length ∨ b.pstate = [] ∧ i = 0) :
    basePstateAt (some b) i = .ok b.pstate[i]? := by
  unfold basePstateAt
  by_cases hnull : b.pstate = [] ∧ i = 0
  · obtain ⟨hnil, hzero⟩ := hnull
    simp [hnil, hzero]
  · have hi : i < b.pstate.length := h.resolve_right hnull
    simp [hnull, pstateAt, List.getElem?_eq_getElem hi, bind, Except.bind]

theorem basePstateAt_past {i : Nat} (h : b.pstate.length ≤ i)
    (hnull : ¬ (b.pstate = [] ∧ i = 0)) : basePstateAt (some b) i = .error .outOfBounds := by
  have hnone : b.pstate[i]? = none := List.getElem?_eq_none h
  simp [basePstateAt, hnull, pstateAt, hnone, bind, Except.bind]

theorem mapM_pstatesAt (h : TableOk a) (hread : Readable a b) :
    (List.range a.max).mapM (pstatesAt a (some b)) = .ok (entries a b) := by
  have hentries : entries a b = (List.range a.max).map fun i =>
      (a.pstate.getD i emptyPstate, b.pstate[i]?) := by
    apply List.ext_getElem
    · simp [entries, h.max]
    · intro i hi hi'
      have hlt : i < a.pstate.length := by simpa [entries] using hi
      simp [entries, List.getElem?_eq_getElem hlt]
  rw [hentries]
  apply Runs.mapM_eq_ok_map
  intro i hi
  have hlt : i < a.pstate.length := h.max ▸ List.mem_range.mp hi
  have hbase : basePstateAt (some b) i = .ok b.pstate[i]? := by
    apply basePstateAt_eq
    cases hread with
    | inl hle => exact .inl (by omega)
    | inr hone => exact .inr ⟨hone.1, by omega⟩
  have hmain : pstateAt a i = .ok (a.pstate.getD i emptyPstate) := by
    simp [pstateAt, List.getElem?_eq_getElem hlt]
  simp only [pstatesAt, hmain, hbase, bind, Except.bind]

/-- A shorter baseline array is read past its end. -/
theorem readable_of_mapM (h : TableOk a) {read : List (CpufreqPstate × Option CpufreqPstate)}
    (hread : (List.range a.max).mapM (pstatesAt a (some b)) = .ok read) :
    Readable a b := by
  by_contra hnot
  unfold Readable at hnot
  have hlong : b.pstate.length < a.pstate.length := by omega
  have hlast : a.pstate.length - 1 ∈ List.range a.max := by
    apply List.mem_range.mpr
    rw [h.max]
    omega
  have hall := Runs.mapM_eq_ok_iff.mp hread
  obtain ⟨k, hk, hget⟩ := List.mem_iff_getElem.mp hlast
  have hstep := hall.get hk (hall.length_eq ▸ hk)
  rw [List.get_eq_getElem, hget] at hstep
  obtain ⟨p, -, hstep⟩ := Runs.bind_eq_ok hstep
  obtain ⟨q, hbase, -⟩ := Runs.bind_eq_ok hstep
  have hnull : ¬ (b.pstate = [] ∧ a.pstate.length - 1 = 0) := by
    intro hnull
    apply hnot
    exact .inr ⟨hnull.1, by omega⟩
  rw [basePstateAt_past (by omega) hnull] at hbase
  cases hbase

end Loop

section Rows

variable {Row : Type} {row : CpufreqPstate → CpufreqPstate → Row}
  {alone : CpufreqPstate → CpufreqPstate} {printed : List (ReportLine Row)}

theorem displayPstates_eq (h : TableOk a) (hread : Readable a b) :
    displayPstates (compareOps row emptyPstate alone) a (some b) cpu ⟨none, printed⟩ =
      .ok ⟨none, printed ++ objectLines cpu
        ((hitPairs a b).map fun pair => row pair.1 pair.2)⟩ := by
  unfold displayPstates
  rw [mapM_pstatesAt h hread]
  change displayStates _ _ (entries a b) cpu _ = _
  rw [displayStates_eq, hitPairs, List.map_map]
  rfl

theorem readable_of_displayPstates (h : TableOk a)
    {rdata : CompareReportData CpufreqPstate Row}
    (hdisplay : displayPstates (compareOps row emptyPstate alone) a (some b) cpu
      ⟨none, printed⟩ = .ok rdata) :
    Readable a b := by
  obtain ⟨read, hread, -⟩ := Runs.bind_eq_ok hdisplay
  exact readable_of_mapM h hread

theorem displayPairs_eq (h : TableOk a) (hread : Readable a b) :
    displayPstates pairOps a (some b) cpu ⟨none, []⟩ =
      .ok ⟨none, objectLines cpu (hitPairs a b)⟩ := by
  have hdisplay : displayPstates pairOps a (some b) cpu ⟨none, []⟩ =
      .ok ⟨none, [] ++ objectLines cpu ((hitPairs a b).map fun pair => (pair.1, pair.2))⟩ :=
    displayPstates_eq h hread
  simpa using hdisplay

end Rows

section Compared

theorem emptyPstate_not_mem (h : PstatesOk b) : emptyPstate ∉ b.pstate := by
  intro hmem
  obtain ⟨-, -, -, hmin⟩ := (pstatesExact_of_ok h).unused emptyPstate hmem rfl
  exact absurd hmin dblMax_pos.ne

theorem mem_hitPairs {pair : CpufreqPstate × CpufreqPstate} :
    pair ∈ hitPairs a b ↔ ∃ i : Nat, a.pstate[i]? = some pair.1 ∧
      Hit CpufreqPstate.count (pair.1, b.pstate[i]?) ∧
        pair.2 = (b.pstate[i]?).getD emptyPstate := by
  rw [hitPairs, List.mem_map]
  constructor
  · intro h
    obtain ⟨⟨p, q⟩, hentry, rfl⟩ := h
    obtain ⟨⟨i, hp, hq⟩, hhit⟩ := mem_hitEntries.mp hentry
    have hq : q = b.pstate[i]? := hq
    exact ⟨i, hp, hq ▸ hhit, congrArg (Option.getD · emptyPstate) hq⟩
  · intro h
    obtain ⟨i, hp, hhit, hq⟩ := h
    exact ⟨(pair.1, b.pstate[i]?), mem_hitEntries.mpr ⟨⟨i, hp, rfl⟩, hhit⟩, Prod.ext rfl hq.symm⟩

theorem index_of_freq (h : TableOk a) {i j : Nat} {p q : CpufreqPstate}
    (hi : a.pstate[i]? = some p) (hj : a.pstate[j]? = some q) (hfreq : p.freq = q.freq) :
    i = j := by
  have hnodup : (a.pstate.map CpufreqPstate.freq).Nodup := h.freq_sorted.keys_nodup
  have hlt : i < (a.pstate.map CpufreqPstate.freq).length := by
    rw [List.length_map]
    exact (List.getElem?_eq_some_iff.mp hi).1
  apply (List.getElem?_inj hlt hnodup).mp
  rw [List.getElem?_map, List.getElem?_map, hi, hj]
  exact congrArg some hfreq

theorem hitPairs_once (h : TableOk a) : ((hitPairs a b).map fun pair => pair.1.freq).Nodup := by
  have hentries : (entries a b).map Prod.fst = a.pstate := by
    apply List.ext_getElem
    · simp [entries]
    · intro i hi hi'
      simp [entries]
  have hsub : ((hitPairs a b).map fun pair => pair.1.freq).Sublist
      (a.pstate.map CpufreqPstate.freq) := by
    rw [← hentries, hitPairs, List.map_map, List.map_map]
    exact List.filter_sublist.map _
  exact h.freq_sorted.keys_nodup.sublist hsub

theorem likeWithLike_of_aligned (ha : TableOk a) (h : Aligned a b) :
    LikeWithLike a (some b) (hitPairs a b) where
  same := by
    intro pair hpair
    obtain ⟨i, hp, hhit, hsecond⟩ := mem_hitPairs.mp hpair
    obtain ⟨q, hq, hfreq⟩ := h.same i pair.1 hp hhit
    have hpairSecond : pair.2 = q := by rw [hsecond, hq, Option.getD_some]
    rw [hpairSecond]
    exact ⟨List.mem_of_getElem? hp, ⟨b, rfl, List.mem_of_getElem? hq⟩, hfreq⟩
  once := hitPairs_once ha
  complete := by
    intro freq
    rw [List.mem_map]
    constructor
    · intro hmem
      obtain ⟨pair, hpair, rfl⟩ := hmem
      obtain ⟨i, hp, hhit, -⟩ := mem_hitPairs.mp hpair
      obtain ⟨q, hq, hfreq⟩ := h.same i pair.1 hp hhit
      rw [hq] at hhit
      cases hhit with
      | inl hmain =>
        exact .inl ⟨pair.1, List.mem_of_getElem? hp, rfl, Nat.pos_of_ne_zero hmain⟩
      | inr hbase =>
        obtain ⟨q', hq', hcount⟩ := hbase
        obtain rfl := Option.some.inj hq'
        exact .inr ⟨b, rfl, q, List.mem_of_getElem? hq, hfreq, Nat.pos_of_ne_zero hcount⟩
    · intro hhits
      cases hhits with
      | inl hmain =>
        obtain ⟨p, hp, hfreq, hcount⟩ := hmain
        obtain ⟨i, hi⟩ := List.mem_iff_getElem?.mp hp
        exact ⟨(p, (b.pstate[i]?).getD emptyPstate),
          mem_hitPairs.mpr ⟨i, hi, .inl hcount.ne', rfl⟩, hfreq⟩
      | inr hbase =>
        obtain ⟨b', hb', q, hq, hfreq, hcount⟩ := hbase
        obtain rfl := Option.some.inj hb'
        obtain ⟨i, hi⟩ := List.mem_iff_getElem?.mp hq
        have hlt : i < a.pstate.length := by
          by_contra hpast
          exact absurd (h.rest i q (by omega) hi) hcount.ne'
        have hhit : Hit CpufreqPstate.count (a.pstate[i], b.pstate[i]?) :=
          .inr ⟨q, hi, hcount.ne'⟩
        have hp : a.pstate[i]? = some a.pstate[i] := List.getElem?_eq_getElem hlt
        obtain ⟨q', hq', hfreq'⟩ := h.same i a.pstate[i] hp hhit
        obtain rfl := Option.some.inj (hi.symm.trans hq')
        exact ⟨(a.pstate[i], (b.pstate[i]?).getD emptyPstate),
          mem_hitPairs.mpr ⟨i, hp, hhit, rfl⟩, hfreq'.symm.trans hfreq⟩

theorem aligned_of_likeWithLike (hb : PstatesOk b) (hread : Readable a b)
    (h : LikeWithLike a (some b) (hitPairs a b)) : Aligned a b where
  readable := hread
  same := by
    intro i p hp hhit
    have hpair : (p, (b.pstate[i]?).getD emptyPstate) ∈ hitPairs a b :=
      mem_hitPairs.mpr ⟨i, hp, hhit, rfl⟩
    obtain ⟨-, ⟨b', hb', hmem⟩, hfreq⟩ := h.same _ hpair
    obtain rfl := Option.some.inj hb'
    cases hq : b.pstate[i]? with
    | none =>
      rw [hq] at hmem
      exact absurd hmem (emptyPstate_not_mem hb)
    | some q =>
      rw [hq] at hfreq
      exact ⟨q, rfl, hfreq⟩
  rest := by
    intro i q hpast hq
    by_contra hcount
    have hlisted : q.freq ∈ (hitPairs a b).map fun pair => pair.1.freq :=
      (h.complete q.freq).mpr
        (.inr ⟨b, rfl, q, List.mem_of_getElem? hq, rfl, Nat.pos_of_ne_zero hcount⟩)
    obtain ⟨pair, hpair, hfreq⟩ := List.mem_map.mp hlisted
    obtain ⟨j, hp, -, hsecond⟩ := mem_hitPairs.mp hpair
    obtain ⟨-, ⟨b', hb', hmem⟩, hsame⟩ := h.same pair hpair
    obtain rfl := Option.some.inj hb'
    cases hq' : b.pstate[j]? with
    | none =>
      rw [hsecond, hq'] at hmem
      exact absurd hmem (emptyPstate_not_mem hb)
    | some q' =>
      rw [hsecond, hq'] at hsame
      have hij : i = j := index_of_freq hb.table hq hq' (hfreq.symm.trans hsame.symm)
      have hlt : j < a.pstate.length := (List.getElem?_eq_some_iff.mp hp).1
      omega

/-- What the report says about one object compares like with like exactly when
its two tables are aligned. -/
theorem pstatesCompared_iff (ha : PstatesOk a) (hb : PstatesOk b) (cpu : List Char) :
    PstatesCompared a (some b) cpu ↔ Aligned a b := by
  constructor
  · intro h
    obtain ⟨pairs, hpairs, -, hlike⟩ := h []
    have hread : Readable a b := readable_of_displayPstates ha.table hpairs
    have hlines : objectLines cpu (hitPairs a b) = objectLines cpu pairs :=
      congrArg CompareReportData.printed
        (Except.ok.inj ((displayPairs_eq ha.table hread).symm.trans hpairs))
    have hsame : hitPairs a b = pairs := by
      have hrows := congrArg rowsOf hlines
      rwa [rowsOf_objectLines, rowsOf_objectLines] at hrows
    exact aligned_of_likeWithLike hb hread (hsame ▸ hlike)
  · intro h printed
    have hrows : displayPstates comparisonPstateOps a (some b) cpu ⟨none, printed⟩ =
        .ok ⟨none, printed ++ objectLines cpu
          ((hitPairs a b).map fun pair => pstateRow pair.1 pair.2)⟩ := by
      rw [comparisonPstateOps_eq]
      exact displayPstates_eq ha.table h.readable
    exact ⟨hitPairs a b, displayPairs_eq ha.table h.readable, hrows,
      likeWithLike_of_aligned ha.table h⟩

end Compared

section Merged

def freqs (ps : CpufreqPstates) : List Nat :=
  ps.pstate.map CpufreqPstate.freq

theorem mem_freqs_rows {ps : CpufreqPstates} {freq : Nat} :
    freq ∈ freqs ps ↔ ∃ r ∈ rows ps, r.1 = freq := by
  simp only [freqs, rows, List.mem_map, exists_exists_and_eq_and]
  rfl

theorem mem_freqs_allocPstate {ps : CpufreqPstates} (h : TableOk ps) {freq f : Nat} :
    f ∈ freqs (allocPstate ps freq).1 ↔ f = freq ∨ f ∈ freqs ps := by
  rcases allocPstate_cases h freq with ⟨i, halloc, hi⟩ | ⟨ps', halloc, hins⟩
  · rw [halloc]
    constructor
    · exact .inr
    · intro hf
      cases hf with
      | inl hnew => exact mem_freqs_rows.mpr (hnew ▸ freqAt_mem hi)
      | inr hold => exact hold
  · rw [halloc, mem_freqs_rows, mem_freqs_rows, hins.table]
    simp only [mem_insertRow]
    constructor
    · intro hf
      obtain ⟨r, hnew | hold, hfreq⟩ := hf
      · exact .inl (hfreq.symm.trans (congrArg Prod.fst hnew))
      · exact .inr ⟨r, hold, hfreq⟩
    · intro hf
      cases hf with
      | inl hnew => exact ⟨_, .inl rfl, hnew.symm⟩
      | inr hold =>
        obtain ⟨r, hr, hfreq⟩ := hold
        exact ⟨r, .inr hr, hfreq⟩

theorem allocPstate_present {ps : CpufreqPstates} (h : TableOk ps) {freq : Nat}
    (hmem : freq ∈ freqs ps) : (allocPstate ps freq).1 = ps := by
  rcases allocPstate_cases h freq with ⟨i, halloc, -⟩ | ⟨ps', -, hins⟩
  · rw [halloc]
  · obtain ⟨r, hr, hfreq⟩ := mem_freqs_rows.mp hmem
    exact absurd hfreq (hins.absent r hr)

theorem mem_freqs_allocAll {l : List CpufreqPstate} {ps : CpufreqPstates} (h : PstatesOk ps)
    {f : Nat} :
    f ∈ freqs (l.foldl (fun ps p => (allocPstate ps p.freq).1) ps) ↔
      f ∈ l.map CpufreqPstate.freq ∨ f ∈ freqs ps := by
  induction l generalizing ps with
  | nil => simp
  | cons p rest ih =>
    rw [List.foldl_cons, ih ((allocPstate_spec h.table p.freq).ok h),
      mem_freqs_allocPstate h.table, List.map_cons, List.mem_cons]
    tauto

theorem freqs_increasing (h : TableOk a) : (freqs a).Pairwise (· < ·) :=
  h.freq_sorted.keys

/-- The two tables that a merge leaves have the same frequencies. -/
theorem freqs_mergePstatesCpu (ha : PstatesOk a) (hb : PstatesOk b) :
    freqs (mergePstatesCpu a b).1 = freqs (mergePstatesCpu a b).2 := by
  obtain ⟨hmain, hbase⟩ := mergePstatesCpu_ok ha hb
  have hsame : ∀ f, f ∈ freqs (mergePstatesCpu a b).1 ↔ f ∈ freqs (mergePstatesCpu a b).2 := by
    intro f
    have hfirst : f ∈ freqs (mergePstatesCpu a b).2 ↔ f ∈ freqs a ∨ f ∈ freqs b :=
      mem_freqs_allocAll hb
    have hsecond : f ∈ freqs (mergePstatesCpu a b).1 ↔
        f ∈ freqs (mergePstatesCpu a b).2 ∨ f ∈ freqs a := mem_freqs_allocAll ha
    rw [hsecond, hfirst]
    tauto
  have hmain' : Increasing id (freqs (mergePstatesCpu a b).1) := freqs_increasing hmain.table
  have hbase' : Increasing id (freqs (mergePstatesCpu a b).2) := freqs_increasing hbase.table
  exact hmain'.eq_of_mem_iff hbase' hsame

theorem aligned_of_freqs (h : freqs a = freqs b) : Aligned a b := by
  have hlength : a.pstate.length = b.pstate.length := by
    simpa [freqs] using congrArg List.length h
  constructor
  · exact .inl hlength.le
  · intro i p hp _
    have hget : (freqs a)[i]? = (freqs b)[i]? := by rw [h]
    rw [freqs, freqs, List.getElem?_map, List.getElem?_map, hp] at hget
    exact Option.map_eq_some_iff.mp hget.symm
  · intro i q hpast hq
    have hlt := (List.getElem?_eq_some_iff.mp hq).1
    omega

end Merged

end Idlestat.Theory.PstateComparison
