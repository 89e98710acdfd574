import Mathlib.Data.Finset.Sort
import Idlestat.Theory.PstateComparison

/-! `alloc_pstate` as find-or-insert. A record is determined by its set of
frequencies, what is known of each of them, and the one that is current, so the
order in which entries are allocated does not matter. -/
namespace Idlestat.Theory.PstateAlloc

open Idlestat.Library.SortedKeys Idlestat.Library.RunningStats Idlestat.Model.Cstates
  Idlestat.Model.Pstates Idlestat.Theory.PstateRecord Idlestat.Theory.PstateComparison

/-! ## Find or insert -/

/-- Strictly increasing frequencies, ids that are indices, and `current` an index
or -1. -/
structure FreqTable (ps : CpufreqPstates) : Prop where
  sorted : ps.pstate.Pairwise fun a b => a.freq < b.freq
  ids : ∀ (i : Nat) (p : CpufreqPstate), ps.pstate[i]? = some p → p.id = i
  length : ps.max = ps.pstate.length
  current : ps.current = -1 ∨ 0 ≤ ps.current ∧ ps.current < ps.max

/-- One entry without hits is new at index `next`. The entries before it are as
they were, those behind it have moved up by one and keep all but their id. -/
structure OneInserted (ps ps' : CpufreqPstates) (freq next : Nat) : Prop where
  table : FreqTable ps'
  length : ps'.pstate.length = ps.pstate.length + 1
  new : ps'.pstate[next]? = some
    { id := next, freq := freq, count := 0, minTime := dblMax, maxTime := 0, avgTime := 0,
      duration := 0 }
  before : ∀ (i : Nat) (p : CpufreqPstate), ps.pstate[i]? = some p → i < next →
    ps'.pstate[i]? = some p
  behind : ∀ (i : Nat) (p : CpufreqPstate), ps.pstate[i]? = some p → next ≤ i →
    ps'.pstate[i + 1]? = some { p with id := i + 1 }
  stopped : ps'.current = -1 ↔ ps.current = -1
  currentFreq : currentFreq ps' = currentFreq ps
  idle : ps'.idle = ps.idle
  timeEnter : ps'.timeEnter = ps.timeEnter

/-- Index `i` has the frequency, and nothing changes but for the entry it needs. -/
structure FoundOrInserted (ps ps' : CpufreqPstates) (freq i : Nat) : Prop where
  holds : ps'.pstate[i]?.map CpufreqPstate.freq = some freq
  present : freq ∈ freqs ps → ps' = ps
  absent : freq ∉ freqs ps → OneInserted ps ps' freq i

def allocFreqs (ps : CpufreqPstates) (l : List Nat) : CpufreqPstates :=
  l.foldl (fun ps freq => (allocPstate ps freq).1) ps

section Table

variable {ps ps' : CpufreqPstates} {freq i : Nat} {p q : CpufreqPstate}

theorem ids_iff : (∀ (i : Nat) (p : CpufreqPstate), ps.pstate[i]? = some p → p.id = i) ↔
    ps.pstate.map CpufreqPstate.id = List.range ps.pstate.length := by
  constructor
  · intro h
    apply List.ext_getElem
    · simp
    · intro i hi hi'
      rw [List.length_map] at hi
      rw [List.getElem_map, List.getElem_range]
      exact h i _ (List.getElem?_eq_getElem hi)
  · intro h i p hp
    obtain ⟨hi, -⟩ := List.getElem?_eq_some_iff.mp hp
    have hid := congrArg (fun ids : List Nat => ids[i]?) h
    simp only [List.getElem?_map, hp, List.getElem?_range hi] at hid
    exact Option.some.inj hid

theorem FreqTable.tableOk (h : FreqTable ps) : TableOk ps where
  sorted := increasing_map.mpr h.sorted
  max := h.length
  current := by
    have hrange := h.current
    rw [h.length] at hrange
    omega

theorem freqTable_of_tableOk (h : TableOk ps)
    (hids : ps.pstate.map CpufreqPstate.id = List.range ps.pstate.length) : FreqTable ps where
  sorted := h.freq_sorted
  ids := ids_iff.mpr hids
  length := h.max
  current := by
    have hrange := h.current
    rw [h.max]
    omega

theorem freqAt_natCast : freqAt ps i = ps.pstate[i]?.map CpufreqPstate.freq := by
  have hnot : ¬ (i : Int) < 0 := by omega
  simp only [freqAt, hnot, if_false, Int.toNat_natCast, rows, List.getElem?_map, Option.map_map]
  rfl

theorem entry_eq (hrow : row p = row q) (hid : p.id = q.id) : p = q := by
  cases p
  cases q
  simp only [row, stats, Prod.mk.injEq, Running.mk.injEq] at hrow hid
  simp [hrow, hid]

theorem FreqTable.entry_of_row (h : FreqTable ps) (hrow : (rows ps)[i]? = some (row p))
    (hid : p.id = i) : ps.pstate[i]? = some p := by
  rw [rows, List.getElem?_map] at hrow
  obtain ⟨q, hq, heq⟩ := Option.map_eq_some_iff.mp hrow
  rw [hq, entry_eq heq ((h.ids i q hq).trans hid.symm)]

theorem FreqTable.eq_of_same (h : FreqTable ps) (h' : FreqTable ps') (hfreqs : freqs ps = freqs ps')
    (hstats : ∀ freq, statsOf ps freq = statsOf ps' freq)
    (hcurrent : currentFreq ps = currentFreq ps') (hidle : ps.idle = ps'.idle)
    (htime : ps.timeEnter = ps'.timeEnter) : ps = ps' := by
  have hlength : ps.pstate.length = ps'.pstate.length := by
    simpa [freqs] using congrArg List.length hfreqs
  have hentries : ps.pstate = ps'.pstate := by
    apply List.ext_getElem hlength
    intro i hi hi'
    have hfreq : ps.pstate[i].freq = ps'.pstate[i].freq := by
      have hget := congrArg (fun l : List Nat => l[i]?) hfreqs
      simpa [freqs, hi, hi'] using hget
    apply entry_eq
    · have hleft := statsOf_mem h.tableOk (List.getElem_mem hi)
      have hright := statsOf_mem h'.tableOk (List.getElem_mem hi')
      rw [row, row, ← hleft, ← hright, hfreq, hstats]
    · rw [h.ids i _ (List.getElem?_eq_getElem hi), h'.ids i _ (List.getElem?_eq_getElem hi')]
  have hindex : ps.current = ps'.current := by
    cases hfreq : currentFreq ps with
    | none =>
      rw [h.tableOk.currentFreq_eq_none.mp hfreq,
        h'.tableOk.currentFreq_eq_none.mp (hcurrent.symm.trans hfreq)]
    | some freq =>
      have hother : freqAt ps ps'.current = some freq := by
        rw [← hfreq, hcurrent, currentFreq, freqAt, freqAt, rows, rows, hentries]
      exact h.tableOk.freqAt_inj hfreq hother
  apply CpufreqPstates.ext hentries hindex hidle htime
  rw [h.length, h'.length, hlength]

end Table

section Call

variable {ps ps' : CpufreqPstates} {freq : Nat}

theorem absent_of_notMem (h : freq ∉ freqs ps) {i : Int} : freqAt ps i ≠ some freq :=
  fun hfreq => h (mem_freqs_rows.mpr (freqAt_mem hfreq))

theorem oneInserted (h : FreqTable ps) (hins : Inserted ps ps' freq) :
    OneInserted ps ps' freq (position Prod.fst freq (rows ps)) := by
  have htable : FreqTable ps' :=
    freqTable_of_tableOk (hins.tableOk h.tableOk) (hins.ids (ids_iff.mp h.ids))
  have hrows : rows ps' = (rows ps).insertIdx (position Prod.fst freq (rows ps))
      (freq, Running.empty dblMax) := hins.table.trans (insertRow_eq freq _)
  have hrow : ∀ (i : Nat) (p : CpufreqPstate), ps.pstate[i]? = some p →
      (rows ps)[i]? = some (row p) := by
    intro i p hp
    rw [rows, List.getElem?_map, hp, Option.map_some]
  exact {
    table := htable
    length := hins.length
    new := by
      refine htable.entry_of_row ?_ rfl
      rw [hrows, List.getElem?_insertIdx_self, if_pos (position_le _ _)]
      rfl
    before := by
      intro i p hp hlt
      refine htable.entry_of_row ?_ (h.ids i p hp)
      rw [hrows, List.getElem?_insertIdx_of_lt hlt, hrow i p hp]
    behind := by
      intro i p hp hle
      have hlt : position Prod.fst freq (rows ps) < i + 1 := Nat.lt_succ_of_le hle
      refine htable.entry_of_row ?_ rfl
      rw [hrows, List.getElem?_insertIdx_of_gt hlt, Nat.add_sub_cancel, hrow i p hp]
      rfl
    stopped := by
      rw [← htable.tableOk.currentFreq_eq_none, hins.currentFreq_eq,
        h.tableOk.currentFreq_eq_none]
    currentFreq := hins.currentFreq_eq
    idle := hins.idle
    timeEnter := hins.timeEnter }

theorem foundOrInserted (h : FreqTable ps) (freq : Nat) :
    FoundOrInserted ps (allocPstate ps freq).1 freq (allocPstate ps freq).2 := by
  constructor
  · rw [← freqAt_natCast]
    exact (allocPstate_spec h.tableOk freq).index
  · exact allocPstate_present h.tableOk
  · intro habsent
    rcases allocPstate_cases h.tableOk freq with ⟨i, -, hfound⟩ | ⟨ps', halloc, hins⟩
    · exact absurd hfound (absent_of_notMem habsent)
    · rw [halloc]
      exact oneInserted h hins

theorem FoundOrInserted.freqTable {i : Nat} (h : FreqTable ps)
    (halloc : FoundOrInserted ps ps' freq i) : FreqTable ps' := by
  by_cases hmem : freq ∈ freqs ps
  · rw [halloc.present hmem]
    exact h
  · exact (halloc.absent hmem).table

end Call

section Calls

variable {ps : CpufreqPstates} {l : List Nat}

structure AllAllocated (ps ps' : CpufreqPstates) (l : List Nat) : Prop where
  table : FreqTable ps'
  mem : ∀ freq, freq ∈ freqs ps' ↔ freq ∈ l ∨ freq ∈ freqs ps
  stats : ∀ freq, statsOf ps' freq = statsOf ps freq
  currentFreq : currentFreq ps' = currentFreq ps
  idle : ps'.idle = ps.idle
  timeEnter : ps'.timeEnter = ps.timeEnter

theorem allAllocated (h : FreqTable ps) (l : List Nat) :
    AllAllocated ps (allocFreqs ps l) l := by
  induction l generalizing ps with
  | nil => exact ⟨h, by simp [allocFreqs], fun _ => rfl, rfl, rfl, rfl⟩
  | cons freq l ih =>
    have hone := allocPstate_spec h.tableOk freq
    have hrest := ih ((foundOrInserted h freq).freqTable h)
    refine ⟨hrest.table, ?_, fun g => (hrest.stats g).trans (hone.stats g),
      hrest.currentFreq.trans hone.currentFreq, hrest.idle.trans hone.idle,
      hrest.timeEnter.trans hone.timeEnter⟩
    intro g
    calc g ∈ freqs (allocFreqs ps (freq :: l))
      _ ↔ g ∈ l ∨ g ∈ freqs (allocPstate ps freq).1 := hrest.mem g
      _ ↔ g ∈ l ∨ g = freq ∨ g ∈ freqs ps := by rw [mem_freqs_allocPstate h.tableOk]
      _ ↔ g ∈ freq :: l ∨ g ∈ freqs ps := by rw [List.mem_cons]; tauto

theorem AllAllocated.freqs_eq {ps' : CpufreqPstates} (h : AllAllocated ps ps' l) :
    freqs ps' = (l.toFinset ∪ (freqs ps).toFinset).sort := by
  have hset : l.toFinset ∪ (freqs ps).toFinset = (freqs ps').toFinset := by
    ext freq
    rw [Finset.mem_union, List.mem_toFinset, List.mem_toFinset, List.mem_toFinset, h.mem]
  have hsorted : (freqs ps').Pairwise (· < ·) := freqs_increasing h.table.tableOk
  rw [hset]
  exact ((List.toFinset_sort _ (hsorted.imp ne_of_lt)).mpr (hsorted.imp le_of_lt)).symm

end Calls

/-- Every call finds or inserts, and a sequence of calls leaves the sorted union,
in a record that does not depend on their order or repetition. -/
theorem allocPstate_exact {ps : CpufreqPstates} (h : FreqTable ps) :
    (∀ freq, FoundOrInserted ps (allocPstate ps freq).1 freq (allocPstate ps freq).2) ∧
      (∀ l : List Nat, FreqTable (allocFreqs ps l) ∧
        freqs (allocFreqs ps l) = (l.toFinset ∪ (freqs ps).toFinset).sort) ∧
      ∀ l l' : List Nat, l.toFinset = l'.toFinset → allocFreqs ps l = allocFreqs ps l' := by
  refine ⟨foundOrInserted h, ?_, ?_⟩
  · intro l
    exact ⟨(allAllocated h l).table, (allAllocated h l).freqs_eq⟩
  · intro l l' hset
    have hleft := allAllocated h l
    have hright := allAllocated h l'
    apply hleft.table.eq_of_same hright.table
    · rw [hleft.freqs_eq, hright.freqs_eq, hset]
    · exact fun freq => (hleft.stats freq).trans (hright.stats freq).symm
    · exact hleft.currentFreq.trans hright.currentFreq.symm
    · exact hleft.idle.trans hright.idle.symm
    · exact hleft.timeEnter.trans hright.timeEnter.symm

def runningAt2000 : CpufreqPstates :=
  { buildPstateInfo with
    pstate := [newPstate 0 1000, newPstate 1 2000]
    current := 1
    max := 2 }

theorem runningAt2000_ok : FreqTable runningAt2000 := by
  apply freqTable_of_tableOk
  · constructor
    · simp [rows, runningAt2000, row, newPstate, Increasing]
    · rfl
    · exact ⟨by decide, by decide⟩
  · rfl

/-- A new entry goes between the two, and `current` moves up. -/
theorem allocPstate_exact_between :
    OneInserted runningAt2000 (allocPstate runningAt2000 1500).1 1500 1 :=
  ((allocPstate_exact runningAt2000_ok).1 1500).absent (by decide)

end Idlestat.Theory.PstateAlloc
