import Idlestat.Library.RunningStats
import Idlestat.Model.Recorder
import Idlestat.Theory.CstateRecord

/-! What the P-state operations do to one record, seen as a table from
frequencies to statistics and a current frequency. Insertions move entries and
the index `current`, but neither the table nor the current frequency. -/
namespace Idlestat.Theory.PstateRecord

open Idlestat.Library.SortedKeys Idlestat.Library.RunningStats Idlestat.Model.Cstates
  Idlestat.Model.Pstates Idlestat.Theory.CstateRecord

def stats (p : CpufreqPstate) : Running ℚ :=
  { count := p.count
    total := p.duration
    mean := p.avgTime
    least := p.minTime
    greatest := p.maxTime }

def row (p : CpufreqPstate) : Nat × Running ℚ :=
  (p.freq, stats p)

def rows (ps : CpufreqPstates) : List (Nat × Running ℚ) :=
  ps.pstate.map row

/-- The statistics of a frequency, those of an empty sample if it has no entry. -/
def statsOf (ps : CpufreqPstates) (freq : Nat) : Running ℚ :=
  ((lookup Prod.fst freq (rows ps)).map Prod.snd).getD (Running.empty dblMax)

def freqAt (ps : CpufreqPstates) (i : Int) : Option Nat :=
  if i < 0 then none else (rows ps)[i.toNat]?.map Prod.fst

/-- The frequency `current` designates, if there is one. -/
def currentFreq (ps : CpufreqPstates) : Option Nat :=
  freqAt ps ps.current

structure PstatesOk (ps : CpufreqPstates) : Prop where
  sorted : Increasing Prod.fst (rows ps)
  ids : ps.pstate.map CpufreqPstate.id = List.range ps.pstate.length
  max : ps.max = ps.pstate.length
  current : -1 ≤ ps.current ∧ ps.current < ps.pstate.length
  idle : ps.idle = -1 ∨ ps.idle = 0 ∨ ps.idle = 1
  entries : ∀ r ∈ rows ps, ∃ xs : List ℚ, (∀ x ∈ xs, 0 < x) ∧ r.2 = ofList dblMax xs

/-- The part of it that is about the array and the index: all that
`record_group_freq` needs. -/
structure TableOk (ps : CpufreqPstates) : Prop where
  sorted : Increasing Prod.fst (rows ps)
  max : ps.max = ps.pstate.length
  current : -1 ≤ ps.current ∧ ps.current < ps.pstate.length

theorem PstatesOk.table {ps : CpufreqPstates} (h : PstatesOk ps) : TableOk ps :=
  ⟨h.sorted, h.max, h.current⟩

theorem buildPstateInfo_ok : PstatesOk buildPstateInfo where
  sorted := List.Pairwise.nil
  ids := rfl
  max := rfl
  current := ⟨le_refl _, by decide⟩
  idle := .inl rfl
  entries := by simp [rows, buildPstateInfo]

section Record

variable {ps : CpufreqPstates} {freq : Nat} {i j : Int}

@[simp] theorem length_rows : (rows ps).length = ps.pstate.length := by
  simp [rows]

theorem freqAt_isSome_iff : (freqAt ps i).isSome ↔ 0 ≤ i ∧ i < ps.pstate.length := by
  unfold freqAt
  split
  · simp
    omega
  · simp
    omega

theorem freqAt_of_neg (hi : i < 0) : freqAt ps i = none := by
  simp [freqAt, hi]

theorem TableOk.currentFreq_eq_none (h : TableOk ps) :
    currentFreq ps = none ↔ ps.current = -1 := by
  have hrange := h.current
  rw [← Option.not_isSome_iff_eq_none, currentFreq, freqAt_isSome_iff]
  omega

theorem TableOk.freqAt_inj (h : TableOk ps) (hi : freqAt ps i = some freq)
    (hj : freqAt ps j = some freq) : i = j := by
  have hi' := freqAt_isSome_iff.mp (Option.isSome_of_mem hi)
  have hj' := freqAt_isSome_iff.mp (Option.isSome_of_mem hj)
  have hnotI : ¬ i < 0 := by omega
  have hnotJ : ¬ j < 0 := by omega
  simp only [freqAt, hnotI, if_false, ← List.getElem?_map] at hi
  simp only [freqAt, hnotJ, if_false, ← List.getElem?_map] at hj
  have hlen : i.toNat < ((rows ps).map Prod.fst).length := by simp; omega
  have heq := (List.getElem?_inj hlen h.sorted.keys_nodup).mp (hi.trans hj.symm)
  omega

theorem freqAt_mem (hi : freqAt ps i = some freq) : ∃ r ∈ rows ps, r.1 = freq := by
  unfold freqAt at hi
  split at hi
  · cases hi
  · obtain ⟨r, hr, hfreq⟩ := Option.map_eq_some_iff.mp hi
    exact ⟨r, List.mem_of_getElem? hr, hfreq⟩

theorem statsOf_mem (h : TableOk ps) {p : CpufreqPstate} (hp : p ∈ ps.pstate) :
    statsOf ps p.freq = stats p := by
  have hrow : lookup Prod.fst (row p).1 (rows ps) = some (row p) :=
    lookup_mem h.sorted (List.mem_map_of_mem hp)
  simp only [statsOf, show p.freq = (row p).1 from rfl, hrow, Option.map_some, Option.getD_some]
  rfl

theorem statsOf_of_absent (h : ∀ r ∈ rows ps, r.1 ≠ freq) :
    statsOf ps freq = Running.empty dblMax := by
  have hnone : lookup Prod.fst freq (rows ps) = none := lookup_none.mpr h
  simp [statsOf, hnone]

end Record

section Alloc

variable {ps : CpufreqPstates} {freq : Nat}

theorem findFreq_spec {l : List CpufreqPstate} (h : Increasing CpufreqPstate.freq l)
    (freq start : Nat) :
    (∃ k p, findFreq freq l start = .inl (start + k) ∧ l[k]? = some p ∧ p.freq = freq) ∨
      findFreq freq l start = .inr (start + position CpufreqPstate.freq freq l) ∧
        ∀ p ∈ l, p.freq ≠ freq := by
  induction l generalizing start with
  | nil => exact .inr ⟨rfl, by simp⟩
  | cons p rest ih =>
    by_cases hge : freq ≥ p.freq
    · by_cases heq : p.freq = freq
      · exact .inl ⟨0, p, by simp [findFreq, heq], rfl, heq⟩
      · have hpos : position CpufreqPstate.freq freq (p :: rest) =
            position CpufreqPstate.freq freq rest + 1 := by
          have hnot : ¬ freq < p.freq := by omega
          simp [position, List.findIdx_cons, hnot]
        have hfind : findFreq freq (p :: rest) start = findFreq freq rest (start + 1) := by
          simp [findFreq, hge, heq]
        rw [hfind, hpos]
        rcases ih h.tail (start + 1) with ⟨k, q, hk, hq, hqf⟩ | ⟨hk, habsent⟩
        · exact .inl ⟨k + 1, q, by rw [hk]; congr 1; omega, hq, hqf⟩
        · refine .inr ⟨by rw [hk]; congr 1; omega, fun q hq => ?_⟩
          rcases List.mem_cons.mp hq with rfl | hq
          · exact heq
          · exact habsent q hq
    · have hlt : freq < p.freq := by omega
      refine .inr ⟨by simp [findFreq, hge, position, List.findIdx_cons, hlt], fun q hq => ?_⟩
      rcases List.mem_cons.mp hq with rfl | hq
      · exact hlt.ne'
      · exact (hlt.trans (h.head_lt hq)).ne'

def insertRow (freq : Nat) (l : List (Nat × Running ℚ)) : List (Nat × Running ℚ) :=
  l.take (position Prod.fst freq l) ++
    (freq, Running.empty dblMax) :: l.drop (position Prod.fst freq l)

/-- Everything `alloc_pstate` does when the frequency has no entry yet. -/
structure Inserted (ps ps' : CpufreqPstates) (freq : Nat) : Prop where
  absent : ∀ r ∈ rows ps, r.1 ≠ freq
  table : rows ps' = insertRow freq (rows ps)
  ids : ps.pstate.map CpufreqPstate.id = List.range ps.pstate.length →
    ps'.pstate.map CpufreqPstate.id = List.range ps'.pstate.length
  max : ps'.max = ps'.pstate.length
  current : ps'.current = if ps.current ≥ (position Prod.fst freq (rows ps) : Nat)
    then ps.current + 1 else ps.current
  idle : ps'.idle = ps.idle
  timeEnter : ps'.timeEnter = ps.timeEnter

theorem TableOk.freq_sorted (h : TableOk ps) :
    Increasing CpufreqPstate.freq ps.pstate := by
  simpa [Increasing, rows, List.pairwise_map, row] using h.sorted

theorem position_rows : position Prod.fst freq (rows ps) =
    position CpufreqPstate.freq freq ps.pstate := by
  simp only [position, rows, List.findIdx_map]
  rfl

/-- Renumbering the entries behind the new one keeps ids equal to indices. -/
private theorem ids_insert {l : List CpufreqPstate} {n : Nat} (hn : n ≤ l.length)
    (hids : l.map CpufreqPstate.id = List.range l.length) (freq : Nat) :
    (l.take n ++ newPstate n freq ::
      (l.drop n).mapIdx fun k p => { p with id := n + 1 + k }).map CpufreqPstate.id =
    List.range (l.length + 1) := by
  have hbefore : (l.take n).map CpufreqPstate.id = List.range n := by
    rw [List.map_take, hids, List.take_range, min_eq_left hn]
  have hbehind : ((l.drop n).mapIdx fun k p => { p with id := n + 1 + k }).map
      CpufreqPstate.id = (List.range (l.length - n)).map fun k => n + (k + 1) := by
    apply List.ext_getElem
    · simp
    · intro k hk hk'
      simp
      omega
  have hsplit : l.length + 1 = n + (l.length - n + 1) := by omega
  rw [hsplit, List.range_add, List.range_succ_eq_map, List.map_append, List.map_cons, hbefore,
    hbehind, List.map_cons, List.map_map]
  rfl

private theorem rows_insert (l : List CpufreqPstate) (n freq : Nat) :
    (l.take n ++ newPstate n freq ::
      (l.drop n).mapIdx fun k p => { p with id := n + 1 + k }).map row =
    (l.map row).take n ++ (freq, Running.empty dblMax) :: (l.map row).drop n := by
  have hbehind : ((l.drop n).mapIdx fun k p => { p with id := n + 1 + k }).map row =
      (l.drop n).map row := by
    apply List.ext_getElem
    · simp
    · intro k hk hk'
      simp [row, stats]
  rw [List.map_append, List.map_cons, hbehind, List.map_take, List.map_drop]
  rfl

theorem allocPstate_cases (h : TableOk ps) (freq : Nat) :
    (∃ i : Nat, allocPstate ps freq = (ps, i) ∧ freqAt ps i = some freq) ∨
      ∃ ps', allocPstate ps freq = (ps', position Prod.fst freq (rows ps)) ∧
        Inserted ps ps' freq := by
  have hall : ps.pstate.take ps.max = ps.pstate := by rw [h.max, List.take_length]
  rcases findFreq_spec h.freq_sorted freq 0 with ⟨k, p, hfind, hp, hfreq⟩ | ⟨hfind, habsent⟩
  · left
    refine ⟨k, by simp [allocPstate, hall, hfind], ?_⟩
    simp [freqAt, rows, hp, row, hfreq]
  · right
    rw [Nat.zero_add, ← position_rows] at hfind
    have hn : position Prod.fst freq (rows ps) ≤ ps.pstate.length := by
      rw [← length_rows]
      exact position_le _ _
    have hmoved : (ps.pstate.drop (position Prod.fst freq (rows ps))).take
        (ps.max - position Prod.fst freq (rows ps)) =
          ps.pstate.drop (position Prod.fst freq (rows ps)) := by
      apply List.take_of_length_le
      rw [List.length_drop, h.max]
    refine ⟨_, by simp only [allocPstate, hall, hfind, hmoved]; rfl, ?_⟩
    exact {
      absent := by
        intro r hr
        obtain ⟨p, hp, rfl⟩ := List.mem_map.mp hr
        exact habsent p hp
      table := rows_insert _ _ _
      ids := by
        intro hids
        rw [ids_insert hn hids]
        congr 1
        simp
        omega
      max := by
        simp [h.max]
        omega
      current := rfl
      idle := rfl
      timeEnter := rfl }

theorem insertRow_eq (freq : Nat) (l : List (Nat × Running ℚ)) :
    insertRow freq l = l.insertIdx (position Prod.fst freq l) (freq, Running.empty dblMax) :=
  (insertIdx_take_drop _ l (position_le _ _)).symm

theorem mem_insertRow {l : List (Nat × Running ℚ)} {r : Nat × Running ℚ} :
    r ∈ insertRow freq l ↔ r = (freq, Running.empty dblMax) ∨ r ∈ l := by
  rw [insertRow_eq]
  exact mem_insert

section Inserted

variable {ps' : CpufreqPstates} {g : Nat}

theorem Inserted.length (hins : Inserted ps ps' freq) :
    ps'.pstate.length = ps.pstate.length + 1 := by
  rw [← length_rows, hins.table, insertRow_eq, List.length_insertIdx_of_le_length
    (position_le _ _), length_rows]

theorem Inserted.tableOk (hins : Inserted ps ps' freq) (h : TableOk ps) : TableOk ps' where
  sorted := by
    rw [hins.table, insertRow_eq]
    exact h.sorted.insert (x := (freq, Running.empty dblMax)) hins.absent
  max := hins.max
  current := by
    have hrange := h.current
    rw [hins.current, hins.length]
    split <;> constructor <;> push_cast <;> omega

theorem Inserted.ok (hins : Inserted ps ps' freq) (h : PstatesOk ps) : PstatesOk ps' where
  sorted := (hins.tableOk h.table).sorted
  ids := hins.ids h.ids
  max := hins.max
  current := (hins.tableOk h.table).current
  idle := hins.idle ▸ h.idle
  entries := by
    intro r hr
    rw [hins.table] at hr
    rcases mem_insertRow.mp hr with rfl | hr
    · exact ⟨[], by simp, rfl⟩
    · exact h.entries r hr

theorem Inserted.freqAt_new (hins : Inserted ps ps' freq) :
    freqAt ps' (position Prod.fst freq (rows ps) : Nat) = some freq := by
  have hn : position Prod.fst freq (rows ps) ≤ (rows ps).length := position_le _ _
  have hnot : ¬ ((position Prod.fst freq (rows ps) : Nat) : Int) < 0 := by omega
  have hlen := List.length_take_of_le hn
  simp only [freqAt, hnot, if_false, hins.table, insertRow, Int.toNat_natCast]
  rw [List.getElem?_append_right (by rw [hlen]), hlen, Nat.sub_self]
  rfl

theorem Inserted.freqAt_shift (hins : Inserted ps ps' freq) (i : Int) :
    freqAt ps' (if i ≥ (position Prod.fst freq (rows ps) : Nat) then i + 1 else i) =
      freqAt ps i := by
  have hn : position Prod.fst freq (rows ps) ≤ (rows ps).length := position_le _ _
  by_cases hneg : i < 0
  · have hnot : ¬ i ≥ (position Prod.fst freq (rows ps) : Nat) := by omega
    rw [if_neg hnot, freqAt_of_neg hneg, freqAt_of_neg hneg]
  · obtain ⟨k, rfl⟩ : ∃ k : Nat, i = k := ⟨i.toNat, by omega⟩
    by_cases hk : (k : Int) ≥ (position Prod.fst freq (rows ps) : Nat)
    · have hnot : ¬ (k : Int) + 1 < 0 := by omega
      have htoNat : ((k : Int) + 1).toNat = k + 1 := by omega
      have hsub : k + 1 - position Prod.fst freq (rows ps) =
          (k - position Prod.fst freq (rows ps)) + 1 := by omega
      have hadd :
          position Prod.fst freq (rows ps) + (k - position Prod.fst freq (rows ps)) = k := by
        omega
      simp only [freqAt, hk, if_true, hnot, hneg, if_false, hins.table, insertRow, htoNat,
        Int.toNat_natCast]
      rw [List.getElem?_append_right (by simp; omega), List.length_take_of_le hn, hsub,
        List.getElem?_cons_succ, List.getElem?_drop, hadd]
    · have hlt : k < position Prod.fst freq (rows ps) := by omega
      simp only [freqAt, hk, hneg, if_false, hins.table, insertRow, Int.toNat_natCast]
      rw [List.getElem?_append_left (by rw [List.length_take_of_le hn]; exact hlt),
        List.getElem?_take_of_lt hlt]

theorem Inserted.currentFreq_eq (hins : Inserted ps ps' freq) :
    currentFreq ps' = currentFreq ps := by
  unfold currentFreq
  rw [hins.current, hins.freqAt_shift]

theorem Inserted.statsOf_eq (hins : Inserted ps ps' freq) (h : TableOk ps) (g : Nat) :
    statsOf ps' g = statsOf ps g := by
  by_cases hg : g = freq
  · subst hg
    rw [statsOf_of_absent hins.absent]
    have hmem : (g, Running.empty dblMax) ∈ rows ps' := by
      rw [hins.table]
      exact mem_insertRow.mpr (.inl rfl)
    have hfind : lookup Prod.fst g (rows ps') = some (g, Running.empty dblMax) :=
      lookup_mem (hins.tableOk h).sorted hmem
    simp [statsOf, hfind]
  · have hfind : lookup Prod.fst g (rows ps') = lookup Prod.fst g (rows ps) := by
      have hne : freq ≠ g := fun heq => hg heq.symm
      simp only [lookup, hins.table, insertRow, List.find?_append, List.find?_cons, hne,
        decide_false]
      rw [← List.find?_append, List.take_append_drop]
    simp [statsOf, hfind]

end Inserted

structure Allocated (ps ps' : CpufreqPstates) (freq i : Nat) : Prop where
  ok : PstatesOk ps → PstatesOk ps'
  table : TableOk ps'
  index : freqAt ps' i = some freq
  currentFreq : currentFreq ps' = currentFreq ps
  stats : ∀ g, statsOf ps' g = statsOf ps g
  idle : ps'.idle = ps.idle
  timeEnter : ps'.timeEnter = ps.timeEnter
  pstate : ps'.pstate ≠ []

theorem Allocated.current_iff {ps' : CpufreqPstates} {i : Nat}
    (halloc : Allocated ps ps' freq i) (h : TableOk ps) :
    ps'.current = -1 ↔ ps.current = -1 := by
  rw [← halloc.table.currentFreq_eq_none, halloc.currentFreq, h.currentFreq_eq_none]

theorem pstate_ne_nil_of_freqAt {i : Int} {f : Nat} (hi : freqAt ps i = some f) :
    ps.pstate ≠ [] := by
  have hrange := freqAt_isSome_iff.mp (Option.isSome_of_mem hi)
  apply List.length_pos_iff.mp
  omega

theorem allocPstate_spec (h : TableOk ps) (freq : Nat) :
    Allocated ps (allocPstate ps freq).1 freq (allocPstate ps freq).2 := by
  rcases allocPstate_cases h freq with ⟨i, halloc, hi⟩ | ⟨ps', halloc, hins⟩
  · rw [halloc]
    exact ⟨id, h, hi, rfl, fun _ => rfl, rfl, rfl, pstate_ne_nil_of_freqAt hi⟩
  · rw [halloc]
    exact ⟨hins.ok, hins.tableOk h, hins.freqAt_new, hins.currentFreq_eq, hins.statsOf_eq h,
      hins.idle, hins.timeEnter, pstate_ne_nil_of_freqAt hins.freqAt_new⟩

theorem allocPstate_current (h : TableOk ps) (hcur : currentFreq ps = some freq) :
    allocPstate ps freq = (ps, ps.current.toNat) ∧ 0 ≤ ps.current := by
  have hrange := freqAt_isSome_iff.mp (Option.isSome_of_mem hcur)
  rcases allocPstate_cases h freq with ⟨i, halloc, hi⟩ | ⟨ps', -, hins⟩
  · have heq := h.freqAt_inj hcur hi
    rw [halloc]
    exact ⟨by congr 1; omega, hrange.1⟩
  · obtain ⟨r, hr, hfreq⟩ := freqAt_mem hcur
    exact absurd hfreq (hins.absent r hr)

end Alloc

section Move

variable {ps : CpufreqPstates} {freq : Nat} {time : ℚ}

theorem TableOk.move (h : TableOk ps) {current : Int}
    (hcur : current = -1 ∨ (freqAt ps current).isSome) (idle : Int) (timeEnter : ℚ) :
    TableOk { ps with current := current, idle := idle, timeEnter := timeEnter } where
  sorted := h.sorted
  max := h.max
  current := by
    rcases hcur with hcur | hcur
    · exact ⟨hcur.ge, show current < _ by omega⟩
    · have hrange := freqAt_isSome_iff.mp hcur
      exact ⟨show -1 ≤ current by omega, hrange.2⟩

theorem PstatesOk.move (h : PstatesOk ps) {current idle : Int} {timeEnter : ℚ}
    (hcur : current = -1 ∨ (freqAt ps current).isSome) (hidle : idle = -1 ∨ idle = 0 ∨ idle = 1) :
    PstatesOk { ps with current := current, idle := idle, timeEnter := timeEnter } where
  sorted := h.sorted
  ids := h.ids
  max := h.max
  current := (h.table.move hcur idle timeEnter).current
  idle := hidle
  entries := h.entries

theorem PstatesOk.current_isSome (h : PstatesOk ps) :
    ps.current = -1 ∨ (freqAt ps ps.current).isSome := by
  have hrange := h.current
  rw [freqAt_isSome_iff]
  omega

/-- `close_current_pstate` adds the elapsed time to the current frequency. -/
structure Closed (ps ps' : CpufreqPstates) (elapsed : ℚ) : Prop where
  ok : PstatesOk ps → PstatesOk ps'
  table : TableOk ps'
  current : ps'.current = ps.current
  freqAt : ∀ i, freqAt ps' i = freqAt ps i
  stats : ∀ g, statsOf ps' g =
    if currentFreq ps = some g ∧ 0 < elapsed then (statsOf ps g).push elapsed else statsOf ps g
  idle : ps'.idle = ps.idle
  timeEnter : ps'.timeEnter = ps.timeEnter

theorem stats_close (p : CpufreqPstate) (elapsed : ℚ) :
    stats (p.close elapsed) = (stats p).push elapsed := by
  simp [stats, CpufreqPstate.close, Running.push, cMin_eq_min, cMax_eq_max, cAvg]

private def pushRow (elapsed : ℚ) (r : Nat × Running ℚ) : Nat × Running ℚ :=
  (r.1, r.2.push elapsed)

private theorem row_close (p : CpufreqPstate) (elapsed : ℚ) :
    row (p.close elapsed) = pushRow elapsed (row p) :=
  Prod.ext rfl (stats_close p elapsed)

private theorem rows_modify (l : List CpufreqPstate) (i : Nat) (elapsed : ℚ) :
    (l.modify i (·.close elapsed)).map row = (l.map row).modify i (pushRow elapsed) := by
  induction l generalizing i with
  | nil => cases i <;> rfl
  | cons p rest ih =>
    cases i with
    | zero => simp [row_close]
    | succ i => simp [ih]

private theorem keys_modify (rs : List (Nat × Running ℚ)) (i : Nat) (elapsed : ℚ) :
    (rs.modify i (pushRow elapsed)).map Prod.fst = rs.map Prod.fst := by
  apply map_modify_of_eq
  intro r
  rfl

private theorem entries_modify {rs : List (Nat × Running ℚ)} {elapsed : ℚ} (hpos : 0 < elapsed)
    (h : ∀ r ∈ rs, ∃ xs : List ℚ, (∀ x ∈ xs, 0 < x) ∧ r.2 = ofList dblMax xs) (i : Nat) :
    ∀ r ∈ rs.modify i (pushRow elapsed),
      ∃ xs : List ℚ, (∀ x ∈ xs, 0 < x) ∧ r.2 = ofList dblMax xs := by
  intro r hr
  obtain ⟨k, hk⟩ := List.mem_iff_getElem?.mp hr
  rw [List.getElem?_modify] at hk
  obtain ⟨q, hq, hqr⟩ := Option.map_eq_some_iff.mp hk
  obtain ⟨xs, hxs, hstats⟩ := h q (List.mem_of_getElem? hq)
  split at hqr
  · refine ⟨xs ++ [elapsed], ?_, ?_⟩
    · intro x hx
      rcases List.mem_append.mp hx with hx | hx
      · exact hxs x hx
      · rwa [List.mem_singleton.mp hx]
    · rw [← hqr, ofList_concat, ← hstats]
      rfl
  · exact ⟨xs, hxs, hqr ▸ hstats⟩

private theorem TableOk.closeEntry (h : TableOk ps) (elapsed : ℚ) (i : Nat) :
    TableOk { ps with pstate := ps.pstate.modify i (·.close elapsed) } where
  sorted := by
    apply List.pairwise_map.mp
    rw [rows, rows_modify, keys_modify]
    exact h.sorted.keys
  max := by
    rw [List.length_modify]
    exact h.max
  current := by
    rw [List.length_modify]
    exact h.current

private theorem PstatesOk.closeEntry (h : PstatesOk ps) {elapsed : ℚ} (hpos : 0 < elapsed)
    (i : Nat) : PstatesOk { ps with pstate := ps.pstate.modify i (·.close elapsed) } where
  sorted := (h.table.closeEntry elapsed i).sorted
  ids := by
    rw [List.length_modify, ← h.ids]
    apply map_modify_of_eq
    intro p
    rfl
  max := (h.table.closeEntry elapsed i).max
  current := (h.table.closeEntry elapsed i).current
  idle := h.idle
  entries := by
    rw [rows, rows_modify]
    exact entries_modify hpos h.entries i

theorem closeCurrentPstate_spec (h : TableOk ps) (hcur : ps.current ≠ -1) (time : ℚ) :
    Closed ps (closeCurrentPstate ps time) ((time - ps.timeEnter) * usecPerSec) := by
  generalize helapsed : (time - ps.timeEnter) * usecPerSec = elapsed
  by_cases hle : elapsed ≤ 0
  · have hsame : closeCurrentPstate ps time = ps := by simp [closeCurrentPstate, helapsed, hle]
    rw [hsame]
    exact ⟨id, h, rfl, fun _ => rfl, fun g => by simp [hle.not_gt], rfl, rfl⟩
  · have hpos : 0 < elapsed := not_le.mp hle
    have hclose : closeCurrentPstate ps time =
        { ps with pstate := ps.pstate.modify ps.current.toNat (·.close elapsed) } := by
      simp [closeCurrentPstate, helapsed, hle]
    have hrows : rows (closeCurrentPstate ps time) =
        (rows ps).modify ps.current.toNat (pushRow elapsed) := by
      rw [hclose]
      exact rows_modify _ _ _
    exact {
      ok := fun h => hclose ▸ h.closeEntry hpos _
      table := hclose ▸ h.closeEntry elapsed _
      current := by rw [hclose]
      freqAt := by
        intro i
        simp only [freqAt, ← List.getElem?_map, hrows, keys_modify]
      stats := by
        intro g
        have hlook := lookup_modify h.sorted.keys_nodup ps.current.toNat
          (f := pushRow elapsed) (fun _ => rfl) g
        have hrange := h.current
        have hnot : ¬ ps.current < 0 := by omega
        have hiff : (rows ps)[ps.current.toNat]?.map Prod.fst = some g ↔
            currentFreq ps = some g := by
          simp [currentFreq, PstateRecord.freqAt, hnot]
        rw [← hrows] at hlook
        simp only [statsOf, hlook, hiff, hpos, and_true]
        by_cases hg : currentFreq ps = some g
        · obtain ⟨r, hr, rfl⟩ := freqAt_mem hg
          simp [hg, lookup_mem h.sorted hr, pushRow]
        · simp [hg]
      idle := by rw [hclose]
      timeEnter := by rw [hclose] }

@[simp] theorem freqAt_with (ps : CpufreqPstates) (current idle : Int) (timeEnter : ℚ) (i : Int) :
    freqAt { ps with current := current, idle := idle, timeEnter := timeEnter } i =
      freqAt ps i := rfl

end Move

section Group

variable {ps : CpufreqPstates} {freq : Nat} {time : ℚ}

/-- The frequency a group should show: none if it is 0. -/
def shown (freq : Nat) : Option Nat :=
  if freq > 0 then some freq else none

/-- A new frequency whose place is the index that is current: the comparison of
`record_group_freq` takes it for the current one. -/
def Slips (ps : CpufreqPstates) (freq : Nat) : Prop :=
  0 < freq ∧ (∀ p ∈ ps.pstate, p.freq ≠ freq) ∧
    ps.current = (position CpufreqPstate.freq freq ps.pstate : Nat)

instance (ps : CpufreqPstates) (freq : Nat) : Decidable (Slips ps freq) := by
  unfold Slips
  infer_instance

theorem recordGroupFreq_same (h : TableOk ps) (hcur : currentFreq ps = shown freq)
    (time : ℚ) : recordGroupFreq ps time freq = ps := by
  unfold shown at hcur
  by_cases hpos : freq > 0
  · rw [if_pos hpos] at hcur
    obtain ⟨halloc, hcur⟩ := allocPstate_current h hcur
    have hindex : ps.current = (ps.current.toNat : Int) := by omega
    simp [recordGroupFreq, hpos, halloc, ← hindex]
  · rw [if_neg hpos] at hcur
    simp [recordGroupFreq, hpos, h.currentFreq_eq_none.mp hcur]

private theorem absent_rows (habsent : ∀ p ∈ ps.pstate, p.freq ≠ freq) :
    ∀ r ∈ rows ps, r.1 ≠ freq := by
  intro r hr
  obtain ⟨p, hp, rfl⟩ := List.mem_map.mp hr
  exact habsent p hp

/-- The slip is to take another frequency for the current one. -/
private theorem slips_iff (h : TableOk ps) (hpos : 0 < freq) :
    Slips ps freq ↔ ps.current = (allocPstate ps freq).2 ∧ currentFreq ps ≠ some freq := by
  rcases allocPstate_cases h freq with ⟨i, hfound, hi⟩ | ⟨ps', hnew, hins⟩
  · rw [hfound]
    constructor
    · rintro ⟨-, habsent, -⟩
      obtain ⟨r, hr, hfreq⟩ := freqAt_mem hi
      exact absurd hfreq (absent_rows habsent r hr)
    · rintro ⟨hsame, hne⟩
      exact absurd (by simpa [currentFreq, hsame] using hi) hne
  · rw [hnew, Slips, position_rows]
    constructor
    · rintro ⟨-, -, hposition⟩
      refine ⟨hposition, fun hcur => ?_⟩
      obtain ⟨r, hr, hfreq⟩ := freqAt_mem hcur
      exact hins.absent r hr hfreq
    · rintro ⟨hposition, -⟩
      exact ⟨hpos, fun p hp => hins.absent _ (List.mem_map_of_mem hp), hposition⟩

theorem Slips.currentFreq_ne (h : TableOk ps) (hslips : Slips ps freq) :
    currentFreq ps ≠ shown freq := by
  rw [show shown freq = some freq from if_pos hslips.1]
  exact ((slips_iff h hslips.1).mp hslips).2

/-- The branches of `record_group_freq`, with the frequencies before it. -/
inductive GroupBranch (ps : CpufreqPstates) (time : ℚ) (freq : Nat) : CpufreqPstates → Prop
  | unchanged (hsame : currentFreq ps = shown freq) : GroupBranch ps time freq ps
  | slipped (hslips : Slips ps freq) : GroupBranch ps time freq (allocPstate ps freq).1
  | opened (hnot : ¬ Slips ps freq) (hpos : 0 < freq) (hnone : currentFreq ps = none) :
      GroupBranch ps time freq
        (openNextPstate (allocPstate ps freq).1 (allocPstate ps freq).2 time)
  | moved {g : Nat} (hnot : ¬ Slips ps freq) (hpos : 0 < freq) (hcur : currentFreq ps = some g)
      (hne : g ≠ freq) :
      GroupBranch ps time freq
        (openCurrentPstate { closeCurrentPstate (allocPstate ps freq).1 time with
          current := (allocPstate ps freq).2 } time)
  | stopped {g : Nat} (hzero : freq = 0) (hcur : currentFreq ps = some g) :
      GroupBranch ps time freq { closeCurrentPstate ps time with current := -1 }

private theorem recordGroupFreq_pos (h : TableOk ps) (hpos : 0 < freq)
    (hindex : ps.current ≠ (allocPstate ps freq).2) (time : ℚ) :
    GroupBranch ps time freq (recordGroupFreq ps time freq) := by
  have hnot : ¬ Slips ps freq := fun hslips => hindex ((slips_iff h hpos).mp hslips).1
  have hentry : ((allocPstate ps freq).2 : Int) ≠ -1 := by omega
  by_cases hcur : ps.current = -1
  · have hrecord : recordGroupFreq ps time freq =
        openNextPstate (allocPstate ps freq).1 (allocPstate ps freq).2 time := by
      simp only [recordGroupFreq, gt_iff_lt, hpos, if_true, if_false, hcur, hentry, hentry.symm]
    rw [hrecord]
    exact .opened hnot hpos (h.currentFreq_eq_none.mpr hcur)
  · have hrecord : recordGroupFreq ps time freq =
        openCurrentPstate { closeCurrentPstate (allocPstate ps freq).1 time with
          current := (allocPstate ps freq).2 } time := by
      simp only [recordGroupFreq, gt_iff_lt, hpos, if_true, hindex, if_false, hcur, hentry]
    obtain ⟨g, hg⟩ := Option.ne_none_iff_exists'.mp (h.currentFreq_eq_none.not.mpr hcur)
    have hne : g ≠ freq := by
      intro heq
      have hfound := allocPstate_current h (heq ▸ hg)
      apply hindex
      rw [hfound.1]
      exact (Int.toNat_of_nonneg hfound.2).symm
    rw [hrecord]
    exact .moved hnot hpos hg hne

theorem recordGroupFreq_cases (h : TableOk ps) (freq : Nat) (time : ℚ) :
    GroupBranch ps time freq (recordGroupFreq ps time freq) := by
  by_cases hsame : currentFreq ps = shown freq
  · rw [recordGroupFreq_same h hsame]
    exact .unchanged hsame
  · by_cases hpos : 0 < freq
    · by_cases hindex : ps.current = (allocPstate ps freq).2
      · have hrecord : recordGroupFreq ps time freq = (allocPstate ps freq).1 := by
          simp [recordGroupFreq, hpos, hindex]
        rw [hrecord]
        apply GroupBranch.slipped
        apply (slips_iff h hpos).mpr
        exact ⟨hindex, fun heq => hsame (heq.trans (if_pos hpos).symm)⟩
      · exact recordGroupFreq_pos h hpos hindex time
    · have hzero : freq = 0 := by omega
      have hsome : currentFreq ps ≠ none := fun hnone => hsame (hnone.trans (if_neg hpos).symm)
      have hcur : ps.current ≠ -1 := h.currentFreq_eq_none.not.mp hsome
      have hrecord : recordGroupFreq ps time freq =
          { closeCurrentPstate ps time with current := -1 } := by
        simp only [recordGroupFreq, gt_iff_lt, hpos, if_false, hcur, if_true]
      obtain ⟨g, hg⟩ := Option.ne_none_iff_exists'.mp hsome
      rw [hrecord]
      exact .stopped hzero hg

structure GroupRecorded (ps ps' : CpufreqPstates) (freq : Nat) : Prop where
  ok : PstatesOk ps'
  currentFreq : currentFreq ps' = if Slips ps freq then currentFreq ps else shown freq

theorem recordGroupFreq_spec (h : PstatesOk ps) (freq : Nat) (time : ℚ) :
    GroupRecorded ps (recordGroupFreq ps time freq) freq := by
  have halloc := allocPstate_spec h.table freq
  have hindex := Option.isSome_of_mem halloc.index
  have hbranch := recordGroupFreq_cases h.table freq time
  generalize recordGroupFreq ps time freq = recorded at hbranch
  cases hbranch with
  | unchanged hsame =>
    refine ⟨h, ?_⟩
    rw [← hsame, ite_self]
  | slipped hslips => exact ⟨halloc.ok h, by rw [halloc.currentFreq, if_pos hslips]⟩
  | opened hnot hpos hnone =>
    have hok := halloc.ok h
    refine ⟨hok.move (.inr hindex) hok.idle, ?_⟩
    rw [if_neg hnot, shown, if_pos hpos]
    exact halloc.index
  | moved hnot hpos hcur hne =>
    have hcur : (allocPstate ps freq).1.current ≠ -1 := by
      rw [Ne, ← halloc.table.currentFreq_eq_none, halloc.currentFreq, hcur]
      exact Option.some_ne_none _
    have hclosed := closeCurrentPstate_spec halloc.table hcur time
    have hok := hclosed.ok (halloc.ok h)
    refine ⟨hok.move (.inr ?_) hok.idle, ?_⟩
    · rwa [hclosed.freqAt]
    · rw [if_neg hnot, shown, if_pos hpos]
      exact (hclosed.freqAt _).trans halloc.index
  | stopped hzero hcur =>
    have hcur : ps.current ≠ -1 := by
      rw [Ne, ← h.table.currentFreq_eq_none, hcur]
      exact Option.some_ne_none _
    have hclosed := closeCurrentPstate_spec h.table hcur time
    have hok := hclosed.ok h
    refine ⟨hok.move (.inl rfl) hok.idle, ?_⟩
    have hnot : ¬ Slips ps freq := fun hslips => by have := hslips.1; omega
    rw [if_neg hnot, shown, if_neg (by omega)]
    exact freqAt_of_neg (show (-1 : Int) < 0 by decide)

end Group

end Idlestat.Theory.PstateRecord
