import Idlestat.Theory.PstateAlloc
import Idlestat.Theory.PstateReport

/-! What `merge_pstates` makes of the frequency tables of two loaded traces:
both become the sorted union, and neither loses what it recorded. -/
namespace Idlestat.Theory.BaselineUnion

open Idlestat.Library Idlestat.Library.SortedKeys Idlestat.Library.RunningStats
  Idlestat.Model.Topology Idlestat.Model.Cstates Idlestat.Model.Pstates Idlestat.Model.Recorder
  Idlestat.Model.TraceFiles Idlestat.Theory.PstateRecord Idlestat.Theory.PstateInvariant
  Idlestat.Theory.PstateComparison Idlestat.Theory.LoadedTraces Idlestat.Theory.BaselineMerge
  Idlestat.Theory.BaselinePairing Idlestat.Theory.PstateReport Idlestat.Theory.PstateAlloc

/-- `ps` with an empty entry for each frequency that only `other` has. -/
structure Extended (ps other ps' : CpufreqPstates) : Prop where
  max : ps'.max = ps'.pstate.length
  sorted : (freqs ps').Pairwise (· < ·)
  union : ∀ freq, freq ∈ freqs ps' ↔ freq ∈ freqs ps ∨ freq ∈ freqs other
  kept : ∀ p ∈ ps.pstate, ∃ p' ∈ ps'.pstate, p'.freq = p.freq ∧ stats p' = stats p
  added : ∀ p' ∈ ps'.pstate, p'.freq ∉ freqs ps → p'.count = 0
  current : ps'.current = -1 ↔ ps.current = -1
  currentFreq : currentFreq ps' = currentFreq ps
  idle : ps'.idle = ps.idle
  timeEnter : ps'.timeEnter = ps.timeEnter

/-- Both tables are the union, and a second merge finds nothing to add. -/
structure Merged (a b a' b' : CpufreqPstates) : Prop where
  main : Extended a b a'
  base : Extended b a b'
  freqs : freqs a' = freqs b'
  again : mergePstatesCpu a' b' = (a', b')

structure MergedBelow (n : Int) (datas baseline main base : CpuidleDatas) : Prop where
  merged : ∀ cpu, 0 ≤ cpu → cpu < n →
    Merged (datas.pstates (.percpu cpu)) (baseline.pstates (.percpu cpu))
      (main.pstates (.percpu cpu)) (base.pstates (.percpu cpu))
  others : ∀ ref, (∀ cpu, 0 ≤ cpu → cpu < n → ref ≠ .percpu cpu) →
    main.pstates ref = datas.pstates ref ∧ base.pstates ref = baseline.pstates ref
  main : main = { datas with pstates := main.pstates }
  base : base = { baseline with pstates := base.pstates }

section Table

variable {ps : CpufreqPstates} {l : List CpufreqPstate}

def allocAll (ps : CpufreqPstates) (l : List CpufreqPstate) : CpufreqPstates :=
  l.foldl (fun ps p => (allocPstate ps p.freq).1) ps

theorem mergePstatesCpu_eq (a b : CpufreqPstates) :
    mergePstatesCpu a b =
      (allocAll a (allocAll b a.pstate).pstate, allocAll b a.pstate) := rfl

structure AllocKept (ps ps' : CpufreqPstates) : Prop where
  currentFreq : currentFreq ps' = currentFreq ps
  stats : ∀ freq, statsOf ps' freq = statsOf ps freq
  idle : ps'.idle = ps.idle
  timeEnter : ps'.timeEnter = ps.timeEnter

theorem allocAll_eq (ps : CpufreqPstates) (l : List CpufreqPstate) :
    allocAll ps l = allocFreqs ps (l.map CpufreqPstate.freq) := by
  rw [allocFreqs, List.foldl_map]
  rfl

theorem allocAll_kept (h : PstatesOk ps) (l : List CpufreqPstate) :
    PstatesOk (allocAll ps l) ∧ AllocKept ps (allocAll ps l) := by
  have hall := allAllocated (freqTable_of_tableOk h.table h.ids) (l.map CpufreqPstate.freq)
  rw [← allocAll_eq] at hall
  exact ⟨allocAll_ok h, hall.currentFreq, hall.stats, hall.idle, hall.timeEnter⟩

theorem allocAll_present (h : TableOk ps) (hall : ∀ p ∈ l, p.freq ∈ freqs ps) :
    allocAll ps l = ps := by
  induction l with
  | nil => rfl
  | cons p rest ih =>
    have hone := allocPstate_present h (hall p List.mem_cons_self)
    rw [allocAll, List.foldl_cons, hone]
    exact ih fun q hq => hall q (List.mem_cons_of_mem p hq)

theorem statsOf_absent {freq : Nat} (h : freq ∉ freqs ps) :
    statsOf ps freq = Running.empty dblMax :=
  statsOf_of_absent fun r hr hfreq => h (mem_freqs_rows.mpr ⟨r, hr, hfreq⟩)

theorem extended_allocAll (h : PstatesOk ps) {other : CpufreqPstates}
    (hunion : ∀ freq, freq ∈ l.map CpufreqPstate.freq ∨ freq ∈ freqs ps ↔
      freq ∈ freqs ps ∨ freq ∈ freqs other) : Extended ps other (allocAll ps l) := by
  obtain ⟨hok, hkept⟩ := allocAll_kept h l
  have hmem : ∀ freq, freq ∈ freqs (allocAll ps l) ↔ freq ∈ freqs ps ∨ freq ∈ freqs other :=
    fun freq => (mem_freqs_allocAll h).trans (hunion freq)
  constructor
  · exact hok.max
  · exact freqs_increasing hok.table
  · exact hmem
  · intro p hp
    have hfreq : p.freq ∈ freqs (allocAll ps l) :=
      (hmem p.freq).mpr (.inl (List.mem_map_of_mem hp))
    obtain ⟨p', hp', heq⟩ := List.mem_map.mp hfreq
    refine ⟨p', hp', heq, ?_⟩
    calc stats p' = statsOf (allocAll ps l) p'.freq := (statsOf_mem hok.table hp').symm
      _ = statsOf ps p.freq := by rw [hkept.stats, heq]
      _ = stats p := statsOf_mem h.table hp
  · intro p' hp' habsent
    have hempty : stats p' = Running.empty dblMax := by
      rw [← statsOf_mem hok.table hp', hkept.stats, statsOf_absent habsent]
    exact congrArg Running.count hempty
  · rw [← hok.table.currentFreq_eq_none, hkept.currentFreq, h.table.currentFreq_eq_none]
  · exact hkept.currentFreq
  · exact hkept.idle
  · exact hkept.timeEnter

end Table

theorem mergePstatesCpu_merged {a b : CpufreqPstates} (ha : PstatesOk a) (hb : PstatesOk b) :
    Merged a b (mergePstatesCpu a b).1 (mergePstatesCpu a b).2 := by
  have hbase : Extended b a (mergePstatesCpu a b).2 := by
    apply extended_allocAll hb
    intro freq
    exact or_comm
  have hmain : Extended a b (mergePstatesCpu a b).1 := by
    apply extended_allocAll ha
    intro freq
    calc freq ∈ freqs (mergePstatesCpu a b).2 ∨ freq ∈ freqs a
      _ ↔ (freq ∈ freqs b ∨ freq ∈ freqs a) ∨ freq ∈ freqs a := by rw [hbase.union]
      _ ↔ freq ∈ freqs a ∨ freq ∈ freqs b := by tauto
  have hsame := freqs_mergePstatesCpu ha hb
  obtain ⟨hmainOk, hbaseOk⟩ := mergePstatesCpu_ok ha hb
  refine ⟨hmain, hbase, hsame, ?_⟩
  -- each table already has every frequency of the other
  have hbase' : allocAll (mergePstatesCpu a b).2 (mergePstatesCpu a b).1.pstate =
      (mergePstatesCpu a b).2 := by
    apply allocAll_present hbaseOk.table
    intro p hp
    rw [← hsame]
    exact List.mem_map_of_mem hp
  have hmain' : allocAll (mergePstatesCpu a b).1 (mergePstatesCpu a b).2.pstate =
      (mergePstatesCpu a b).1 := by
    apply allocAll_present hmainOk.table
    intro p hp
    rw [hsame]
    exact List.mem_map_of_mem hp
  rw [mergePstatesCpu_eq (mergePstatesCpu a b).1, hbase', hmain']

section Loop

variable {datas baseline : CpuidleDatas} {n : Int}

theorem below_of_notMem {merged old : RecordRef → CpufreqPstates} {ref : RecordRef}
    (h : ∀ cpu, 0 ≤ cpu → cpu < n → ref ≠ .percpu cpu) : below n merged old ref = old ref := by
  cases ref with
  | percpu cpu => exact if_neg fun hrange => h cpu hrange.1 hrange.2 rfl
  | core physicalId coreId => rfl
  | cluster physicalId => rfl

theorem mergeBelow_merged (h : TablesOk datas) (hbase : TablesOk baseline) :
    MergedBelow n datas baseline (mergeBelow n datas baseline).1
      (mergeBelow n datas baseline).2 := by
  constructor
  · intro cpu hnonneg hlt
    simp only [mergeBelow, below_percpu ⟨hnonneg, hlt⟩]
    exact mergePstatesCpu_merged (h _) (hbase _)
  · intro ref href
    exact ⟨below_of_notMem href, below_of_notMem href⟩
  · rfl
  · rfl

/-- Merging what is merged changes nothing. -/
theorem mergeBelow_again (h : TablesOk datas) (hbase : TablesOk baseline) :
    mergeBelow n (mergeBelow n datas baseline).1 (mergeBelow n datas baseline).2 =
      mergeBelow n datas baseline := by
  generalize hboth : mergeBelow n datas baseline = both
  have hmerged : MergedBelow n datas baseline both.1 both.2 := hboth ▸ mergeBelow_merged h hbase
  have hpair : ∀ cpu, 0 ≤ cpu → cpu < n →
      mergePstatesCpu (both.1.pstates (.percpu cpu)) (both.2.pstates (.percpu cpu)) =
        (both.1.pstates (.percpu cpu), both.2.pstates (.percpu cpu)) := fun cpu hnonneg hlt =>
    (hmerged.merged cpu hnonneg hlt).again
  have hmain : below n (mergedMain both.1.pstates both.2.pstates) both.1.pstates =
      both.1.pstates := by
    apply below_of_eq
    intro cpu hnonneg hlt
    rw [mergedMain, hpair cpu hnonneg hlt]
  have hother : below n (mergedBase both.1.pstates both.2.pstates) both.2.pstates =
      both.2.pstates := by
    apply below_of_eq
    intro cpu hnonneg hlt
    rw [mergedBase, hpair cpu hnonneg hlt]
  rw [mergeBelow, hmain, hother]

end Loop

/-- The merge goes through; the tables of the CPUs that both traces have are
merged, and merging again changes nothing. -/
def UnionMerged (datas baseline : CpuidleDatas) : Prop :=
  ∃ main base, mergePstates datas baseline = .ok (main, base) ∧
    MergedBelow (min datas.nrcpus baseline.nrcpus) datas baseline main base ∧
    mergePstates main base = .ok (main, base)

theorem unionMerged_of_le {datas baseline : CpuidleDatas} (hnonneg : 0 ≤ datas.nrcpus)
    (hle : datas.nrcpus ≤ baseline.nrcpus) (hmain : TablesOk datas) (hbase : TablesOk baseline) :
    UnionMerged datas baseline := by
  have hmin : min datas.nrcpus baseline.nrcpus = datas.nrcpus := min_eq_left hle
  refine ⟨(mergeBelow datas.nrcpus datas baseline).1, (mergeBelow datas.nrcpus datas baseline).2,
    mergePstates_eq hnonneg hle, ?_, ?_⟩
  · rw [hmin]
    exact mergeBelow_merged hmain hbase
  · -- the counts are those of the two traces, so the second call has the same bounds
    have hagain : mergePstates (mergeBelow datas.nrcpus datas baseline).1
        (mergeBelow datas.nrcpus datas baseline).2 =
          .ok (mergeBelow datas.nrcpus (mergeBelow datas.nrcpus datas baseline).1
            (mergeBelow datas.nrcpus datas baseline).2) := mergePstates_eq hnonneg hle
    exact hagain.trans (congrArg Except.ok (mergeBelow_again hmain hbase))

/-- For any two traces that have been loaded, the merge makes the union exactly
when the main trace has no more CPUs than the baseline: the loop runs over the
CPUs of the main trace and takes the record of each from the baseline's array. -/
theorem mergePstates_union (env baseEnv : Env) (ops baseOps : TraceOps)
    (text baseText : List Char) (datas baseline : CpuidleDatas)
    (hload : traceLoad env ops text = .ok (some datas))
    (hbase : traceLoad baseEnv baseOps baseText = .ok (some baseline)) :
    UnionMerged datas baseline ↔ datas.nrcpus ≤ baseline.nrcpus := by
  have hmain := traceLoad_loaded hload
  have hother := traceLoad_loaded hbase
  constructor
  · intro h
    obtain ⟨main, base, hmerge, -⟩ := h
    exact le_of_mergePstates hother.nrcpus hmerge
  · intro hle
    exact unionMerged_of_le hmain.nrcpus hle hmain.tables hother.tables

theorem slow_nrcpus : ∃ datas, traceLoad soloEnv .ftrace slowTrace = .ok (some datas) ∧
    datas.nrcpus = 1 :=
  exists_of_load CpuidleDatas.nrcpus (by decide +kernel)

theorem fast_nrcpus : ∃ datas, traceLoad soloEnv .ftrace fastTrace = .ok (some datas) ∧
    datas.nrcpus = 1 :=
  exists_of_load CpuidleDatas.nrcpus (by decide +kernel)

theorem full_nrcpus : ∃ datas, traceLoad (hostEnv fullInfos) .ftrace emptyTrace =
      .ok (some datas) ∧ datas.nrcpus = 3 :=
  exists_of_load CpuidleDatas.nrcpus (by decide +kernel)

/-- Two traces of one host that saw different frequencies. -/
theorem mergePstates_union_solo :
    ∃ datas baseline, traceLoad soloEnv .ftrace slowTrace = .ok (some datas) ∧
      traceLoad soloEnv .ftrace fastTrace = .ok (some baseline) ∧ UnionMerged datas baseline := by
  obtain ⟨datas, hload, hmain⟩ := slow_nrcpus
  obtain ⟨baseline, hbase, hother⟩ := fast_nrcpus
  refine ⟨datas, baseline, hload, hbase, ?_⟩
  apply (mergePstates_union _ _ _ _ _ _ _ _ hload hbase).mpr
  rw [hmain, hother]

/-- A main trace of three CPUs against a baseline of one: the second round indexes
the baseline's array past its end. -/
theorem mergePstates_overrun :
    ∃ datas baseline, traceLoad (hostEnv fullInfos) .ftrace emptyTrace = .ok (some datas) ∧
      traceLoad soloEnv .ftrace slowTrace = .ok (some baseline) ∧
      ¬ UnionMerged datas baseline := by
  obtain ⟨datas, hload, hmain⟩ := full_nrcpus
  obtain ⟨baseline, hbase, hother⟩ := slow_nrcpus
  refine ⟨datas, baseline, hload, hbase, ?_⟩
  intro h
  obtain ⟨main, base, hmerge, -⟩ := h
  have hle := le_of_mergePstates (traceLoad_loaded hbase).nrcpus hmerge
  omega

end Idlestat.Theory.BaselineUnion
