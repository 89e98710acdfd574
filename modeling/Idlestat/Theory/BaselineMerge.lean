import Idlestat.Model.Baseline
import Idlestat.Theory.LoadedTraces
import Idlestat.Theory.PstateInvariant

/-! `merge_pstates` on two loaded traces: it stays inside both arrays exactly
when the baseline has at least as many CPUs, and then every pair of per-CPU
tables is merged and nothing else changes. -/
namespace Idlestat.Theory.BaselineMerge

open Idlestat.Library Idlestat.Model.Topology Idlestat.Model.Pstates Idlestat.Model.Recorder
  Idlestat.Theory.PstateRecord Idlestat.Theory.PstateInvariant Idlestat.Theory.LoadedTraces

/-- The records of the CPUs below `n` from one table, the others from another. -/
def below (n : Int) (merged old : RecordRef → CpufreqPstates) : RecordRef → CpufreqPstates
  | .percpu cpu => if 0 ≤ cpu ∧ cpu < n then merged (.percpu cpu) else old (.percpu cpu)
  | .core physicalId coreId => old (.core physicalId coreId)
  | .cluster physicalId => old (.cluster physicalId)

def mergedMain (a b : RecordRef → CpufreqPstates) (ref : RecordRef) : CpufreqPstates :=
  (mergePstatesCpu (a ref) (b ref)).1

def mergedBase (a b : RecordRef → CpufreqPstates) (ref : RecordRef) : CpufreqPstates :=
  (mergePstatesCpu (a ref) (b ref)).2

def mergeBelow (n : Int) (datas baseline : CpuidleDatas) : CpuidleDatas × CpuidleDatas :=
  ({ datas with
      pstates := below n (mergedMain datas.pstates baseline.pstates) datas.pstates },
    { baseline with
      pstates := below n (mergedBase datas.pstates baseline.pstates) baseline.pstates })

def mergeCpu (both : CpuidleDatas × CpuidleDatas) (cpu : Nat) :
    Except Fault (CpuidleDatas × CpuidleDatas) := do
  let refA ← both.1.percpu cpu
  let refB ← both.2.percpu cpu
  let (a, b) := mergePstatesCpu (both.1.pstates refA) (both.2.pstates refB)
  .ok (both.1.setPstates refA a, both.2.setPstates refB b)

theorem mergePstates_eq_foldlM (datas baseline : CpuidleDatas) :
    mergePstates datas baseline =
      (List.range datas.nrcpus.toNat).foldlM mergeCpu (datas, baseline) := rfl

section Below

variable {merged old : RecordRef → CpufreqPstates} {n cpu : Int}

theorem below_percpu (h : 0 ≤ cpu ∧ cpu < n) :
    below n merged old (.percpu cpu) = merged (.percpu cpu) :=
  if_pos h

theorem below_past (h : n ≤ cpu) : below n merged old (.percpu cpu) = old (.percpu cpu) :=
  if_neg fun hrange => absurd hrange.2 (by omega)

/-- Where merging changes nothing it does not matter how far it goes. -/
theorem below_of_eq
    (h : ∀ cpu, 0 ≤ cpu → cpu < n → merged (.percpu cpu) = old (.percpu cpu)) :
    below n merged old = old := by
  funext ref
  cases ref with
  | percpu cpu =>
    by_cases hrange : 0 ≤ cpu ∧ cpu < n
    · rw [below_percpu hrange, h cpu hrange.1 hrange.2]
    · exact if_neg hrange
  | core physicalId coreId => rfl
  | cluster physicalId => rfl

theorem below_zero : below 0 merged old = old :=
  below_of_eq fun _ hnonneg hlt => absurd hlt (not_lt.mpr hnonneg)

theorem update_below (hn : 0 ≤ n) :
    Function.update (below n merged old) (.percpu n) (merged (.percpu n)) =
      below (n + 1) merged old := by
  funext ref
  by_cases href : ref = .percpu n
  · rw [href, Function.update_self, below_percpu (by omega)]
  · rw [Function.update_of_ne href]
    cases ref with
    | percpu cpu =>
      have hne : cpu ≠ n := fun heq => href (heq ▸ rfl)
      have hiff : (0 ≤ cpu ∧ cpu < n) ↔ (0 ≤ cpu ∧ cpu < n + 1) := by omega
      simp only [below, hiff]
    | core physicalId coreId => rfl
    | cluster physicalId => rfl

end Below

section Merge

variable {datas baseline : CpuidleDatas}

theorem mergeCpu_below {n : Nat} (hmain : (n : Int) < datas.nrcpus)
    (hbase : (n : Int) < baseline.nrcpus) :
    mergeCpu (mergeBelow n datas baseline) n = .ok (mergeBelow (n + 1) datas baseline) := by
  have hrefA : (mergeBelow n datas baseline).1.percpu n = .ok (.percpu n) := by
    simp [CpuidleDatas.percpu, mergeBelow, hmain]
  have hrefB : (mergeBelow n datas baseline).2.percpu n = .ok (.percpu n) := by
    simp [CpuidleDatas.percpu, mergeBelow, hbase]
  have hold : ∀ merged old, below n merged old (.percpu n) = old (.percpu n) := fun _ _ =>
    below_past le_rfl
  have hnew : ∀ merged old, Function.update (below n merged old) (.percpu n)
      (merged (.percpu n)) = below (n + 1) merged old := fun _ _ => update_below (by omega)
  simp only [mergeCpu, hrefA, hrefB, bind, Except.bind]
  simp only [mergeBelow, hold, CpuidleDatas.setPstates, ← hnew]
  rfl

theorem foldlM_mergeCpu {n : Nat} (hmain : (n : Int) ≤ datas.nrcpus)
    (hbase : (n : Int) ≤ baseline.nrcpus) :
    (List.range n).foldlM mergeCpu (datas, baseline) = .ok (mergeBelow n datas baseline) := by
  induction n with
  | zero =>
    simp only [mergeBelow, Nat.cast_zero, below_zero]
    rfl
  | succ n ih =>
    have hround : mergeCpu (mergeBelow n datas baseline) n =
        .ok (mergeBelow (n + 1) datas baseline) := mergeCpu_below (by omega) (by omega)
    rw [List.range_succ, List.foldlM_append, ih (by omega) (by omega)]
    simp only [bind, Except.bind, List.foldlM_cons, List.foldlM_nil, hround, pure, Except.pure,
      Nat.cast_add, Nat.cast_one]

theorem mergePstates_eq (hnonneg : 0 ≤ datas.nrcpus) (hle : datas.nrcpus ≤ baseline.nrcpus) :
    mergePstates datas baseline = .ok (mergeBelow datas.nrcpus datas baseline) := by
  have hsize : ((datas.nrcpus.toNat : Nat) : Int) = datas.nrcpus := Int.toNat_of_nonneg hnonneg
  rw [mergePstates_eq_foldlM, foldlM_mergeCpu (by omega) (by omega), hsize]

/-- A longer main array is indexed past the end of the baseline's. -/
theorem le_of_mergePstates (hbase : 0 ≤ baseline.nrcpus)
    {both : CpuidleDatas × CpuidleDatas} (h : mergePstates datas baseline = .ok both) :
    datas.nrcpus ≤ baseline.nrcpus := by
  by_contra hlong
  obtain ⟨n, hn⟩ := Int.eq_ofNat_of_zero_le hbase
  obtain ⟨rest, hrange⟩ : ∃ rest, List.range datas.nrcpus.toNat = List.range n ++ n :: rest := by
    obtain ⟨k, hk⟩ : ∃ k, datas.nrcpus.toNat = n + (k + 1) :=
      ⟨datas.nrcpus.toNat - n - 1, by omega⟩
    refine ⟨(List.range k).map fun i => n + (i + 1), ?_⟩
    rw [hk, List.range_add, List.range_succ_eq_map]
    simp [Function.comp_def]
  have hrun : (List.range n).foldlM mergeCpu (datas, baseline) =
      .ok (mergeBelow n datas baseline) := foldlM_mergeCpu (by omega) (by omega)
  have hout : (mergeBelow n datas baseline).2.percpu n = .error .outOfBounds := by
    simp [CpuidleDatas.percpu, mergeBelow, hn]
  have hstop : mergeCpu (mergeBelow n datas baseline) n = .error .outOfBounds := by
    have hin : (mergeBelow n datas baseline).1.percpu n = .ok (.percpu n) := by
      simp only [CpuidleDatas.percpu, mergeBelow]
      exact if_pos (by omega)
    simp only [mergeCpu, hin, hout, bind, Except.bind]
  rw [mergePstates_eq_foldlM, hrange, List.foldlM_append, hrun] at h
  simp only [bind, Except.bind, List.foldlM_cons, hstop] at h
  cases h

theorem mergeBelow_tables (n : Int) (h : TablesOk datas) (hbase : TablesOk baseline) :
    TablesOk (mergeBelow n datas baseline).1 ∧ TablesOk (mergeBelow n datas baseline).2 := by
  have hboth : ∀ ref, PstatesOk (mergedMain datas.pstates baseline.pstates ref) ∧
      PstatesOk (mergedBase datas.pstates baseline.pstates ref) := fun ref =>
    mergePstatesCpu_ok (h ref) (hbase ref)
  have hbelow : ∀ {merged old : RecordRef → CpufreqPstates}, (∀ ref, PstatesOk (merged ref)) →
      (∀ ref, PstatesOk (old ref)) → ∀ ref, PstatesOk (below n merged old ref) := by
    intro merged old hmerged hold ref
    cases ref with
    | percpu cpu =>
      simp only [below]
      split
      · exact hmerged _
      · exact hold _
    | core physicalId coreId => exact hold _
    | cluster physicalId => exact hold _
  exact ⟨hbelow (fun ref => (hboth ref).1) h, hbelow (fun ref => (hboth ref).2) hbase⟩

end Merge

end Idlestat.Theory.BaselineMerge
