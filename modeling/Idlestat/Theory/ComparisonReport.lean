import Idlestat.Library.Runs
import Idlestat.Model.TopologyDump

/-! The protocol between a display loop and the callbacks of the comparison
report. The pending baseline entry is used up in the same turn it is handed
over, so the loop prints one row for each entry with hits on either side. -/
namespace Idlestat.Theory.ComparisonReport

open Idlestat.Model.Topology Idlestat.Model.Cstates Idlestat.Model.Pstates
  Idlestat.Model.Loaders Idlestat.Model.Report Idlestat.Model.Baseline
  Idlestat.Model.TopologyDump

section Protocol

variable {α Row : Type} (row : α → α → Row) (empty : α) (alone : α → α) (hits : α → Nat)
  (cpu : List Char)

def compareOps : ReportOps α (CompareReportData α Row) :=
  { cpuHeader := fun cpu rdata => { rdata with printed := rdata.printed ++ [.cpu cpu] }
    baseline := some fun b => compareSetBaseline row empty alone (some b)
    single := fun c => compareSingle row empty alone (some c)
    endCpu := compareSetBaseline row empty alone none }

/-- Hits in the main trace or in the baseline. -/
def Hit (entry : α × Option α) : Prop :=
  hits entry.1 ≠ 0 ∨ ∃ b, entry.2 = some b ∧ hits b ≠ 0

instance (entry : α × Option α) : Decidable (Hit hits entry) :=
  decidable_of_iff (hits entry.1 ≠ 0 ∨ (entry.2.map hits).getD 0 ≠ 0) (by
    cases hb : entry.2 <;> simp [Hit, hb])

def entryRow (entry : α × Option α) : Row :=
  row entry.1 (entry.2.getD empty)

def objectLines (rows : List Row) : List (ReportLine Row) :=
  if rows = [] then [] else .cpu cpu :: rows.map .row

def rowsOf (lines : List (ReportLine Row)) : List Row :=
  lines.filterMap fun
    | .row row => some row
    | .cpu _ => none

variable {row empty alone hits cpu} {printed : List (ReportLine Row)} {header : Bool}
  {entry : α × Option α}

@[simp] theorem rowsOf_append (first second : List (ReportLine Row)) :
    rowsOf (first ++ second) = rowsOf first ++ rowsOf second :=
  List.filterMap_append

@[simp] theorem rowsOf_objectLines (rows : List Row) : rowsOf (objectLines cpu rows) = rows := by
  unfold objectLines
  split
  · next hnil => rw [hnil]; rfl
  · simp [rowsOf, List.filterMap_map]

theorem not_hit_iff :
    ¬ Hit hits entry ↔ hits entry.1 = 0 ∧ (entry.2.map hits).getD 0 = 0 := by
  cases hb : entry.2 <;> simp [Hit, hb]

theorem displayState_quiet (hquiet : ¬ Hit hits entry) (rdata : CompareReportData α Row) :
    displayState (compareOps row empty alone) hits cpu (rdata, header) entry =
      .ok (rdata, header) :=
  if_pos (not_hit_iff.mp hquiet)

theorem displayState_hit (hhit : Hit hits entry) :
    displayState (compareOps row empty alone) hits cpu (⟨none, printed⟩, header) entry =
      .ok (⟨none, printed ++ (if header then [] else [.cpu cpu]) ++
        [.row (entryRow row empty entry)]⟩, true) := by
  have hnot := not_hit_iff.not.mp (not_not.mpr hhit)
  obtain ⟨c, b⟩ := entry
  unfold displayState
  rw [if_neg hnot]
  cases header <;> cases b <;>
    simp [compareOps, compareSetBaseline, compareSingle, entryRow, bind, Except.bind]

theorem displayLoop_eq (entries : List (α × Option α)) :
    entries.foldlM (displayState (compareOps row empty alone) hits cpu)
        (⟨none, printed⟩, header) =
      .ok (⟨none, printed ++
          if header then ((entries.filter (Hit hits ·)).map fun e => .row (entryRow row empty e))
          else objectLines cpu ((entries.filter (Hit hits ·)).map (entryRow row empty))⟩,
        header || !(entries.filter (Hit hits ·)).isEmpty) := by
  induction entries generalizing printed header with
  | nil => cases header <;> simp [objectLines, pure, Except.pure]
  | cons entry rest ih =>
    rw [List.foldlM_cons]
    by_cases hhit : Hit hits entry
    · rw [displayState_hit hhit]
      change rest.foldlM _ _ = _
      rw [ih]
      cases header <;> simp [hhit, objectLines, Function.comp_def]
    · rw [displayState_quiet hhit]
      change rest.foldlM _ _ = _
      rw [ih]
      simp [hhit]

theorem displayStates_eq (entries : List (α × Option α)) :
    displayStates (compareOps row empty alone) hits entries cpu ⟨none, printed⟩ =
      .ok ⟨none, printed ++
        objectLines cpu ((entries.filter (Hit hits ·)).map (entryRow row empty))⟩ := by
  unfold displayStates
  rw [displayLoop_eq]
  change (if (false || !(entries.filter (Hit hits ·)).isEmpty) = true then _ else _) = _
  split <;> rfl

end Protocol

section Dump

variable {α Row : Type} {lines : DumpCall → List (ReportLine Row)}
  {dump : DumpCall → CompareReportData α Row → Except Fault (CompareReportData α Row)}

theorem foldlM_dump {calls : List DumpCall} (h : ∀ call ∈ calls, ∀ printed,
      dump call ⟨none, printed⟩ = .ok ⟨none, printed ++ lines call⟩)
    (printed : List (ReportLine Row)) :
    calls.foldlM (fun reportData call => dump call reportData) ⟨none, printed⟩ =
      .ok ⟨none, printed ++ calls.flatMap lines⟩ := by
  induction calls generalizing printed with
  | nil => simp [pure, Except.pure]
  | cons call rest ih =>
    rw [List.foldlM_cons, h call List.mem_cons_self]
    change rest.foldlM _ _ = _
    rw [ih fun c hc => h c (List.mem_cons_of_mem _ hc), List.flatMap_cons, List.append_assoc]

theorem dumpCpuTopoInfo_eq {topo : List ClusterPair} {cstate : Bool}
    (h : ∀ call ∈ dumpCalls cstate topo, ∀ printed,
      dump call ⟨none, printed⟩ = .ok ⟨none, printed ++ lines call⟩) :
    dumpCpuTopoInfo dump compareAllocData topo cstate =
      .ok ⟨none, (dumpCalls cstate topo).flatMap lines⟩ :=
  foldlM_dump h []

end Dump

theorem comparisonCstateOps_eq : comparisonCstateOps =
    compareOps cstateRow callocCstate fun b => { callocCstate with name := b.name } := rfl

theorem comparisonPstateOps_eq : comparisonPstateOps =
    compareOps pstateRow emptyPstate fun b => { emptyPstate with freq := b.freq } := rfl

end Idlestat.Theory.ComparisonReport
