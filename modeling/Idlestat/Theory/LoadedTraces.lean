import Idlestat.Theory.LoadedRecords
import Idlestat.Theory.RecorderSteps

/-! What is true of every trace that a loader has loaded to its end, whatever
the file said: the tree is the one `setup_topo_states` left, and every frequency
table is sorted. -/
namespace Idlestat.Theory.LoadedTraces

open Idlestat.Library Idlestat.Library.Scan Idlestat.Model.Topology
  Idlestat.Model.Cstates Idlestat.Model.Pstates
  Idlestat.Model.Recorder Idlestat.Model.TraceLine Idlestat.Model.TraceFiles
  Idlestat.Theory.TopologyTree Idlestat.Theory.Nodes Idlestat.Theory.PstateRecord
  Idlestat.Theory.RecorderSteps Idlestat.Theory.Setup Idlestat.Theory.RecordMapping
  Idlestat.Theory.LoadedRecords
open Idlestat.Model.Loaders hiding loadAndBuildCstateInfo

def TablesOk (datas : CpuidleDatas) : Prop :=
  ∀ ref, PstatesOk (datas.pstates ref)

/-- The number of CPUs and the tree stay, and the tables stay well formed. -/
structure Kept (datas datas' : CpuidleDatas) : Prop where
  nrcpus : datas'.nrcpus = datas.nrcpus
  topo : datas'.topo = datas.topo
  tables : TablesOk datas → TablesOk datas'

section Kept

variable {datas datas' : CpuidleDatas} {cpu : Int} {time : ℚ}

theorem Kept.refl (datas : CpuidleDatas) : Kept datas datas :=
  ⟨rfl, rfl, id⟩

theorem Kept.trans {datas'' : CpuidleDatas} (h : Kept datas datas') (h' : Kept datas' datas'') :
    Kept datas datas'' :=
  ⟨h'.nrcpus.trans h.nrcpus, h'.topo.trans h.topo, h'.tables ∘ h.tables⟩

theorem kept_setCstates (datas : CpuidleDatas) (ref : RecordRef)
    (cstates : CpuidleCstates) : Kept datas (datas.setCstates ref cstates) :=
  ⟨rfl, rfl, id⟩

theorem kept_setPstates {ref : RecordRef} {ps : CpufreqPstates}
    (hps : PstatesOk (datas.pstates ref) → PstatesOk ps) : Kept datas (datas.setPstates ref ps) :=
  ⟨rfl, rfl, fun h => update_all PstatesOk ref h (hps (h ref))⟩

/-! ## The handlers -/

theorem kept_group {ref : RecordRef} {freq : Nat} :
    Kept datas (datas.setPstates ref (recordGroupFreq (datas.pstates ref) time freq)) :=
  kept_setPstates fun h => (recordGroupFreq_spec h freq time).ok

theorem checkPstateComposite_kept (h : checkPstateComposite datas cpu time = .ok datas') :
    Kept datas datas' := by
  obtain ⟨core, -, h⟩ := Runs.bind_eq_ok h
  obtain ⟨freq, -, h⟩ := Runs.bind_eq_ok h
  obtain ⟨ref, -, h⟩ := Runs.bind_eq_ok h
  obtain ⟨clust, -, h⟩ := Runs.bind_eq_ok h
  obtain ⟨freq', -, h⟩ := Runs.bind_eq_ok h
  obtain ⟨ref', -, h⟩ := Runs.bind_eq_ok h
  rw [← Except.ok.inj h]
  exact kept_group.trans kept_group

theorem cpuPstateIdle_kept (h : cpuPstateIdle datas cpu time = .ok datas') :
    Kept datas datas' := by
  obtain ⟨ref, -, h⟩ := Runs.bind_eq_ok h
  have hidled : Kept datas (datas.setPstates ref (idled (datas.pstates ref) time)) :=
    kept_setPstates fun hps => (idled_spec hps time).ok
  exact hidled.trans (checkPstateComposite_kept h)

theorem cpuPstateRunning_kept (h : cpuPstateRunning datas cpu time = .ok datas') :
    Kept datas datas' := by
  obtain ⟨ref, -, h⟩ := Runs.bind_eq_ok h
  have hresumed : Kept datas (datas.setPstates ref (resumed (datas.pstates ref) time)) :=
    kept_setPstates fun hps => (resumed_spec hps time).ok
  exact hresumed.trans (checkPstateComposite_kept h)

theorem updatePstates_kept {pstate : List CpufreqPstate} {state : Int}
    (h : updatePstates datas pstate cpu state time = .ok datas') : Kept datas datas' := by
  unfold updatePstates at h
  split at h
  · rw [← Except.ok.inj h]
    exact Kept.refl datas
  · split at h
    · exact cpuPstateRunning_kept h
    · exact cpuPstateIdle_kept h

theorem recordGroupCstate_kept {cstates : Option RecordRef} {state : Int}
    (h : recordGroupCstate datas cstates time state = .ok datas') : Kept datas datas' := by
  obtain ⟨ref, -, h⟩ := Runs.bind_eq_ok h
  obtain ⟨recorded, -, h⟩ := Runs.bind_eq_ok h
  rw [← Except.ok.inj h]
  exact kept_setCstates datas ref recorded

theorem storeData_kept {state : Int} (h : storeData time state cpu datas = .ok datas') :
    Kept datas datas' := by
  obtain ⟨ref, -, h⟩ := Runs.bind_eq_ok h
  split at h
  · rw [← Except.ok.inj h]
    exact Kept.refl datas
  · obtain ⟨recorded, -, h⟩ := Runs.bind_eq_ok h
    obtain ⟨updated, hupdated, h⟩ := Runs.bind_eq_ok h
    obtain ⟨core, -, h⟩ := Runs.bind_eq_ok h
    obtain ⟨coreState, -, h⟩ := Runs.bind_eq_ok h
    obtain ⟨cored, hcored, h⟩ := Runs.bind_eq_ok h
    obtain ⟨clust, -, h⟩ := Runs.bind_eq_ok h
    obtain ⟨clusterState, -, h⟩ := Runs.bind_eq_ok h
    have hcpu := kept_setCstates datas ref recorded
    exact ((hcpu.trans (updatePstates_kept hupdated)).trans (recordGroupCstate_kept hcored)).trans
      (recordGroupCstate_kept h)

theorem getCurrentPstate_idle {cur : Int} {ref : RecordRef}
    (h : getCurrentPstate datas cpu = .ok (cur, some ref)) : cur = (datas.pstates ref).idle := by
  unfold getCurrentPstate at h
  split at h
  · cases h
  · obtain ⟨found, -, h⟩ := Runs.bind_eq_ok h
    obtain ⟨hcur, href⟩ := Prod.mk.inj (Except.ok.inj h)
    rw [← hcur, Option.some.inj href]

theorem cpuChangePstate_kept {freq : Nat} (h : cpuChangePstate datas cpu freq time = .ok datas') :
    Kept datas datas' := by
  obtain ⟨⟨cur, ps⟩, hcurrent, h⟩ := Runs.bind_eq_ok h
  obtain ⟨ref, href, h⟩ := Runs.bind_eq_ok h
  cases ps with
  | none => cases href
  | some found =>
    obtain rfl := Except.ok.inj href
    have hidle := getCurrentPstate_idle hcurrent
    have hchanged : Kept datas
        (datas.setPstates found (changed (datas.pstates found) freq time)) :=
      kept_setPstates fun hps => (changed_spec hps freq time).ok
    cases halloc : allocPstate (datas.pstates found) freq with
    | mk ps next =>
      simp only [halloc, hidle] at h
      simp only [changed, halloc] at hchanged
      by_cases hone : (datas.pstates found).idle = 1
      · simp only [hone, if_true] at h hchanged
        rw [← Except.ok.inj h]
        exact hchanged
      · by_cases hunknown : (datas.pstates found).idle = -1
        · simp only [hunknown, if_true] at h hchanged
          exact hchanged.trans (checkPstateComposite_kept h)
        · simp only [hone, hunknown, if_false] at h hchanged
          split at h
          · simp only [decide_eq_true_eq] at h
            exact hchanged.trans (checkPstateComposite_kept h)
          · cases h

theorem storeIrq_kept {irqid : Int} {irqname : List Char}
    (h : storeIrq cpu irqid irqname datas = .ok datas') : Kept datas datas' := by
  obtain ⟨ref, -, h⟩ := Runs.bind_eq_ok h
  rw [← Except.ok.inj h]
  exact kept_setCstates datas ref _

theorem getWakeupIrq_kept {buffer : List Char} {ret : Int}
    (h : getWakeupIrq datas buffer = .ok (ret, datas')) : Kept datas datas' := by
  unfold getWakeupIrq at h
  split at h
  · split at h
    · obtain ⟨next, hstore, h⟩ := Runs.bind_eq_ok h
      rw [← (Prod.mk.inj (Except.ok.inj h)).2]
      exact storeIrq_kept hstore
    · rw [← (Prod.mk.inj (Except.ok.inj h)).2]
      exact Kept.refl datas
  · split at h
    · split at h
      · obtain ⟨next, hstore, h⟩ := Runs.bind_eq_ok h
        rw [← (Prod.mk.inj (Except.ok.inj h)).2]
        exact storeIrq_kept hstore
      · rw [← (Prod.mk.inj (Except.ok.inj h)).2]
        exact Kept.refl datas
    · rw [← (Prod.mk.inj (Except.ok.inj h)).2]
      exact Kept.refl datas

theorem loadTextDataLine_kept {strtod : List Char → ℚ} {buffer : List Char}
    {format : List Directive} {span : LogSpan} {line : LineResult}
    (h : loadTextDataLine strtod buffer datas format span = .ok line) : Kept datas line.datas := by
  unfold loadTextDataLine at h
  split at h
  · split at h
    · obtain ⟨next, hstore, h⟩ := Runs.bind_eq_ok h
      rw [← Except.ok.inj h]
      exact storeData_kept hstore
    · rw [← Except.ok.inj h]
      exact Kept.refl datas
  · split at h
    · split at h
      · obtain ⟨next, hchange, h⟩ := Runs.bind_eq_ok h
        rw [← Except.ok.inj h]
        exact cpuChangePstate_kept hchange
      · rw [← Except.ok.inj h]
        exact Kept.refl datas
    · obtain ⟨⟨ret, next⟩, hwakeup, h⟩ := Runs.bind_eq_ok h
      rw [← Except.ok.inj h]
      exact getWakeupIrq_kept hwakeup

theorem lineStep_kept {env : Env} {ops : TraceOps} {state next : CpuidleDatas × LogSpan}
    {buffer : List Char} (h : lineStep env ops state buffer = .ok next) : Kept state.1 next.1 := by
  obtain ⟨line, hline, h⟩ := Runs.bind_eq_ok h
  rw [← Except.ok.inj h]
  exact loadTextDataLine_kept hline

end Kept

structure LoadedTrace (datas : CpuidleDatas) : Prop where
  pointed : Pointed datas.topo
  mapped : MappedBelow datas.nrcpus (cpuNodes datas.topo)
  nrcpus : 0 ≤ datas.nrcpus
  tables : TablesOk datas

theorem setupTopoStates_loaded {datas datas' : CpuidleDatas} (h : Prepared datas)
    (hsetup : setupTopoStates datas = .ok datas') : LoadedTrace datas' := by
  obtain ⟨hpointed, hmapped, -, hnrcpus, hpstates⟩ := setupTopoStates_ok h.wf hsetup
  have hsize : ((datas.nrcpus.toNat : Nat) : Int) = datas.nrcpus := Int.toNat_of_nonneg h.nrcpus
  refine ⟨hpointed, ?_, hnrcpus ▸ h.nrcpus, fun ref => ?_⟩
  · rw [hnrcpus, ← hsize]
    exact hmapped
  · rw [hpstates, h.pstates]
    exact buildPstateInfo_ok

theorem LoadedTrace.kept {datas datas' : CpuidleDatas} (h : LoadedTrace datas)
    (hkept : Kept datas datas') : LoadedTrace datas' where
  pointed := hkept.topo.symm ▸ h.pointed
  mapped := by
    rw [hkept.topo, hkept.nrcpus]
    exact h.mapped
  nrcpus := hkept.nrcpus.symm ▸ h.nrcpus
  tables := hkept.tables h.tables

/-- A load to the end: what the loader built, set up, and kept by every line. -/
theorem traceLoad_start {env : Env} {ops : TraceOps} {text : List Char} {datas : CpuidleDatas}
    (h : traceLoad env ops text = .ok (some datas)) :
    ∃ built start, Prepared built ∧ setupTopoStates built = .ok start ∧ Kept start datas := by
  obtain ⟨load, hload, h⟩ := Runs.bind_eq_ok h
  cases load with
  | none => cases h
  | some load =>
    obtain ⟨final, hlines, h⟩ := Runs.bind_eq_ok h
    obtain rfl := Option.some.inj (Except.ok.inj h)
    obtain ⟨start, hsetup, hlines⟩ := Runs.bind_eq_ok hlines
    obtain ⟨last, hfold, hlines⟩ := Runs.bind_eq_ok hlines
    rw [← Except.ok.inj hlines]
    rw [Runs.foldlM_eq_run] at hfold
    have halways : Runs.Always (lineStep env ops) (fun _ state => Kept start state.1)
        (start, { beginTime := 0, endTime := 0, start := 1 })
        (load.input.buf :: load.input.file) :=
      Runs.always_of_preserved (fun state => Kept start state.1) (Kept.refl start)
        fun _ _ _ hstep hkept => hkept.trans (lineStep_kept hstep)
    have hkept : Kept start last.1 := halways _ [] last (List.append_nil _).symm hfold
    exact ⟨load.datas, start, loadDatas_prepared hload, hsetup, hkept⟩

section Loaded

variable {env : Env} {ops : TraceOps} {text : List Char} {datas : CpuidleDatas}

theorem traceLoad_loaded (h : traceLoad env ops text = .ok (some datas)) : LoadedTrace datas := by
  obtain ⟨built, start, hprepared, hsetup, hkept⟩ := traceLoad_start h
  exact (setupTopoStates_loaded hprepared hsetup).kept hkept

theorem traceLoad_ownRecords (h : traceLoad env ops text = .ok (some datas))
    (hseparate : Separate datas) : OwnRecords datas := by
  obtain ⟨built, start, hprepared, hsetup, hkept⟩ := traceLoad_start h
  obtain ⟨-, -, hids, hnrcpus, -⟩ := setupTopoStates_ok hprepared.wf hsetup
  have hbuilt : Separate built := by
    constructor
    · rw [← hids, ← hkept.topo]
      exact hseparate.once
    · rw [← hids, ← hkept.topo, ← hnrcpus, ← hkept.nrcpus]
      exact hseparate.below
  obtain ⟨start', hsetup', hown⟩ := setup_ownRecords hprepared hbuilt
  obtain rfl : start' = start := Except.ok.inj (hsetup'.symm.trans hsetup)
  constructor
  · rw [hkept.topo, hkept.nrcpus]
    exact hown.cpu
  · rw [hkept.topo]
    exact hown.core
  · rw [hkept.topo]
    exact hown.cluster

end Loaded

theorem exists_of_load {β : Type} (shown : CpuidleDatas → β)
    {load : Except Fault (Option CpuidleDatas)} {b : β}
    (h : load.toOption.join.map shown = some b) :
    ∃ datas, load = .ok (some datas) ∧ shown datas = b := by
  match load, h with
  | .ok (some datas), h => exact ⟨datas, rfl, Option.some.inj h⟩

end Idlestat.Theory.LoadedTraces
