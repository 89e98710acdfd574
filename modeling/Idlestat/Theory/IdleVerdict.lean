import Idlestat.Theory.TraceEvents

/-! How `cstate_end` judges an idle period that ends: against the table of
target residencies, looking for a better state no deeper than the CPU has been. -/
namespace Idlestat.Theory.IdleVerdict

open Idlestat.Library Idlestat.Model.Topology Idlestat.Model.Cstates Idlestat.Model.Recorder
  Idlestat.Model.TraceLine Idlestat.Model.Loaders Idlestat.Theory.CstateRecord
  Idlestat.Theory.Nodes Idlestat.Theory.Setup Idlestat.Theory.RecorderSteps
  Idlestat.Theory.TraceEvents

def targets (r : CpuidleCstates) (i : Fin maxcstate) : Int :=
  (r.cstate i).targetResidency

def enter (cpu deepest : Int) : TraceEvent → Int
  | .power (.storeData _ state c) => if c = cpu then max deepest state else deepest
  | .power (.cpuChangePstate _ _ _) => deepest
  | .storeIrq _ _ _ => deepest

def deepest (cpu : Int) (events : List TraceEvent) : Int :=
  events.foldl (enter cpu) (-1)

/-- The verdict on a period of `d` microseconds in state `s` when the states up
to `limit` are considered. -/
def verdict (target : Fin maxcstate → Int) (limit : Int) (s : Fin maxcstate) (d : ℚ) :
    Residency :=
  if d < target s then .tooShort
  else if ∃ next : Fin maxcstate, (next : Int) = s + 1 ∧ (next : Int) ≤ limit ∧
      0 < target next ∧ (target next : ℚ) ≤ d then .tooLong
  else .asExpected

/-- The record is in state `s`, and at `time` has been for `d` microseconds. -/
structure Period (r : CpuidleCstates) (s : Fin maxcstate) (time d : ℚ) : Prop where
  current : r.currentCstate = s
  length : (time - openBegin r s) * usecPerSec = d

/-- The verdict, and the one counter it adds to. -/
structure Judged (r out : CpuidleCstates) (s : Fin maxcstate) (v : Residency) : Prop where
  verdict : out.actualResidency = v
  early : ∀ i, (out.cstate i).earlyWakings =
    (r.cstate i).earlyWakings + if i = s ∧ v = .tooShort then 1 else 0
  late : ∀ i, (out.cstate i).lateWakings =
    (r.cstate i).lateWakings + if i = s ∧ v = .tooLong then 1 else 0

section Record

variable {r : CpuidleCstates} {s : Fin maxcstate} {time d : ℚ}

theorem verdict_congr {target : Fin maxcstate → Int} {limit limit' : Int}
    (h : (s : Int) + 1 ≤ limit ↔ (s : Int) + 1 ≤ limit') :
    verdict target limit s d = verdict target limit' s d := by
  have hiff : ∀ next : Fin maxcstate,
      ((next : Int) = s + 1 ∧ (next : Int) ≤ limit ∧ 0 < target next ∧ (target next : ℚ) ≤ d) ↔
        (next : Int) = s + 1 ∧ (next : Int) ≤ limit' ∧ 0 < target next ∧
          (target next : ℚ) ≤ d := by
    intro next
    apply and_congr_right
    intro hnext
    rw [hnext, h]
  simp only [verdict, hiff]

theorem actualResidency_eq (hmax : r.cstateMax < maxcstate) :
    actualResidency r s d = .ok (verdict (targets r) r.cstateMax s d) := by
  have htarget : (r.cstate s).targetResidency = targets r s := rfl
  by_cases hshort : d < targets r s
  · simp only [actualResidency, verdict, htarget, hshort, if_true]
  · simp only [actualResidency, verdict, htarget, hshort, if_false]
    by_cases hnext : (s : Int) + 1 ≤ r.cstateMax
    · have hlt : s.val + 1 < maxcstate := by omega
      have hindex : cstateIndex ((s : Int) + 1) = .ok ⟨s.val + 1, hlt⟩ :=
        cstateIndex_fin ⟨s.val + 1, hlt⟩
      have hiff : (∃ next : Fin maxcstate, (next : Int) = s + 1 ∧ (next : Int) ≤ r.cstateMax ∧
          0 < targets r next ∧ (targets r next : ℚ) ≤ d) ↔
          (r.cstate ⟨s.val + 1, hlt⟩).targetResidency > 0 ∧
            d ≥ (r.cstate ⟨s.val + 1, hlt⟩).targetResidency := by
        constructor
        · intro h
          obtain ⟨next, heq, -, hpos, hle⟩ := h
          have hsame : next = ⟨s.val + 1, hlt⟩ := Fin.ext (by simp only; omega)
          subst hsame
          exact ⟨hpos, hle⟩
        · intro h
          exact ⟨⟨s.val + 1, hlt⟩, by simp, by simpa using hnext, h.1, h.2⟩
      simp only [hnext, if_true, hindex, bind, Except.bind, hiff]
    · have hnone : ¬ ∃ next : Fin maxcstate, (next : Int) = s + 1 ∧ (next : Int) ≤ r.cstateMax ∧
          0 < targets r next ∧ (targets r next : ℚ) ≤ d := by
        intro h
        obtain ⟨next, heq, hle, -⟩ := h
        omega
      simp only [hnext, if_false, hnone]

theorem cstateEnd_judged {top : Fin maxcstate → ℚ} (h : RecordOk top r) (hd : 0 < d)
    (hperiod : Period r s time d) :
    ∃ out, cstateEnd time r = .ok out ∧ Judged r out s (verdict (targets r) r.cstateMax s d) := by
  obtain ⟨slot, hslot, hbegin⟩ := h.openSlot_eq hperiod.current
  have hlength : (time - slot.beginTime) * usecPerSec = d := hbegin ▸ hperiod.length
  have hpos : ¬ time - slot.beginTime ≤ 0 := by
    intro hle
    have hnonpos := mul_nonpos_of_nonpos_of_nonneg hle usecPerSec_pos.le
    linarith
  have hresidency := actualResidency_eq (s := s) (d := d) h.cstateMax
  refine ⟨_, by simp only [cstateEnd, hperiod.current, cstateIndex_fin, hslot, hpos, hlength,
    hresidency, bind, Except.bind, if_false]; rfl, rfl, ?_, ?_⟩
  · intro i
    by_cases hi : i = s
    · subst hi
      simp only [setCstate_self, CpuidleCstate.commit, true_and]
      split <;> rfl
    · simp [hi, setCstate_of_ne]
  · intro i
    by_cases hi : i = s
    · subst hi
      simp only [setCstate_self, CpuidleCstate.commit, true_and]
      split <;> rfl
    · simp [hi, setCstate_of_ne]

end Record

section History

variable {start datas : CpuidleDatas} {events : List TraceEvent} {cpu : Int}

theorem deepest_concat (past : List TraceEvent) (event : TraceEvent) :
    deepest cpu (past ++ [event]) = enter cpu (deepest cpu past) event := by
  simp [deepest]

/-- `cstate_max` follows the states the CPU enters. -/
theorem cstateMax_step {datas' : CpuidleDatas} {event : TraceEvent}
    (h : ReadyOn start.topo start.nrcpus datas) (hvalid : ValidCall start.topo event)
    (hstep : traceStep datas event = .ok datas') :
    (datas'.cstates (.percpu cpu)).cstateMax =
      enter cpu (datas.cstates (.percpu cpu)).cstateMax event := by
  obtain ⟨top, hok⟩ := h.ready.cstates (.percpu cpu)
  have hlow : -1 ≤ (datas.cstates (.percpu cpu)).cstateMax := hok.current.1.trans hok.current.2
  cases event with
  | power event =>
    obtain ⟨phy, core, next, -, hnext, -, heffect⟩ := h.next hvalid
    obtain rfl : next = datas' := Except.ok.inj (hnext.symm.trans hstep)
    by_cases hcpu : cpu = event.cpu
    · cases heffect with
      | ignored hignored =>
        obtain rfl : cpu = _ := hcpu
        simp [enter, hignored.1, hlow]
      | stored hnot hstored =>
        obtain rfl : cpu = _ := hcpu
        obtain ⟨r, hrecord, -, hrecorded⟩ := recordCstateEvent_spec hok hvalid.1 _
        obtain rfl : r = _ := Except.ok.inj (hrecord.symm.trans hstored.atCpu)
        simp [enter, hrecorded.cstateMax]
      | changed => rfl
    · rw [(heffect.other hcpu).2]
      cases event with
      | storeData time state c =>
        have hne : c ≠ cpu := fun heq => hcpu heq.symm
        simp [enter, hne]
      | cpuChangePstate c freq time => rfl
  | storeIrq c irqid irqname =>
    obtain rfl := Except.ok.inj ((storeIrq_eq h hvalid).symm.trans hstep)
    by_cases hc : c = cpu
    · subst hc
      simp only [CpuidleDatas.setCstates, Function.update_self, enter, attributeIrq]
      split <;> rfl
    · have hne : RecordRef.percpu cpu ≠ .percpu c := fun heq => hc (RecordRef.percpu.inj heq).symm
      simp [CpuidleDatas.setCstates, hne, enter]

theorem cstateMax_eq_deepest (h : Loaded start)
    (hvalid : ∀ event ∈ events, ValidCall start.topo event)
    (hrun : Runs.run traceStep start events = .ok datas) (cpu : Int) :
    ReadyOn start.topo start.nrcpus datas ∧
      (datas.cstates (.percpu cpu)).cstateMax = deepest cpu events := by
  have halways : Runs.Always traceStep (fun past datas => ReadyOn start.topo start.nrcpus datas ∧
      (datas.cstates (.percpu cpu)).cstateMax = deepest cpu past) start events := by
    apply Runs.always_of_invariant
    · exact ⟨readyOn_of_loaded h, (h.started.cstates (.percpu cpu)).cstateMax⟩
    · intro past event rest state hsplit hinv
      have hevent := hvalid event (by simp [hsplit])
      obtain ⟨next, hstep, hready⟩ := traceStep_total hinv.1 hevent
      refine ⟨next, hstep, hready, ?_⟩
      rw [cstateMax_step hinv.1 hevent hstep, hinv.2, deepest_concat]
  exact halways events [] datas (List.append_nil _).symm hrun

end History

/-- Two idle periods of one length in one state, in any two runs over any two
machines, are judged alike if the CPUs have the same target residencies and
either both have been in a deeper state or neither has. -/
theorem idle_verdict {start start' : CpuidleDatas} (hstart : Loaded start)
    (hstart' : Loaded start') {events events' : List TraceEvent}
    (hvalid : ∀ event ∈ events, ValidCall start.topo event)
    (hvalid' : ∀ event ∈ events', ValidCall start'.topo event) {datas datas' : CpuidleDatas}
    (hrun : Runs.run traceStep start events = .ok datas)
    (hrun' : Runs.run traceStep start' events' = .ok datas') {cpu cpu' : Int}
    (htargets : targets (datas.cstates (.percpu cpu)) = targets (datas'.cstates (.percpu cpu')))
    {s : Fin maxcstate} {time time' d : ℚ} (hd : 0 < d)
    (hperiod : Period (datas.cstates (.percpu cpu)) s time d)
    (hperiod' : Period (datas'.cstates (.percpu cpu')) s time' d)
    (hdeepest : (s : Int) + 1 ≤ deepest cpu events ↔ (s : Int) + 1 ≤ deepest cpu' events') :
    ∃ out out', cstateEnd time (datas.cstates (.percpu cpu)) = .ok out ∧
      cstateEnd time' (datas'.cstates (.percpu cpu')) = .ok out' ∧
      Judged (datas.cstates (.percpu cpu)) out s
        (verdict (targets (datas.cstates (.percpu cpu))) (deepest cpu events) s d) ∧
      Judged (datas'.cstates (.percpu cpu')) out' s
        (verdict (targets (datas.cstates (.percpu cpu))) (deepest cpu events) s d) := by
  obtain ⟨hready, hmax⟩ := cstateMax_eq_deepest hstart hvalid hrun cpu
  obtain ⟨hready', hmax'⟩ := cstateMax_eq_deepest hstart' hvalid' hrun' cpu'
  obtain ⟨top, hok⟩ := hready.ready.cstates (.percpu cpu)
  obtain ⟨top', hok'⟩ := hready'.ready.cstates (.percpu cpu')
  obtain ⟨out, hend, hjudged⟩ := cstateEnd_judged hok hd hperiod
  obtain ⟨out', hend', hjudged'⟩ := cstateEnd_judged hok' hd hperiod'
  refine ⟨out, out', hend, hend', hmax ▸ hjudged, ?_⟩
  rw [htargets, verdict_congr hdeepest, ← hmax']
  exact hjudged'

/-- Two CPUs on which state `i` is worth entering for `i` microseconds. -/
def residencyDatas : CpuidleDatas :=
  machineDatas .sysfs 2 (fun _ i => { name := none, targetResidency := i.val }) pairInfos

theorem residencyDatas_loaded : Loaded residencyDatas :=
  machineDatas_loaded .sysfs _ pairInfos_machine

theorem cpuIds_residencyDatas : cpuIds residencyDatas.topo = [0, 1] := by
  decide +kernel

def shallowTrace : List TraceEvent :=
  [.power (.storeData 2 0 0)]

def deepTrace : List TraceEvent :=
  [.power (.storeData 0 1 0), .power (.storeData 1 (-1) 0), .power (.storeData 2 0 0)]

def deeperTrace : List TraceEvent :=
  [.power (.storeData 0 3 0), .power (.storeData 2 0 0)]

theorem traces_valid : ∀ events ∈ [shallowTrace, deepTrace, deeperTrace], ∀ event ∈ events,
    ValidCall residencyDatas.topo event := by
  simp [shallowTrace, deepTrace, deeperTrace, ValidCall, ValidEvent, cpuIds_residencyDatas,
    ValidState, maxcstate]

/-- The period of CPU 0 that is open: its state, since when, its targets, and how
the period is judged if it ends at 3 s. -/
def cpuPeriod (datas : CpuidleDatas) : Int × ℚ × List Int × Except Fault Residency :=
  let r := datas.cstates (.percpu 0)
  (r.currentCstate, openBegin r 0, List.ofFn (targets r),
    (cstateEnd 3 r).map CpuidleCstates.actualResidency)

theorem period_of_cpuPeriod {datas : CpuidleDatas} {residencies : List Int}
    {judged : Except Fault Residency} (h : cpuPeriod datas = (0, 2, residencies, judged)) :
    Period (datas.cstates (.percpu 0)) 0 3 1000000 ∧
      List.ofFn (targets (datas.cstates (.percpu 0))) = residencies ∧
      (cstateEnd 3 (datas.cstates (.percpu 0))).map CpuidleCstates.actualResidency = judged := by
  simp only [cpuPeriod, Prod.mk.injEq] at h
  obtain ⟨hcurrent, hbegin, htargets, hjudged⟩ := h
  refine ⟨⟨hcurrent, ?_⟩, htargets, hjudged⟩
  rw [hbegin]
  norm_num [usecPerSec]

theorem run_shallow : ∃ datas, Runs.run traceStep residencyDatas shallowTrace = .ok datas ∧
    cpuPeriod datas = (0, 2, (List.range 16).map Int.ofNat, .ok .asExpected) :=
  Runs.map_eq_ok (by decide +kernel)

theorem run_deep : ∃ datas, Runs.run traceStep residencyDatas deepTrace = .ok datas ∧
    cpuPeriod datas = (0, 2, (List.range 16).map Int.ofNat, .ok .tooLong) :=
  Runs.map_eq_ok (by decide +kernel)

theorem run_deeper : ∃ datas, Runs.run traceStep residencyDatas deeperTrace = .ok datas ∧
    cpuPeriod datas = (0, 2, (List.range 16).map Int.ofNat, .ok .tooLong) :=
  Runs.map_eq_ok (by decide +kernel)

theorem idle_verdict_deep :
    ∃ datas datas', Runs.run traceStep residencyDatas deepTrace = .ok datas ∧
      Runs.run traceStep residencyDatas deeperTrace = .ok datas' ∧
      ∃ out out', cstateEnd 3 (datas.cstates (.percpu 0)) = .ok out ∧
        cstateEnd 3 (datas'.cstates (.percpu 0)) = .ok out' ∧
        Judged (datas.cstates (.percpu 0)) out 0
          (verdict (targets (datas.cstates (.percpu 0))) (deepest 0 deepTrace) 0 1000000) ∧
        Judged (datas'.cstates (.percpu 0)) out' 0
          (verdict (targets (datas.cstates (.percpu 0))) (deepest 0 deepTrace) 0 1000000) := by
  obtain ⟨datas, hrun, hopen⟩ := run_deep
  obtain ⟨datas', hrun', hopen'⟩ := run_deeper
  obtain ⟨hperiod, htargets, -⟩ := period_of_cpuPeriod hopen
  obtain ⟨hperiod', htargets', -⟩ := period_of_cpuPeriod hopen'
  refine ⟨datas, datas', hrun, hrun', idle_verdict residencyDatas_loaded residencyDatas_loaded
    (traces_valid _ (by simp)) (traces_valid _ (by simp)) hrun hrun' ?_ (by norm_num) hperiod
    hperiod' (by decide)⟩
  exact List.ofFn_injective (htargets.trans htargets'.symm)

/-- A CPU that has not been in state 1 yet is not told that state 1 would have
been better, one that has is. -/
theorem idle_verdict_history :
    Loaded residencyDatas ∧ (∀ event ∈ shallowTrace, ValidCall residencyDatas.topo event) ∧
      (∀ event ∈ deepTrace, ValidCall residencyDatas.topo event) ∧
      0 ∈ cpuIds residencyDatas.topo ∧
      ∃ datas datas', Runs.run traceStep residencyDatas shallowTrace = .ok datas ∧
        Runs.run traceStep residencyDatas deepTrace = .ok datas' ∧
        targets (datas.cstates (.percpu 0)) = targets (datas'.cstates (.percpu 0)) ∧
        Period (datas.cstates (.percpu 0)) 0 3 1000000 ∧
        Period (datas'.cstates (.percpu 0)) 0 3 1000000 ∧
        ∃ out out', cstateEnd 3 (datas.cstates (.percpu 0)) = .ok out ∧
          cstateEnd 3 (datas'.cstates (.percpu 0)) = .ok out' ∧
          out.actualResidency = .asExpected ∧ out'.actualResidency = .tooLong := by
  obtain ⟨datas, hrun, hopen⟩ := run_shallow
  obtain ⟨datas', hrun', hopen'⟩ := run_deep
  obtain ⟨hperiod, htargets, hjudged⟩ := period_of_cpuPeriod hopen
  obtain ⟨hperiod', htargets', hjudged'⟩ := period_of_cpuPeriod hopen'
  obtain ⟨out, hend, hout⟩ := Runs.map_eq_ok hjudged
  obtain ⟨out', hend', hout'⟩ := Runs.map_eq_ok hjudged'
  exact ⟨residencyDatas_loaded, traces_valid _ (by simp), traces_valid _ (by simp),
    by simp [cpuIds_residencyDatas], datas, datas', hrun, hrun',
    List.ofFn_injective (htargets.trans htargets'.symm), hperiod, hperiod', out, out', hend, hend',
    hout, hout'⟩

end Idlestat.Theory.IdleVerdict
