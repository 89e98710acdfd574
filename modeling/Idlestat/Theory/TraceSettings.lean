import Idlestat.Model.Trace

/-! Saved, changed, restored. Restoring switches events on and none off, so the
settings come back exactly when every event that the change has switched on was
on before. -/
namespace Idlestat.Theory.TraceSettings

open Idlestat.Library.Scan Idlestat.Model.Trace

variable {kernel : Kernel} {access : Access} {fs : Tracefs kernel}

section Files

variable {dir : Dir} {event : { event : Event // event ∈ kernel.events }} {file : File} {val : Int}

@[simp] theorem enabled_written_on : (written (.enable dir) 1 fs).enabled event =
    (dir.covers event.val || fs.enabled event) := by
  cases hcovers : dir.covers event.val <;> simp [written, hcovers]

@[simp] theorem enabled_written_off : (written (.enable dir) 0 fs).enabled event =
    (!dir.covers event.val && fs.enabled event) := by
  cases hcovers : dir.covers event.val <;> simp [written, hcovers]

@[simp] theorem bufferSize_written_enable :
    (written (.enable dir) val fs).bufferSize = fs.bufferSize := by
  simp only [written]
  split
  · rfl
  · rfl

@[simp] theorem enabled_written_size : (written .bufferSizeKb val fs).enabled = fs.enabled := by
  simp only [written]
  split
  · rfl
  · rfl

theorem bufferSize_written (h : kernel.accepts val = true) :
    (written .bufferSizeKb val fs).bufferSize = val := by
  simp [written, h]

theorem enableChar_eq_one : enableChar fs dir = '1' ↔
    ∀ event : { event : Event // event ∈ kernel.events },
      dir.covers event.val = true → fs.enabled event = true := by
  have hall :
      (kernel.events.attach.filter fun event => dir.covers event.val).all fs.enabled = true ↔
      ∀ event : { event : Event // event ∈ kernel.events },
        dir.covers event.val = true → fs.enabled event = true := by
    simp only [List.all_eq_true, List.mem_filter, List.mem_attach, true_and]
  rw [← hall]
  simp only [enableChar]
  constructor
  · intro h
    split at h
    · assumption
    · split at h
      · cases h
      · cases h
  · intro h
    rw [if_pos h]

theorem writeInt_ok (h : access.canWrite file = true) :
    writeInt access file val fs = (0, written file val fs) :=
  if_pos h

theorem writeInt_fail (h : access.canWrite file = false) :
    writeInt access file val fs = (-1, fs) :=
  if_neg (by simp [h])

theorem readInt_bufferSize (hread : access.canRead .bufferSizeKb = true) :
    readInt access .bufferSizeKb fs = some fs.bufferSize := by
  have hint : IsInt fs.bufferSize := kernel.acceptsInt _ fs.accepted
  have hscan : sscanf [.conv .d] (printInt fs.bufferSize ++ ['\n']) =
      ⟨[.int fs.bufferSize], false⟩ := by
    simp only [sscanf, read_d_int hint (show NoDigit ['\n'] by decide)]
  simp only [readInt, hread, if_true, content, hscan]

end Files

section Store

theorem mem_scanEntries {entries : List FtsEnt} {head list : List Dir}
    (h : scanEntries access fs entries head = some list) (dir : Dir) :
    dir ∈ list ↔ dir ∈ head ∨ .enable dir ∈ entries ∧ enableChar fs dir = '1' := by
  induction entries generalizing head with
  | nil =>
    obtain rfl := Option.some.inj h
    simp
  | cons entry rest ih =>
    cases entry with
    | err => cases h
    | other =>
      rw [ih h]
      simp
    | enable own =>
      simp only [scanEntries] at h
      split at h
      · cases h
      · next value hread =>
        have hvalue : value = enableChar fs own := by
          unfold readChar at hread
          split at hread
          · exact (Option.some.inj hread).symm
          · cases hread
        rw [ih h, hvalue]
        by_cases hone : enableChar fs own = '1'
        · by_cases hown : dir = own <;> simp [hone, hown]
        · by_cases hown : dir = own
          · simp [hone, hown]
          · simp [hone, hown]

theorem store_ok {entries : List FtsEnt} {options : TraceOptions}
    (h : idlestatStoreTraceOptions access fs (some entries) = some options) :
    options.bufferSize = fs.bufferSize ∧
      ∀ dir, dir ∈ options.list ↔ .enable dir ∈ entries ∧ enableChar fs dir = '1' := by
  simp only [idlestatStoreTraceOptions, eventsScan] at h
  split at h
  · cases h
  · next bufferSize hsize =>
    split at h
    · cases h
    · next list hscan =>
      obtain rfl := Option.some.inj h
      have hread : access.canRead .bufferSizeKb = true := by
        by_contra hnot
        simp [readInt, hnot] at hsize
      rw [readInt_bufferSize hread] at hsize
      refine ⟨(Option.some.inj hsize).symm, fun dir => ?_⟩
      rw [mem_scanEntries hscan]
      simp

/-- The directories saved cover exactly the events that are on. -/
theorem store_covers {entries : List FtsEnt} {options : TraceOptions}
    (hfts : ∀ event ∈ kernel.events, .enable (.event event) ∈ entries)
    (h : idlestatStoreTraceOptions access fs (some entries) = some options)
    (event : { event : Event // event ∈ kernel.events }) :
    options.list.any (·.covers event.val) = fs.enabled event := by
  obtain ⟨-, hlist⟩ := store_ok h
  apply Bool.eq_iff_iff.mpr
  rw [List.any_eq_true]
  constructor
  · intro hsome
    obtain ⟨dir, hdir, hcovers⟩ := hsome
    exact enableChar_eq_one.mp ((hlist dir).mp hdir).2 event hcovers
  · intro hon
    have hown : enableChar fs (.event event.val) = '1' := by
      apply enableChar_eq_one.mpr
      intro other hother
      have heq : other = event := Subtype.ext (by simpa [Dir.covers] using hother)
      rw [heq, hon]
    exact ⟨.event event.val, (hlist _).mpr ⟨hfts event.val event.property, hown⟩,
      by simp [Dir.covers]⟩

end Store

section Restore

theorem foldl_restoreEvent {list : List Dir} {problem : Int} {final : Tracefs kernel}
    (h : list.foldl (restoreEvent access) (problem, fs) = (0, final)) :
    problem = 0 ∧ final.bufferSize = fs.bufferSize ∧
      ∀ event, final.enabled event = (list.any (·.covers event.val) || fs.enabled event) := by
  induction list generalizing problem fs with
  | nil =>
    obtain ⟨rfl, rfl⟩ := Prod.mk.inj h
    simp
  | cons dir rest ih =>
    rw [List.foldl_cons] at h
    cases hwrite : access.canWrite (.enable dir) with
    | true =>
      have hstep : restoreEvent access (problem, fs) dir =
          (problem, written (.enable dir) 1 fs) := by
        simp [restoreEvent, writeInt_ok hwrite]
      rw [hstep] at h
      obtain ⟨hproblem, hsize, henabled⟩ := ih h
      refine ⟨hproblem, hsize.trans bufferSize_written_enable, fun event => ?_⟩
      rw [henabled, enabled_written_on, List.any_cons]
      cases dir.covers event.val <;> simp
    | false =>
      have hstep : restoreEvent access (problem, fs) dir = (-1, fs) := by
        simp [restoreEvent, writeInt_fail hwrite]
      rw [hstep] at h
      obtain ⟨hproblem, -⟩ := ih h
      cases hproblem

theorem restore_ok {options : TraceOptions} {final : Tracefs kernel}
    (haccepted : kernel.accepts options.bufferSize = true)
    (h : idlestatRestoreTraceOptions access options fs = (0, final)) :
    final.bufferSize = options.bufferSize ∧
      ∀ event, final.enabled event =
        (options.list.any (·.covers event.val) || fs.enabled event) := by
  unfold idlestatRestoreTraceOptions at h
  cases hwrite : access.canWrite .bufferSizeKb with
  | true =>
    simp only [writeInt_ok hwrite, ne_eq, not_true, if_false] at h
    obtain ⟨-, hsize, henabled⟩ := foldl_restoreEvent h
    rw [enabled_written_size] at henabled
    exact ⟨hsize.trans (bufferSize_written haccepted), henabled⟩
  | false =>
    simp only [writeInt_fail hwrite] at h
    obtain ⟨hproblem, -⟩ := foldl_restoreEvent h
    cases hproblem

end Restore

section Init

/-- Whether `idlestat_init_trace` gets as far as to disable all events. -/
def initDisables (access : Access) (fs : Tracefs kernel) : Bool :=
  access.canWrite .bufferSizeKb && (readInt access .bufferTotalSizeKb fs).isSome &&
    access.canWrite traceEventPath

/-- The events it then enables: one after the other up to the first failure. -/
def initEvents (access : Access) (fs : Tracefs kernel) : List Event :=
  if initDisables access fs then
    if access.canWrite traceCpuidleEventPath then
      if access.canWrite traceCpufreqEventPath then
        if access.canWrite traceIrqEventPath then
          if access.canWrite traceIpiEventPath then
            [cpuIdle, cpuFrequency, irqHandlerEntry, ipiEntry]
          else [cpuIdle, cpuFrequency, irqHandlerEntry]
        else [cpuIdle, cpuFrequency]
      else [cpuIdle]
    else []
  else []

/-- Exactly these events are on. -/
def EnabledAre (fs : Tracefs kernel) (events : List Event) : Prop :=
  ∀ event : { event : Event // event ∈ kernel.events },
    fs.enabled event = events.any (event.val = ·)

theorem off_written : EnabledAre (written traceEventPath 0 fs) [] := by
  intro event
  rw [traceEventPath, enabled_written_off]
  rfl

theorem on_written {events : List Event} {own : Event} (h : EnabledAre fs events) :
    EnabledAre (written (.enable (.event own)) 1 fs) (events ++ [own]) := by
  intro event
  rw [enabled_written_on, h, List.any_append, Bool.or_comm]
  simp [Dir.covers]

/-- Whatever it returns, these events are on, and no others unless it stopped early. -/
theorem enabled_initTrace (percpuBufsize : Nat) (fs : Tracefs kernel)
    (event : { event : Event // event ∈ kernel.events }) :
    (idlestatInitTrace access percpuBufsize fs).2.enabled event =
      if initDisables access fs then (initEvents access fs).any (event.val = ·)
      else fs.enabled event := by
  have htotal : ∀ fs' : Tracefs kernel, readInt access .bufferTotalSizeKb fs' =
      readInt access .bufferTotalSizeKb fs := fun _ => rfl
  unfold idlestatInitTrace
  cases hsize : access.canWrite .bufferSizeKb with
  | false => simp [initDisables, writeInt_fail hsize, hsize]
  | true =>
    cases hread : readInt access .bufferTotalSizeKb fs with
    | none => simp [initDisables, writeInt_ok hsize, htotal, hread]
    | some total =>
      cases hall : access.canWrite traceEventPath with
      | false => simp [initDisables, writeInt_ok hsize, htotal, hread, writeInt_fail hall, hall]
      | true =>
        have hdisables : initDisables access fs = true := by
          simp [initDisables, hsize, hread, hall]
        simp only [writeInt_ok hsize, htotal, hread, writeInt_ok hall, hdisables, initEvents,
          if_true]
        -- which of the four events can be opened
        cases hidle : access.canWrite traceCpuidleEventPath with
        | false =>
          simp only [writeInt_fail hidle]
          exact off_written event
        | true =>
          simp only [writeInt_ok hidle]
          cases hfreq : access.canWrite traceCpufreqEventPath with
          | false =>
            simp only [writeInt_fail hfreq]
            exact on_written off_written event
          | true =>
            simp only [writeInt_ok hfreq]
            cases hirq : access.canWrite traceIrqEventPath with
            | false =>
              simp only [writeInt_fail hirq]
              exact on_written (on_written off_written) event
            | true =>
              simp only [writeInt_ok hirq]
              cases hipi : access.canWrite traceIpiEventPath with
              | false =>
                simp only [writeInt_fail hipi]
                exact on_written (on_written (on_written off_written)) event
              | true =>
                simp only [writeInt_ok hipi]
                exact on_written (on_written (on_written (on_written off_written))) event

end Init

/-- If saving and restoring succeed, the settings are as before exactly when
every event that `idlestat_init_trace` has enabled in between was on before. -/
theorem settings_restored (kernel : Kernel) (storeAccess initAccess restoreAccess : Access)
    (entries : List FtsEnt) (percpuBufsize : Nat) (initial final : Tracefs kernel)
    (options : TraceOptions)
    (hfts : ∀ event ∈ kernel.events, .enable (.event event) ∈ entries)
    (hstore : idlestatStoreTraceOptions storeAccess initial (some entries) = some options)
    (hrestore : idlestatRestoreTraceOptions restoreAccess options
      (idlestatInitTrace initAccess percpuBufsize initial).2 = (0, final)) :
    final = initial ↔
      ∀ event : { event : Event // event ∈ kernel.events },
        event.val ∈ initEvents initAccess initial → initial.enabled event = true := by
  obtain ⟨hsaved, -⟩ := store_ok hstore
  have haccepted : kernel.accepts options.bufferSize = true := by
    rw [hsaved]
    exact initial.accepted
  obtain ⟨hsize, henabled⟩ := restore_ok haccepted hrestore
  have hfinal : ∀ event, final.enabled event = (initial.enabled event ||
      (idlestatInitTrace initAccess percpuBufsize initial).2.enabled event) := by
    intro event
    rw [henabled, store_covers hfts hstore]
  have hsame : final = initial ↔ ∀ event,
      (idlestatInitTrace initAccess percpuBufsize initial).2.enabled event = true →
        initial.enabled event = true := by
    constructor
    · intro heq event hon
      rw [← heq, hfinal, hon, Bool.or_true]
    · intro hon
      ext event
      · rw [hsize, hsaved]
      · rw [hfinal, Bool.or_eq_left_iff_imp.mpr (hon event)]
  rw [hsame]
  cases hdisables : initDisables initAccess initial with
  | true => simp [enabled_initTrace, hdisables]
  | false => simp [enabled_initTrace, hdisables, initEvents]

def fewEvents : Kernel :=
  { events := [cpuIdle, cpuFrequency, irqHandlerEntry, ⟨"sched", "sched_switch"⟩]
    accepts := fun size => 0 < size ∧ size < 100000
    acceptsInt := by
      intro size h
      simp only [decide_eq_true_eq] at h
      unfold IsInt intMax
      omega }

def fullAccess : Access :=
  { canRead := fun file => file ≠ traceIpiEventPath
    canWrite := fun file => file ≠ traceIpiEventPath
    total := "5640\n".toList }

def walk : List FtsEnt :=
  [.other, .enable .events, .enable (.group "power"), .enable (.event cpuIdle),
    .enable (.event cpuFrequency), .enable (.group "irq"), .enable (.event irqHandlerEntry),
    .enable (.group "sched"), .enable (.event ⟨"sched", "sched_switch"⟩)]

def settings (enabled : Event → Bool) : Tracefs fewEvents :=
  { bufferSize := 1408, enabled := fun event => enabled event.val, accepted := by decide }

def allButSched : Tracefs fewEvents :=
  settings fun event => event.group ≠ "sched"

def allOff : Tracefs fewEvents :=
  settings fun _ => false

theorem walk_complete : ∀ event ∈ fewEvents.events, .enable (.event event) ∈ walk := by
  simp [fewEvents, walk]

theorem eq_of_ret {result : Int × Tracefs kernel} (h : result.1 = 0) : result = (0, result.2) :=
  Prod.ext h rfl

theorem settings_restored_on :
    ∃ options final, idlestatStoreTraceOptions fullAccess allButSched (some walk) = some options ∧
      idlestatRestoreTraceOptions fullAccess options
        (idlestatInitTrace fullAccess 4096 allButSched).2 = (0, final) ∧
      (final = allButSched ↔
        ∀ event : { event : Event // event ∈ fewEvents.events },
          event.val ∈ initEvents fullAccess allButSched → allButSched.enabled event = true) := by
  have hstore : idlestatStoreTraceOptions fullAccess allButSched (some walk) =
      some { bufferSize := 1408
             list := [.event irqHandlerEntry, .group "irq", .event cpuFrequency, .event cpuIdle,
               .group "power"] } := by
    decide +kernel
  have hrestore := eq_of_ret (show (idlestatRestoreTraceOptions fullAccess
      { bufferSize := 1408
        list := [.event irqHandlerEntry, .group "irq", .event cpuFrequency, .event cpuIdle,
          .group "power"] } (idlestatInitTrace fullAccess 4096 allButSched).2).1 = 0 by
    decide +kernel)
  exact ⟨_, _, hstore, hrestore,
    settings_restored _ _ _ _ _ _ _ _ _ walk_complete hstore hrestore⟩

/-- With all events off before, three of them are left on. -/
theorem settings_not_restored :
    ∃ options final, idlestatStoreTraceOptions fullAccess allOff (some walk) = some options ∧
      idlestatRestoreTraceOptions fullAccess options
        (idlestatInitTrace fullAccess 4096 allOff).2 = (0, final) ∧
      final ≠ allOff := by
  have hstore : idlestatStoreTraceOptions fullAccess allOff (some walk) =
      some { bufferSize := 1408, list := [] } := by
    decide +kernel
  have hrestore := eq_of_ret (show (idlestatRestoreTraceOptions fullAccess
      { bufferSize := 1408, list := [] } (idlestatInitTrace fullAccess 4096 allOff).2).1 = 0 by
    decide +kernel)
  refine ⟨_, _, hstore, hrestore, ?_⟩
  intro hsame
  have hoff := congrArg (fun fs : Tracefs fewEvents =>
    fs.enabled ⟨cpuIdle, List.mem_cons_self⟩) hsame
  revert hoff
  decide +kernel

end Idlestat.Theory.TraceSettings
