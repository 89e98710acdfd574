import Mathlib.Data.List.Forall2
import Mathlib.Data.List.Induction

/-! Finite runs of a partial step function, with one induction rule for
invariants and one for properties that hold along a run exactly when every
step meets a condition. -/
namespace Idlestat.Library.Runs

variable {State Event Error : Type*} (step : State → Event → Except Error State)

def run (start : State) : List Event → Except Error State
  | [] => .ok start
  | event :: rest => step start event >>= fun next => run next rest

/-- `P` holds in every state reached, with the events that led to it. -/
def Always (P : List Event → State → Prop) (start : State) (events : List Event) : Prop :=
  ∀ past rest state, events = past ++ rest → run step start past = .ok state → P past state

/-- `C` holds of every event and the state it arrives in. -/
def EveryStep (C : State → Event → Prop) (start : State) (events : List Event) : Prop :=
  ∀ past event rest state, events = past ++ event :: rest →
    run step start past = .ok state → C state event

variable {step}

theorem run_cons (start : State) (event : Event) (rest : List Event) :
    run step start (event :: rest) = step start event >>= fun next => run step next rest := rfl

theorem run_append (start : State) (first second : List Event) :
    run step start (first ++ second) =
      run step start first >>= fun middle => run step middle second := by
  induction first generalizing start with
  | nil => rfl
  | cons event rest ih =>
    rw [List.cons_append, run_cons, run_cons]
    cases step start event with
    | error e => rfl
    | ok next => exact ih next

theorem run_concat {start state : State} {past : List Event} {event : Event}
    (h : run step start past = .ok state) :
    run step start (past ++ [event]) = step state event := by
  rw [run_append, h]
  change (step state event >>= fun next => Except.ok next) = step state event
  cases step state event <;> rfl

theorem everyStep_cons {C : State → Event → Prop} {start : State} {event : Event}
    {rest : List Event} : EveryStep step C start (event :: rest) ↔
      C start event ∧ ∀ next, step start event = .ok next → EveryStep step C next rest := by
  constructor
  · intro h
    refine ⟨h [] event rest start rfl rfl, ?_⟩
    intro next hnext past later rest' state hsplit hrun
    refine h (event :: past) later rest' state (by rw [hsplit]; rfl) ?_
    rw [run_cons, hnext]
    exact hrun
  · rintro ⟨hfirst, hrest⟩ past later rest' state hsplit hrun
    cases past with
    | nil =>
      obtain ⟨rfl, rfl⟩ := List.cons.inj hsplit
      rwa [← Except.ok.inj hrun]
    | cons head past =>
      obtain ⟨rfl, htail⟩ := List.cons.inj hsplit
      rw [run_cons] at hrun
      cases hnext : step start event with
      | error e =>
        rw [hnext] at hrun
        cases hrun
      | ok next =>
        rw [hnext] at hrun
        exact hrest next hnext past later rest' state htail hrun

section Checked

variable {C : State → Event → Prop} [∀ state event, Decidable (C state event)]

variable (step C) in
def checkSteps (start : State) : List Event → Bool
  | [] => true
  | event :: rest =>
    decide (C start event) && (step start event).toOption.all fun next => checkSteps next rest

theorem checkSteps_iff {start : State} {events : List Event} :
    checkSteps step C start events = true ↔ EveryStep step C start events := by
  induction events generalizing start with
  | nil =>
    refine iff_of_true rfl ?_
    intro past event rest state hsplit
    simp at hsplit
  | cons event rest ih =>
    rw [everyStep_cons, checkSteps, Bool.and_eq_true, decide_eq_true_eq]
    refine and_congr_right fun _ => ?_
    cases step start event with
    | error e => simp [Except.toOption]
    | ok next => simp [Except.toOption, ih]

instance (start : State) (events : List Event) : Decidable (EveryStep step C start events) :=
  decidable_of_iff (checkSteps step C start events = true) checkSteps_iff

end Checked

theorem foldlM_eq_run (start : State) (events : List Event) :
    events.foldlM step start = run step start events := by
  induction events generalizing start with
  | nil => rfl
  | cons event rest ih =>
    rw [List.foldlM_cons, run_cons]
    cases step start event with
    | error e => rfl
    | ok next => exact ih next

theorem bind_eq_ok {α β : Type _} {first : Except Error α} {next : α → Except Error β} {b : β}
    (h : first >>= next = .ok b) : ∃ a, first = .ok a ∧ next a = .ok b := by
  cases first with
  | error e => cases h
  | ok a => exact ⟨a, rfl, h⟩

theorem foldlM_ok_of_mem {start final : State} {events : List Event} {event : Event}
    (h : events.foldlM step start = .ok final) (hevent : event ∈ events) :
    ∃ state next, step state event = .ok next := by
  obtain ⟨past, rest, rfl⟩ := List.append_of_mem hevent
  rw [foldlM_eq_run, run_append] at h
  obtain ⟨state, -, h⟩ := bind_eq_ok h
  obtain ⟨next, hnext, -⟩ := bind_eq_ok h
  exact ⟨state, next, hnext⟩

theorem foldlM_congr {other : State → Event → Except Error State} {start : State}
    {events : List Event} (h : ∀ event ∈ events, ∀ state, step state event = other state event) :
    events.foldlM step start = events.foldlM other start := by
  induction events generalizing start with
  | nil => rfl
  | cons event rest ih =>
    rw [List.foldlM_cons, List.foldlM_cons, h event List.mem_cons_self start]
    congr 1
    funext next
    exact ih fun later hlater => h later (List.mem_cons_of_mem event hlater)

theorem map_eq_ok {α β : Type _} {first : Except Error α} {f : α → β} {b : β}
    (h : first.map f = .ok b) : ∃ a, first = .ok a ∧ f a = b := by
  cases first with
  | error e => cases h
  | ok a => exact ⟨a, rfl, Except.ok.inj h⟩

theorem mapM_eq_ok_iff {α β : Type*} {f : α → Except Error β} {l : List α} {ys : List β} :
    l.mapM f = .ok ys ↔ List.Forall₂ (fun a b => f a = .ok b) l ys := by
  induction l generalizing ys with
  | nil => cases ys <;> simp [pure, Except.pure]
  | cons a rest ih =>
    rw [List.mapM_cons]
    cases ha : f a with
    | error e =>
      cases ys <;> simp [ha, bind, Except.bind]
    | ok b =>
      cases hrest : rest.mapM f with
      | error e =>
        cases ys with
        | nil => simp [bind, Except.bind]
        | cons y ys =>
          have hno : ¬ List.Forall₂ (fun a b => f a = .ok b) rest ys := by
            rw [← ih, hrest]
            simp
          simp [hno, bind, Except.bind]
      | ok bs =>
        cases ys with
        | nil => simp [bind, Except.bind, pure, Except.pure]
        | cons y ys =>
          have hiff : bs = ys ↔ List.Forall₂ (fun a b => f a = .ok b) rest ys := by
            rw [← ih, hrest, Except.ok.injEq]
          simp [ha, hiff, bind, Except.bind, pure, Except.pure]

theorem mapM_ok_of_mem {α β : Type*} {f : α → Except Error β} {l : List α} {ys : List β} {a : α}
    (h : l.mapM f = .ok ys) (ha : a ∈ l) : ∃ b, f a = .ok b := by
  have hall := mapM_eq_ok_iff.mp h
  clear h
  induction hall with
  | nil => cases ha
  | cons hfirst _ ih =>
    cases List.mem_cons.mp ha with
    | inl heq => exact ⟨_, heq ▸ hfirst⟩
    | inr hmem => exact ih hmem

theorem mapM_eq_ok_map {α β : Type*} {f : α → Except Error β} {g : α → β} {l : List α}
    (h : ∀ a ∈ l, f a = .ok (g a)) : l.mapM f = .ok (l.map g) := by
  rw [mapM_eq_ok_iff, List.forall₂_map_right_iff, List.forall₂_same]
  exact h

/-- One step that keeps an invariant and never fails gives whole runs that
keep it and never fail. The invariant may speak about the events so far. -/
theorem run_invariant (Inv : List Event → State → Prop) {start : State} {events : List Event}
    (hstart : Inv [] start)
    (hstep : ∀ past event rest state, events = past ++ event :: rest → Inv past state →
      ∃ next, step state event = .ok next ∧ Inv (past ++ [event]) next) :
    ∃ state, run step start events = .ok state ∧ Inv events state := by
  suffices h : ∀ past rest, events = past ++ rest →
      ∃ state, run step start past = .ok state ∧ Inv past state from
    h events [] (by simp)
  intro past
  induction past using List.reverseRecOn with
  | nil => exact fun _ _ => ⟨start, rfl, hstart⟩
  | append_singleton past event ih =>
    intro rest hsplit
    have hsplit' : events = past ++ event :: rest := by simpa using hsplit
    obtain ⟨state, hrun, hinv⟩ := ih (event :: rest) hsplit'
    obtain ⟨next, hnext, hinv'⟩ := hstep past event rest state hsplit' hinv
    exact ⟨next, (run_concat hrun).trans hnext, hinv'⟩

theorem always_of_invariant (Inv : List Event → State → Prop) {start : State}
    {events : List Event} (hstart : Inv [] start)
    (hstep : ∀ past event rest state, events = past ++ event :: rest → Inv past state →
      ∃ next, step state event = .ok next ∧ Inv (past ++ [event]) next) :
    Always step Inv start events := by
  intro past rest state hsplit hrun
  have hpast : ∃ state', run step start past = .ok state' ∧ Inv past state' :=
    run_invariant Inv hstart fun past' event rest' s heq =>
      hstep past' event (rest' ++ rest) s (by simp [hsplit, heq])
  obtain ⟨state', hrun', hinv⟩ := hpast
  rw [hrun] at hrun'
  exact Except.ok.inj hrun' ▸ hinv

theorem exists_of_run_concat {start next : State} {past : List Event} {event : Event}
    (h : run step start (past ++ [event]) = .ok next) :
    ∃ state, run step start past = .ok state ∧ step state event = .ok next := by
  rw [run_append] at h
  obtain ⟨state, hpast, -⟩ := bind_eq_ok h
  refine ⟨state, hpast, ?_⟩
  rw [← run_concat hpast, run_append]
  exact h

/-- Steps that may fail still keep an invariant in a run that succeeds. The
invariant may speak about the events so far. -/
theorem run_preserved (Inv : List Event → State → Prop) {start state : State}
    {events : List Event} (hstart : Inv [] start)
    (hstep : ∀ past event state next, run step start past = .ok state → Inv past state →
      step state event = .ok next → Inv (past ++ [event]) next)
    (h : run step start events = .ok state) : Inv events state := by
  induction events using List.reverseRecOn generalizing state with
  | nil => exact Except.ok.inj h ▸ hstart
  | append_singleton past event ih =>
    obtain ⟨middle, hpast, hlast⟩ := exists_of_run_concat h
    exact hstep past event middle state hpast (ih hpast) hlast

theorem always_of_preserved (Inv : State → Prop) {start : State} {events : List Event}
    (hstart : Inv start)
    (hstep : ∀ event state next, step state event = .ok next → Inv state → Inv next) :
    Always step (fun _ => Inv) start events := fun _ _ _ _ hrun =>
  run_preserved (fun _ => Inv) hstart
    (fun _ event state next _ hinv hnext => hstep event state next hnext hinv) hrun

/-- A property that one step keeps exactly under the condition `C` holds all
along a run exactly when every step of the run meets `C`. -/
theorem always_iff_everyStep (Inv P : List Event → State → Prop) (C : State → Event → Prop)
    {start : State} {events : List Event} (hstart : Inv [] start) (hP : P [] start)
    (hstep : ∀ past event rest state, events = past ++ event :: rest → Inv past state →
      ∃ next, step state event = .ok next ∧ Inv (past ++ [event]) next ∧
        (P past state → (P (past ++ [event]) next ↔ C state event))) :
    Always step P start events ↔ EveryStep step C start events := by
  have hinv : Always step Inv start events := always_of_invariant Inv hstart
    fun past event rest state hsplit h =>
      let ⟨next, hnext, hinv, _⟩ := hstep past event rest state hsplit h
      ⟨next, hnext, hinv⟩
  constructor
  · intro halways past event rest state hsplit hrun
    obtain ⟨next, hnext, -, hiff⟩ :=
      hstep past event rest state hsplit (hinv past _ state hsplit hrun)
    refine (hiff (halways past _ state hsplit hrun)).mp ?_
    exact halways (past ++ [event]) rest next (by simp [hsplit]) ((run_concat hrun).trans hnext)
  · intro hevery past
    induction past using List.reverseRecOn with
    | nil =>
      intro rest state _ hrun
      exact Except.ok.inj hrun ▸ hP
    | append_singleton past event ih =>
      intro rest next hsplit hrun
      have hsplit' : events = past ++ event :: rest := by simpa using hsplit
      cases hpast : run step start past with
      | error e =>
        rw [run_append, hpast] at hrun
        cases hrun
      | ok state =>
        obtain ⟨next', hnext, -, hiff⟩ :=
          hstep past event rest state hsplit' (hinv past _ state hsplit' hpast)
        rw [run_concat hpast, hnext] at hrun
        cases hrun
        exact (hiff (ih _ state hsplit' hpast)).mpr (hevery past event rest state hsplit' hpast)

section UntilFailure

variable (call : State → Event → Except Error (Int × State))

/-- One call after the other; one that does not return 0 is the last. -/
def untilFailure : List Event → State → Except Error (Int × State)
  | [], state => .ok (0, state)
  | event :: rest, state => do
    let (ret, state) ← call state event
    if ret ≠ 0 then .ok (ret, state) else untilFailure rest state

/-- The calls that are made, given which of them succeed. -/
def made (succeeds : Event → Bool) : List Event → List Event
  | [] => []
  | event :: rest => if succeeds event then event :: made succeeds rest else [event]

variable {call}

theorem made_of_succeeds {succeeds : Event → Bool} {events : List Event}
    (h : ∀ event ∈ events, succeeds event = true) : made succeeds events = events := by
  induction events with
  | nil => rfl
  | cons event rest ih =>
    rw [made, if_pos (h event List.mem_cons_self),
      ih fun later hlater => h later (List.mem_cons_of_mem event hlater)]

theorem mem_made_iff {succeeds : Event → Bool} {past rest : List Event} {event : Event}
    (hnot : event ∉ past) :
    event ∈ made succeeds (past ++ event :: rest) ↔
      ∀ earlier ∈ past, succeeds earlier = true := by
  induction past with
  | nil =>
    rw [List.nil_append, made]
    split <;> simp
  | cons first past ih =>
    rw [List.mem_cons, not_or] at hnot
    rw [List.cons_append, made]
    cases hfirst : succeeds first with
    | true => simp [hnot.1, ih hnot.2, hfirst]
    | false => simp [hnot.1, hfirst]

/-- What each call keeps, the last one included, holds when the calls end. The
invariant may speak about the calls so far, all of which have succeeded when
there is a next one. -/
theorem untilFailure_invariant (succeeds : Event → Bool) (Inv : List Event → State → Prop)
    {start : State} {events : List Event} (hstart : Inv [] start)
    (hcall : ∀ past event rest state, events = past ++ event :: rest →
      (∀ earlier ∈ past, succeeds earlier = true) → Inv past state →
      ∃ ret next, call state event = .ok (ret, next) ∧ (ret = 0 ↔ succeeds event = true) ∧
        Inv (past ++ [event]) next) :
    ∃ ret final, untilFailure call events start = .ok (ret, final) ∧
      (ret = 0 ↔ ∀ event ∈ events, succeeds event = true) ∧ Inv (made succeeds events) final := by
  suffices h : ∀ rest past state, events = past ++ rest →
      (∀ earlier ∈ past, succeeds earlier = true) → Inv past state →
      ∃ ret final, untilFailure call rest state = .ok (ret, final) ∧
        (ret = 0 ↔ ∀ event ∈ rest, succeeds event = true) ∧
        Inv (past ++ made succeeds rest) final from
    h events [] start rfl (by simp) hstart
  intro rest
  induction rest with
  | nil => exact fun past state _ _ hinv => ⟨0, state, rfl, by simp, by simpa [made] using hinv⟩
  | cons event rest ih =>
    intro past state hsplit hpast hinv
    obtain ⟨ret, next, hnext, hret, hinv'⟩ := hcall past event rest state hsplit hpast hinv
    cases hsucceeds : succeeds event with
    | true =>
      have hzero : ret = 0 := hret.mpr hsucceeds
      have hpast' : ∀ earlier ∈ past ++ [event], succeeds earlier = true := by
        simpa [or_imp, forall_and, hsucceeds] using hpast
      obtain ⟨ret', final, hfinal, hret', hinv''⟩ :=
        ih (past ++ [event]) next (by simp [hsplit]) hpast' hinv'
      refine ⟨ret', final, ?_, ?_, ?_⟩
      · simp only [untilFailure, hnext, hzero, ne_eq, not_true, if_false, bind, Except.bind]
        exact hfinal
      · simpa [hsucceeds] using hret'
      · simpa [made, hsucceeds] using hinv''
    | false =>
      have hne : ret ≠ 0 := fun hzero => by simp [hret.mp hzero] at hsucceeds
      refine ⟨ret, next, ?_, ?_, ?_⟩
      · simp only [untilFailure, hnext, ne_eq, hne, not_false_eq_true, if_true, bind, Except.bind]
      · simp [hne, hsucceeds]
      · simpa [made, hsucceeds] using hinv'

end UntilFailure

end Idlestat.Library.Runs
