import Idlestat.Library.Runs
import Mathlib.Data.List.Infix
import Mathlib.Data.Set.Basic

/-! Steps with a footprint, and traces made of independent parts. A step that
writes and reads in one region commutes with a step of a disjoint region, and
two traces with the same events of every class, in the same order, are runs to
the same state when events of different classes commute. -/
namespace Idlestat.Library.Interleaving

open Idlestat.Library

section Footprint

variable {State Error Loc Value : Type*} (view : State → Loc → Value)

def AgreeOn (region : Set Loc) (s t : State) : Prop :=
  ∀ l ∈ region, view s l = view t l

/-- From every state of `Inv` the step succeeds, keeps `Inv`, changes nothing
outside its region, and does to the region what the region alone determines. -/
structure Footprint (Inv : State → Prop) (step : State → Except Error State)
    (region : Set Loc) : Prop where
  total : ∀ s, Inv s → ∃ s', step s = .ok s' ∧ Inv s'
  frame : ∀ s s', Inv s → step s = .ok s' → ∀ l ∉ region, view s' l = view s l
  determined : ∀ s s' t t', Inv s → Inv t → AgreeOn view region s t → step s = .ok s' →
    step t = .ok t' → AgreeOn view region s' t'

variable {view} {Inv : State → Prop} {first second : State → Except Error State}
  {region other : Set Loc}

theorem Footprint.agreeOn (h : Footprint view Inv second other)
    (hdisjoint : ∀ l ∈ region, l ∉ other) {s s' : State} (hs : Inv s)
    (hstep : second s = .ok s') : AgreeOn view region s s' := by
  intro l hl
  exact (h.frame s s' hs hstep l (hdisjoint l hl)).symm

private theorem agreeOn_region (hf : Footprint view Inv first region)
    (hg : Footprint view Inv second other) (hdisjoint : ∀ l ∈ region, l ∉ other)
    {s s₁ s₂ s₁₂ s₂₁ : State} (hs : Inv s) (h₁ : first s = .ok s₁) (hinv₁ : Inv s₁)
    (h₂ : second s = .ok s₂) (hinv₂ : Inv s₂) (h₁₂ : second s₁ = .ok s₁₂)
    (h₂₁ : first s₂ = .ok s₂₁) : AgreeOn view region s₁₂ s₂₁ := by
  intro l hl
  have hsame : AgreeOn view region s₁ s₂₁ :=
    hf.determined s s₁ s₂ s₂₁ hs hinv₂ (hg.agreeOn hdisjoint hs h₂) h₁ h₂₁
  rw [← hsame l hl]
  exact hg.frame s₁ s₁₂ hinv₁ h₁₂ l (hdisjoint l hl)

/-- Steps of disjoint regions commute, when the view is all there is of a state. -/
theorem Footprint.commute
    (hview : ∀ s t, Inv s → Inv t → (∀ l, view s l = view t l) → s = t)
    (hf : Footprint view Inv first region) (hg : Footprint view Inv second other)
    (hdisjoint : ∀ l ∈ region, l ∉ other) {s : State} (hs : Inv s) :
    (first s >>= second) = (second s >>= first) := by
  obtain ⟨s₁, h₁, hinv₁⟩ := hf.total s hs
  obtain ⟨s₂, h₂, hinv₂⟩ := hg.total s hs
  obtain ⟨s₁₂, h₁₂, hinv₁₂⟩ := hg.total s₁ hinv₁
  obtain ⟨s₂₁, h₂₁, hinv₂₁⟩ := hf.total s₂ hinv₂
  have hdisjoint' : ∀ l ∈ other, l ∉ region := fun l hl hin => hdisjoint l hin hl
  have hregion := agreeOn_region hf hg hdisjoint hs h₁ hinv₁ h₂ hinv₂ h₁₂ h₂₁
  have hother := agreeOn_region hg hf hdisjoint' hs h₂ hinv₂ h₁ hinv₁ h₂₁ h₁₂
  have heq : s₁₂ = s₂₁ := by
    apply hview s₁₂ s₂₁ hinv₁₂ hinv₂₁
    intro l
    by_cases hl : l ∈ region
    · exact hregion l hl
    · by_cases hl' : l ∈ other
      · exact (hother l hl').symm
      · rw [hg.frame s₁ s₁₂ hinv₁ h₁₂ l hl', hf.frame s s₁ hs h₁ l hl,
          hf.frame s₂ s₂₁ hinv₂ h₂₁ l hl, hg.frame s s₂ hs h₂ l hl']
  rw [h₁, h₂]
  change second s₁ = first s₂
  rw [h₁₂, h₂₁, heq]

end Footprint

section Traces

variable {State Event Error Class : Type*} [DecidableEq Class] (cls : Event → Class)

/-- The same events of every class, in the same order. -/
def SameProjections (first second : List Event) : Prop :=
  ∀ c, first.filter (fun event => cls event = c) = second.filter (fun event => cls event = c)

variable {cls} {first second : List Event} {event : Event}

theorem SameProjections.mem_iff (h : SameProjections cls first second) :
    event ∈ first ↔ event ∈ second := by
  have hfirst : event ∈ first ↔ event ∈ first.filter fun e => cls e = cls event := by simp
  have hsecond : event ∈ second ↔ event ∈ second.filter fun e => cls e = cls event := by simp
  rw [hfirst, hsecond, h (cls event)]

theorem SameProjections.eq_nil (h : SameProjections cls [] second) : second = [] := by
  apply List.eq_nil_iff_forall_not_mem.mpr
  intro event hevent
  exact absurd (h.mem_iff.mpr hevent) List.not_mem_nil

/-- The first event of one trace is in the other one behind events of other
classes only. -/
theorem SameProjections.split {rest : List Event}
    (h : SameProjections cls (event :: rest) second) :
    ∃ before after, second = before ++ event :: after ∧
      (∀ e ∈ before, cls e ≠ cls event) ∧ SameProjections cls rest (before ++ after) := by
  have hown := h (cls event)
  rw [List.filter_cons_of_pos (by simp)] at hown
  obtain ⟨before, after, hsplit, hbefore, -, -⟩ := List.filter_eq_cons_iff.mp hown.symm
  refine ⟨before, after, hsplit, by simpa using hbefore, fun c => ?_⟩
  have hc := h c
  rw [hsplit, List.filter_append] at hc
  rw [List.filter_append]
  by_cases heq : cls event = c
  · have hnone : before.filter (fun e => cls e = c) = [] := by
      apply List.filter_eq_nil_iff.mpr
      intro e he
      simpa [← heq] using hbefore e he
    rw [List.filter_cons_of_pos (by simpa using heq), hnone, List.nil_append,
      List.filter_cons_of_pos (by simpa using heq)] at hc
    rw [hnone, List.nil_append]
    exact (List.cons.inj hc).2
  · rwa [List.filter_cons_of_neg (by simpa using heq),
      List.filter_cons_of_neg (by simpa using heq)] at hc

variable {step : State → Event → Except Error State} {Inv : State → Prop} {Valid : Event → Prop}

theorem run_move_front (hkeep : ∀ s e s', Inv s → Valid e → step s e = .ok s' → Inv s')
    {before after : List Event}
    (hcomm : ∀ s, Inv s → ∀ e ∈ before,
      (step s e >>= fun s' => step s' event) = (step s event >>= fun s' => step s' e))
    (hvalid : ∀ e ∈ before, Valid e) {s : State} (hs : Inv s) :
    Runs.run step s (before ++ event :: after) = Runs.run step s (event :: (before ++ after)) := by
  induction before generalizing s with
  | nil => rfl
  | cons e rest ih =>
    have hswap := hcomm s hs e List.mem_cons_self
    have hrest : ∀ s', step s e = .ok s' → Runs.run step s' (rest ++ event :: after) =
        Runs.run step s' (event :: (rest ++ after)) := by
      intro s' hs'
      apply ih
      · exact fun s hs e' he' => hcomm s hs e' (List.mem_cons_of_mem e he')
      · exact fun e' he' => hvalid e' (List.mem_cons_of_mem e he')
      · exact hkeep s e s' hs (hvalid e List.mem_cons_self) hs'
    calc Runs.run step s (e :: rest ++ event :: after)
        = step s e >>= fun s' => Runs.run step s' (rest ++ event :: after) := rfl
      _ = step s e >>= fun s' => Runs.run step s' (event :: (rest ++ after)) := by
        cases hstep : step s e with
        | error err => rfl
        | ok s' => exact hrest s' hstep
      _ = (step s e >>= fun s' => step s' event) >>= fun s' =>
          Runs.run step s' (rest ++ after) := by
        rw [bind_assoc]
        rfl
      _ = (step s event >>= fun s' => step s' e) >>= fun s' =>
          Runs.run step s' (rest ++ after) := by rw [hswap]
      _ = Runs.run step s (event :: (e :: rest ++ after)) := by
        rw [bind_assoc]
        rfl

/-- Two interleavings of the same classes end in the same state. -/
theorem run_eq_of_sameProjections
    (hkeep : ∀ s e s', Inv s → Valid e → step s e = .ok s' → Inv s')
    (hcomm : ∀ s a b, Inv s → Valid a → Valid b → cls a ≠ cls b →
      (step s a >>= fun s' => step s' b) = (step s b >>= fun s' => step s' a))
    (h : SameProjections cls first second) (hvalid : ∀ e ∈ first, Valid e) {s : State}
    (hs : Inv s) : Runs.run step s first = Runs.run step s second := by
  induction first generalizing second s with
  | nil => rw [h.eq_nil]
  | cons event rest ih =>
    obtain ⟨before, after, hsplit, hbefore, hrest⟩ := h.split
    have hvalidSecond : ∀ e ∈ second, Valid e := fun e he => hvalid e (h.mem_iff.mpr he)
    have hvalidEvent := hvalid event List.mem_cons_self
    have hvalidBefore : ∀ e ∈ before, Valid e :=
      fun e he => hvalidSecond e (hsplit ▸ List.mem_append_left _ he)
    rw [hsplit, run_move_front hkeep (fun s hs e he =>
      hcomm s e event hs (hvalidBefore e he) hvalidEvent (hbefore e he)) hvalidBefore hs,
      Runs.run_cons, Runs.run_cons]
    cases hstep : step s event with
    | error err => rfl
    | ok s' =>
      exact ih hrest (fun e he => hvalid e (List.mem_cons_of_mem event he))
        (hkeep s event s' hs hvalidEvent hstep)

end Traces

end Idlestat.Library.Interleaving
