import Mathlib.Data.List.Forall2

/-! Walking a second list in step with a first one, by position. The walk runs
out of the second list when that is shorter. -/
namespace Idlestat.Library.ParallelWalk

variable {α β γ Error : Type*}

/-- Each element of the first list together with the one at its position in the
second; the error `short` where there is none. -/
def walk (short : Error) (f : α → β → Except Error γ) :
    List α → List β → Except Error (List γ)
  | [], _ => .ok []
  | _ :: _, [] => .error short
  | a :: as, b :: bs =>
    match f a b with
    | .error e => .error e
    | .ok c =>
      match walk short f as bs with
      | .error e => .error e
      | .ok cs => .ok (c :: cs)

/-- The second list has a related element at every position of the first. -/
def Along (R : α → β → Prop) : List α → List β → Prop
  | [], _ => True
  | _ :: _, [] => False
  | a :: as, b :: bs => R a b ∧ Along R as bs

variable {short : Error} {f : α → β → Except Error γ} {R S : α → β → Prop} {as : List α}
  {bs : List β}

/-- A walk gives what `g` makes of the first list alone exactly when every step does. -/
theorem walk_eq_ok_map {g : α → γ} :
    walk short f as bs = .ok (as.map g) ↔ Along (fun a b => f a b = .ok (g a)) as bs := by
  induction as generalizing bs with
  | nil => simp [walk, Along]
  | cons a as ih =>
    cases bs with
    | nil => simp [walk, Along]
    | cons b bs =>
      rw [Along, ← ih, walk, List.map_cons]
      cases f a b with
      | error e => simp
      | ok c =>
        cases walk short f as bs with
        | error e => simp
        | ok cs => simp

theorem along_congr (h : ∀ a ∈ as, ∀ b ∈ bs, (R a b ↔ S a b)) : Along R as bs ↔ Along S as bs := by
  induction as generalizing bs with
  | nil => rfl
  | cons a as ih =>
    cases bs with
    | nil => rfl
    | cons b bs =>
      have hhead : R a b ↔ S a b := h a List.mem_cons_self b List.mem_cons_self
      have htail : Along R as bs ↔ Along S as bs := ih fun a' ha b' hb =>
        h a' (List.mem_cons_of_mem _ ha) b' (List.mem_cons_of_mem _ hb)
      rw [Along, Along, hhead, htail]

theorem along_of_keys {κ : Type*} {key : α → κ} {key' : β → κ}
    (h : ∀ a ∈ as, ∀ b ∈ bs, key a = key' b → R a b) (hkeys : as.map key = bs.map key') :
    Along R as bs := by
  induction as generalizing bs with
  | nil => trivial
  | cons a as ih =>
    cases bs with
    | nil => cases hkeys
    | cons b bs =>
      obtain ⟨hhead, htail⟩ := List.cons.inj hkeys
      refine ⟨h a List.mem_cons_self b List.mem_cons_self hhead, ih ?_ htail⟩
      exact fun a' ha b' hb => h a' (List.mem_cons_of_mem _ ha) b' (List.mem_cons_of_mem _ hb)

end Idlestat.Library.ParallelWalk
