import Mathlib.Data.List.Basic
import Mathlib.Tactic.Common

/-! Tables in a text: lines of fields with a separator between them, each table
under a title and a line of column names and up to an empty line, its rows below
heads of their own. What a reader takes apart is what was put together. -/
namespace Idlestat.Library.DelimitedText

section Lines

variable {α : Type*} {stop sep : α} {lines : List (List α)}

def endLines (stop : α) (lines : List (List α)) : List α :=
  lines.flatMap (· ++ [stop])

@[simp] theorem endLines_nil : endLines stop [] = [] := rfl

theorem endLines_cons (line : List α) :
    endLines stop (line :: lines) = line ++ stop :: endLines stop lines := by
  simp [endLines]

theorem endLines_append (first second : List (List α)) :
    endLines stop (first ++ second) = endLines stop first ++ endLines stop second :=
  List.flatMap_append

theorem splitOn_endLines [DecidableEq α] (h : ∀ line ∈ lines, stop ∉ line) (rest : List α) :
    (endLines stop lines ++ rest).splitOn stop = lines ++ rest.splitOn stop := by
  induction lines with
  | nil => rfl
  | cons line lines ih =>
    obtain ⟨hline, hlines⟩ := List.forall_mem_cons.mp h
    rw [endLines_cons, List.append_assoc, List.cons_append, List.splitOn_append_cons_self,
      List.splitOn_eq_singleton hline, ih hlines]
    rfl

def joinFields (sep : α) (fields : List (List α)) : List α :=
  [sep].intercalate fields

theorem splitOn_joinFields [DecidableEq α] {fields : List (List α)}
    (h : ∀ field ∈ fields, sep ∉ field) (hne : fields ≠ []) :
    (joinFields sep fields).splitOn sep = fields :=
  List.splitOn_intercalate sep h hne

theorem mem_joinFields {fields : List (List α)} {a : α} (h : a ∈ joinFields sep fields) :
    a = sep ∨ ∃ field ∈ fields, a ∈ field := by
  induction fields with
  | nil => simp [joinFields] at h
  | cons field fields ih =>
    cases fields with
    | nil => exact .inr ⟨field, List.mem_cons_self, by simpa [joinFields] using h⟩
    | cons next fields =>
      have hcons : joinFields sep (field :: next :: fields) =
          field ++ sep :: joinFields sep (next :: fields) := by
        simp [joinFields, List.intercalate]
      rw [hcons, List.mem_append, List.mem_cons] at h
      rcases h with hfield | hsep | hrest
      · exact .inr ⟨field, List.mem_cons_self, hfield⟩
      · exact .inl hsep
      · cases ih hrest with
        | inl hsep => exact .inl hsep
        | inr hlater =>
          obtain ⟨later, hmem, ha⟩ := hlater
          exact .inr ⟨later, List.mem_cons_of_mem _ hmem, ha⟩

/-- The lines from below the column names up to the next empty line. -/
def tableBody [DecidableEq α] (title : List α) (lines : List (List α)) : List (List α) :=
  ((lines.dropWhile (· ≠ title)).drop 2).takeWhile (· ≠ [])

theorem tableBody_eq [DecidableEq α] {title columns : List α} {before body after : List (List α)}
    (hbefore : title ∉ before) (hbody : [] ∉ body) :
    tableBody title (before ++ title :: columns :: (body ++ [] :: after)) = body := by
  have hdrop : ∀ line ∈ before, decide (line ≠ title) = true := by
    intro line hline
    exact decide_eq_true fun heq => hbefore (heq ▸ hline)
  have htake : ∀ line ∈ body, decide (line ≠ []) = true := by
    intro line hline
    exact decide_eq_true fun heq => hbody (heq ▸ hline)
  have hfirst : (before ++ title :: columns :: (body ++ [] :: after)).dropWhile (· ≠ title) =
      title :: columns :: (body ++ [] :: after) := by
    rw [List.dropWhile_append_of_pos hdrop]
    simp
  rw [tableBody, hfirst, List.drop_succ_cons, List.drop_succ_cons, List.drop_zero,
    List.takeWhile_append_of_pos htake]
  simp

end Lines

section Groups

variable {α β : Type*} (head : α → Option β)

/-- The items before the first head, and each head with the items that follow. -/
def groups : List α → List α × List (β × List α)
  | [] => ([], [])
  | item :: rest =>
    match head item with
    | some b => ([], (b, (groups rest).1) :: (groups rest).2)
    | none => (item :: (groups rest).1, (groups rest).2)

variable {head}

theorem groups_items {items rest : List α} (h : ∀ item ∈ items, head item = none) :
    groups head (items ++ rest) = (items ++ (groups head rest).1, (groups head rest).2) := by
  induction items with
  | nil => rfl
  | cons item items ih =>
    obtain ⟨hitem, hitems⟩ := List.forall_mem_cons.mp h
    simp only [List.cons_append, groups, hitem, ih hitems]

theorem groups_flatMap {γ : Type*} {l : List γ} {top : γ → α} {items : γ → List α} {key : γ → β}
    (htop : ∀ x ∈ l, head (top x) = some (key x))
    (hitems : ∀ x ∈ l, ∀ item ∈ items x, head item = none) :
    groups head (l.flatMap fun x => top x :: items x) = ([], l.map fun x => (key x, items x)) := by
  induction l with
  | nil => rfl
  | cons x rest ih =>
    obtain ⟨hx, hrest⟩ := List.forall_mem_cons.mp htop
    obtain ⟨hxs, hitems⟩ := List.forall_mem_cons.mp hitems
    rw [List.flatMap_cons, List.cons_append, groups, hx]
    simp only [groups_items hxs, ih hrest hitems, List.append_nil, List.map_cons]

end Groups

theorem mapM_eq_some {α β : Type*} {f : α → Option β} {g : α → β} {l : List α}
    (h : ∀ x ∈ l, f x = some (g x)) : l.mapM f = some (l.map g) := by
  induction l with
  | nil => rfl
  | cons x rest ih =>
    obtain ⟨hx, hrest⟩ := List.forall_mem_cons.mp h
    rw [List.mapM_cons, hx, ih hrest]
    rfl

end Idlestat.Library.DelimitedText
