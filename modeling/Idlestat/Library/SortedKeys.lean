import Mathlib.Data.List.Sort
import Mathlib.Data.List.Perm.Basic

/-! Lists kept strictly increasing by a key, with the linear find-or-insert
operations of a hand-written sorted list. Nothing here depends on what the
elements are. -/
namespace Idlestat.Library.SortedKeys

variable {α κ : Type*} [LinearOrder κ] (key : α → κ)

def Increasing (l : List α) : Prop :=
  l.Pairwise fun a b => key a < key b

def lookup (id : κ) (l : List α) : Option α :=
  l.find? fun x => decide (key x = id)

/-- The index of the first element with a larger key, or the length. -/
def position (id : κ) (l : List α) : Nat :=
  l.findIdx fun x => decide (id < key x)

def modifyFirst (p : α → Bool) (f : α → α) : List α → List α
  | [] => []
  | x :: xs => if p x then f x :: xs else x :: modifyFirst p f xs

def modifyKey (id : κ) (f : α → α) (l : List α) : List α :=
  modifyFirst (fun x => decide (key x = id)) f l

/-- Find the element with the given key, inserting a fresh one at its sorted
position when there is none, and rewrite it. -/
def upsert (id : κ) (fresh : α) (f : α → α) (l : List α) : List α :=
  match lookup key id l with
  | some _ => modifyKey key id f l
  | none => l.insertIdx (position key id l) (f fresh)

variable {key}

theorem Increasing.tail {x : α} {l : List α} (h : Increasing key (x :: l)) :
    Increasing key l :=
  (List.pairwise_cons.mp h).2

theorem Increasing.head_lt {x y : α} {l : List α} (h : Increasing key (x :: l))
    (hy : y ∈ l) : key x < key y :=
  (List.pairwise_cons.mp h).1 y hy

theorem Increasing.keys {l : List α} (h : Increasing key l) :
    (l.map key).Pairwise (· < ·) :=
  List.pairwise_map.mpr h

theorem Increasing.keys_nodup {l : List α} (h : Increasing key l) : (l.map key).Nodup :=
  h.keys.imp fun hlt => ne_of_lt hlt

theorem Increasing.eq_of_key {x y : α} {l : List α} (h : Increasing key l)
    (hx : x ∈ l) (hy : y ∈ l) (hxy : key x = key y) : x = y :=
  List.inj_on_of_nodup_map h.keys_nodup hx hy hxy

theorem increasing_map {β : Type*} {key : β → κ} {f : α → β} {l : List α} :
    Increasing key (l.map f) ↔ Increasing (fun x => key (f x)) l :=
  List.pairwise_map

theorem lookup_some {id : κ} {l : List α} {x : α} (h : lookup key id l = some x) :
    x ∈ l ∧ key x = id :=
  ⟨List.mem_of_find?_eq_some h, by simpa using List.find?_some h⟩

theorem lookup_none {id : κ} {l : List α} :
    lookup key id l = none ↔ ∀ x ∈ l, key x ≠ id := by
  simp [lookup]

theorem find_of_nodup {l : List α} (h : (l.map key).Nodup) {x : α} (hx : x ∈ l) :
    l.find? (fun y => decide (key y = key x)) = some x := by
  cases hl : l.find? (fun y => decide (key y = key x)) with
  | none => exact absurd hx (by simpa using fun hmem => List.find?_eq_none.mp hl x hmem)
  | some y =>
    have hkey : key y = key x := by simpa using List.find?_some hl
    rw [List.inj_on_of_nodup_map h (List.mem_of_find?_eq_some hl) hx hkey]

theorem lookup_mem {l : List α} (h : Increasing key l) {x : α} (hx : x ∈ l) :
    lookup key (key x) l = some x :=
  find_of_nodup h.keys_nodup hx

theorem position_le (id : κ) (l : List α) : position key id l ≤ l.length :=
  List.findIdx_le_length

theorem take_position {id : κ} {l : List α} {x : α} (hx : x ∈ l.take (position key id l)) :
    key x ≤ id := by
  obtain ⟨i, hi, rfl⟩ := List.mem_take_iff_getElem.mp hx
  have hlt : i < position key id l := lt_of_lt_of_le hi (min_le_left _ _)
  simpa using List.not_of_lt_findIdx hlt

theorem drop_position {id : κ} {l : List α} (h : Increasing key l) {x : α}
    (hx : x ∈ l.drop (position key id l)) : id < key x := by
  induction l with
  | nil => simp at hx
  | cons y ys ih =>
    by_cases hy : id < key y
    · have hzero : position key id (y :: ys) = 0 := by simp [position, List.findIdx_cons, hy]
      rw [hzero, List.drop_zero] at hx
      rcases List.mem_cons.mp hx with rfl | hx
      · exact hy
      · exact hy.trans (h.head_lt hx)
    · have hsucc : position key id (y :: ys) = position key id ys + 1 := by
        simp [position, List.findIdx_cons, hy]
      rw [hsucc, List.drop_succ_cons] at hx
      exact ih h.tail hx

theorem insertIdx_take_drop (x : α) (l : List α) {i : Nat} (hi : i ≤ l.length) :
    l.insertIdx i x = l.take i ++ x :: l.drop i := by
  induction l generalizing i with
  | nil =>
    obtain rfl : i = 0 := by simpa using hi
    rfl
  | cons y ys ih =>
    cases i with
    | zero => rfl
    | succ i => simp [ih (by simpa using hi)]

theorem Increasing.insert {l : List α} (h : Increasing key l) {x : α}
    (hx : ∀ y ∈ l, key y ≠ key x) :
    Increasing key (l.insertIdx (position key (key x) l) x) := by
  rw [insertIdx_take_drop x l (position_le _ _)]
  have hbelow : ∀ y ∈ l.take (position key (key x) l), key y < key x := fun y hy =>
    lt_of_le_of_ne (take_position hy) (hx y (List.mem_of_mem_take hy))
  have habove : ∀ y ∈ l.drop (position key (key x) l), key x < key y := fun y hy =>
    drop_position h hy
  refine List.pairwise_append.mpr ⟨h.sublist (List.take_sublist _ _),
    List.pairwise_cons.mpr ⟨habove, h.sublist (List.drop_sublist _ _)⟩, ?_⟩
  intro a ha b hb
  rcases List.mem_cons.mp hb with rfl | hb
  · exact hbelow a ha
  · exact (hbelow a ha).trans (habove b hb)

theorem mem_insert {l : List α} {id : κ} {x y : α} :
    y ∈ l.insertIdx (position key id l) x ↔ y = x ∨ y ∈ l :=
  List.mem_insertIdx (position_le _ _)

theorem modifyKey_cons (id : κ) (f : α → α) (x : α) (xs : List α) :
    modifyKey key id f (x :: xs) =
      if key x = id then f x :: xs else x :: modifyKey key id f xs := by
  simp [modifyKey, modifyFirst]

theorem modifyFirst_eq_map {p : α → Bool} (f : α → α) {l : List α}
    (hone : l.Pairwise fun a b => ¬ (p a = true ∧ p b = true)) :
    modifyFirst p f l = l.map fun x => if p x then f x else x := by
  induction l with
  | nil => rfl
  | cons x xs ih =>
    obtain ⟨hx, hxs⟩ := List.pairwise_cons.mp hone
    cases hp : p x with
    | true =>
      have hrest : xs.map (fun y => if p y then f y else y) = xs := by
        refine (List.map_congr_left fun y hy => ?_).trans (List.map_id xs)
        have hfalse : p y = false := by simpa [hp] using hx y hy
        simp [hfalse]
      simp [modifyFirst, hp, hrest]
    | false => simp [modifyFirst, hp, ih hxs]

theorem modifyFirst_append (p : α → Bool) (f : α → α) (l l' : List α) :
    modifyFirst p f (l ++ l') =
      if l.any p then modifyFirst p f l ++ l' else l ++ modifyFirst p f l' := by
  induction l with
  | nil => rfl
  | cons x xs ih =>
    cases hp : p x with
    | true => simp [modifyFirst, hp]
    | false =>
      simp only [List.cons_append, modifyFirst, hp, Bool.false_eq_true, if_false, ih,
        List.any_cons, Bool.false_or]
      split <;> rfl

/-- Rewriting inside the first list that has such an element rewrites the first
such element of them all. -/
theorem flatMap_modifyFirst {β : Type*} {f : α → List β} {p : β → Bool} {g : α → α} {h : β → β}
    (hg : ∀ x, f (g x) = modifyFirst p h (f x)) (l : List α) :
    (modifyFirst (fun x => (f x).any p) g l).flatMap f = modifyFirst p h (l.flatMap f) := by
  induction l with
  | nil => rfl
  | cons x xs ih =>
    rw [List.flatMap_cons, modifyFirst_append]
    cases hany : (f x).any p with
    | true => simp [modifyFirst, hany, hg]
    | false => simp [modifyFirst, hany, ih]

theorem map_modifyFirst {β : Type*} {g : α → β} {f : α → α} (hg : ∀ x, g (f x) = g x)
    (p : α → Bool) (l : List α) : (modifyFirst p f l).map g = l.map g := by
  induction l with
  | nil => rfl
  | cons x xs ih =>
    cases hp : p x <;> simp [modifyFirst, hp, hg, ih]

theorem mem_modifyFirst {p : α → Bool} {f : α → α} {l : List α} {y : α}
    (hy : y ∈ modifyFirst p f l) : y ∈ l ∨ ∃ x ∈ l, p x = true ∧ y = f x := by
  induction l with
  | nil => cases hy
  | cons x xs ih =>
    cases hp : p x with
    | true =>
      simp only [modifyFirst, hp, if_true, List.mem_cons] at hy
      cases hy with
      | inl hhead => exact .inr ⟨x, List.mem_cons_self, hp, hhead⟩
      | inr htail => exact .inl (List.mem_cons_of_mem _ htail)
    | false =>
      simp only [modifyFirst, hp, Bool.false_eq_true, if_false, List.mem_cons] at hy
      cases hy with
      | inl hhead => exact .inl (hhead ▸ List.mem_cons_self)
      | inr htail =>
        cases ih htail with
        | inl hmem => exact .inl (List.mem_cons_of_mem _ hmem)
        | inr hnew =>
          obtain ⟨z, hz, hpz, heq⟩ := hnew
          exact .inr ⟨z, List.mem_cons_of_mem _ hz, hpz, heq⟩

theorem pairwise_modifyFirst {R : α → α → Prop} {p : α → Bool} {f : α → α} {l : List α}
    (h : l.Pairwise R) (hnew : ∀ x ∈ l, p x = true → ∀ y ∈ l, R (f x) y ∧ R y (f x)) :
    (modifyFirst p f l).Pairwise R := by
  induction l with
  | nil => exact h
  | cons x xs ih =>
    obtain ⟨hx, hxs⟩ := List.pairwise_cons.mp h
    cases hp : p x with
    | true =>
      simp only [modifyFirst, hp, if_true]
      refine List.pairwise_cons.mpr ⟨fun y hy => ?_, hxs⟩
      exact (hnew x List.mem_cons_self hp y (List.mem_cons_of_mem _ hy)).1
    | false =>
      simp only [modifyFirst, hp, Bool.false_eq_true, if_false]
      refine List.pairwise_cons.mpr ⟨fun y hy => ?_, ih hxs fun z hz hpz y hy =>
        hnew z (List.mem_cons_of_mem _ hz) hpz y (List.mem_cons_of_mem _ hy)⟩
      cases mem_modifyFirst hy with
      | inl hmem => exact hx y hmem
      | inr hrewritten =>
        obtain ⟨z, hz, hpz, rfl⟩ := hrewritten
        exact (hnew z (List.mem_cons_of_mem _ hz) hpz x List.mem_cons_self).2

theorem mem_modifyKey {l : List α} (h : Increasing key l) {id : κ} {f : α → α} {x y : α}
    (hx : lookup key id l = some x) :
    y ∈ modifyKey key id f l ↔ y = f x ∨ y ∈ l ∧ key y ≠ id := by
  induction l with
  | nil => simp [lookup] at hx
  | cons z zs ih =>
    by_cases hz : key z = id
    · obtain rfl : z = x := by simpa [lookup, List.find?_cons, hz] using hx
      have hrest : ∀ w ∈ zs, key w ≠ id := fun w hw => hz ▸ ne_of_gt (h.head_lt hw)
      simp only [modifyKey_cons, hz, if_true, List.mem_cons]
      constructor
      · rintro (rfl | hy)
        · exact .inl rfl
        · exact .inr ⟨.inr hy, hrest y hy⟩
      · rintro (rfl | ⟨rfl | hy, hne⟩)
        · exact .inl rfl
        · exact absurd hz hne
        · exact .inr hy
    · have hx' : lookup key id zs = some x := by
        simpa [lookup, List.find?_cons, hz] using hx
      simp only [modifyKey_cons, hz, if_false, List.mem_cons, ih h.tail hx']
      constructor
      · rintro (rfl | rfl | hy)
        · exact .inr ⟨.inl rfl, hz⟩
        · exact .inl rfl
        · exact .inr ⟨.inr hy.1, hy.2⟩
      · rintro (rfl | ⟨rfl | hy, hne⟩)
        · exact .inr (.inl rfl)
        · exact .inl rfl
        · exact .inr (.inr ⟨hy, hne⟩)

theorem map_modifyKey {β : Type*} (g : α → β) {l : List α} {id : κ} {f : α → α}
    (hg : ∀ x, key x = id → g (f x) = g x) :
    (modifyKey key id f l).map g = l.map g := by
  induction l with
  | nil => rfl
  | cons z zs ih =>
    by_cases hz : key z = id <;> simp [modifyKey_cons, hz, hg, ih]

@[simp] theorem length_modifyKey (id : κ) (f : α → α) (l : List α) :
    (modifyKey key id f l).length = l.length := by
  induction l with
  | nil => rfl
  | cons z zs ih =>
    by_cases hz : key z = id <;> simp [modifyKey_cons, hz, ih]

theorem lookup_modify {l : List α} (h : (l.map key).Nodup) (i : Nat) {f : α → α}
    (hf : ∀ x, key (f x) = key x) (id : κ) :
    lookup key id (l.modify i f) =
      if l[i]?.map key = some id then (lookup key id l).map f else lookup key id l := by
  induction l generalizing i with
  | nil => simp [lookup]
  | cons x xs ih =>
    obtain ⟨hx, hxs⟩ := List.nodup_cons.mp h
    cases i with
    | zero =>
      by_cases hid : key x = id <;> simp [lookup, hf, hid]
    | succ i =>
      by_cases hid : key x = id
      · have hne : xs[i]?.map key ≠ some id := by
          rw [← List.getElem?_map]
          exact fun hget => hx (hid ▸ List.mem_of_getElem? hget)
        simp [lookup, hid, hne]
      · simpa [lookup, hid] using ih hxs i

theorem map_modify_of_eq {β : Type*} {g : α → β} {f : α → α} (hg : ∀ x, g (f x) = g x)
    (l : List α) (i : Nat) : (l.modify i f).map g = l.map g := by
  induction l generalizing i with
  | nil => cases i <;> rfl
  | cons x xs ih =>
    cases i with
    | zero => simp [hg]
    | succ i => simp [ih]

section Upsert

variable {id : κ} {fresh : α} {f : α → α} {l : List α}

theorem mem_upsert (h : Increasing key l) {y : α} :
    y ∈ upsert key id fresh f l ↔
      y = f ((lookup key id l).getD fresh) ∨ y ∈ l ∧ key y ≠ id := by
  unfold upsert
  cases hx : lookup key id l with
  | some x => exact mem_modifyKey h hx
  | none =>
    have habsent := lookup_none.mp hx
    simp only [Option.getD_none, mem_insert]
    constructor
    · rintro (rfl | hy)
      · exact .inl rfl
      · exact .inr ⟨hy, habsent y hy⟩
    · rintro (rfl | hy)
      · exact .inl rfl
      · exact .inr hy.1

theorem Increasing.upsert (h : Increasing key l) (hfresh : key fresh = id)
    (hf : ∀ x, key (f x) = key x) : Increasing key (upsert key id fresh f l) := by
  unfold SortedKeys.upsert
  cases hx : lookup key id l with
  | some x =>
    apply List.pairwise_map.mp
    rw [map_modifyKey key fun x _ => hf x]
    exact h.keys
  | none =>
    have hkey : key (f fresh) = id := (hf fresh).trans hfresh
    have hpos : position key id l = position key (key (f fresh)) l := by rw [hkey]
    simp only
    rw [hpos]
    exact h.insert fun y hy => hkey ▸ lookup_none.mp hx y hy

theorem length_upsert :
    (upsert key id fresh f l).length =
      if (lookup key id l).isSome then l.length else l.length + 1 := by
  unfold upsert
  cases hx : lookup key id l with
  | some x => simp
  | none => simp [List.length_insertIdx_of_le_length (position_le id l)]

theorem upsert_found {before after : List α} {x : α} (hbefore : ∀ y ∈ before, key y ≠ id)
    (hx : key x = id) :
    upsert key id fresh f (before ++ x :: after) = before ++ f x :: after := by
  have hlookup : lookup key id (before ++ x :: after) = some x := by
    have hnone : before.find? (fun y => decide (key y = id)) = none := by
      simpa using hbefore
    simp [lookup, List.find?_append, hnone, hx]
  have hany : before.any (fun y => decide (key y = id)) = false := by
    simpa using hbefore
  simp [upsert, hlookup, modifyKey, modifyFirst_append, hany, modifyFirst, hx]

theorem upsert_absent (habsent : ∀ y ∈ l, key y ≠ id) :
    upsert key id fresh f l =
      l.take (position key id l) ++ f fresh :: l.drop (position key id l) := by
  rw [upsert, lookup_none.mpr habsent]
  exact insertIdx_take_drop _ l (position_le id l)

end Upsert

theorem Increasing.eq_of_mem_iff {l l' : List α} (h : Increasing key l)
    (h' : Increasing key l') (hmem : ∀ x, x ∈ l ↔ x ∈ l') : l = l' := by
  have : Std.Irrefl fun a b : α => key a < key b := ⟨fun a => lt_irrefl (key a)⟩
  have : Std.Antisymm fun a b : α => key a < key b :=
    ⟨fun a b hab hba => absurd hab hba.asymm⟩
  exact List.Pairwise.eq_of_mem_iff h h' hmem

end Idlestat.Library.SortedKeys
