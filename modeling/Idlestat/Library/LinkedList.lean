import Mathlib.Data.List.Chain
import Mathlib.Data.List.Nodup
import Mathlib.Logic.Function.Basic

/-! Circular doubly linked lists whose links live in memory, as the Linux kernel
writes them. A ring is a head and its elements; every operation is followed over
all rings of the memory at once, so that what it leaves alone need not be said
ring by ring. -/
namespace Idlestat.Library.LinkedList

/-- A link that is null, poisoned or not yet set leads nowhere. -/
structure ListHead (α : Type) where
  next : Option α
  prev : Option α
  deriving DecidableEq

/-- Memory: the links that are allocated. -/
abbrev Links (α : Type) := α → Option (ListHead α)

variable {α : Type}

def next (links : Links α) (a : α) : Option α :=
  (links a).bind ListHead.next

def prev (links : Links α) (a : α) : Option α :=
  (links a).bind ListHead.prev

section Operations

variable [DecidableEq α]

/-- Nothing can be written to memory that is not allocated. -/
def setNext (a : α) (target : Option α) (links : Links α) : Option (Links α) :=
  (links a).map fun cell => Function.update links a (some { cell with next := target })

def setPrev (a : α) (target : Option α) (links : Links α) : Option (Links α) :=
  (links a).map fun cell => Function.update links a (some { cell with prev := target })

/-- From `calloc`: all links are null. -/
def allocate (a : α) (links : Links α) : Links α :=
  Function.update links a (some ⟨none, none⟩)

/-- Only what is allocated can be freed. -/
def free (a : α) (links : Links α) : Option (Links α) :=
  if (links a).isSome then some (Function.update links a none) else none

def initListHead (list : α) (links : Links α) : Option (Links α) := do
  let links ← setNext list (some list) links
  setPrev list (some list) links

/-- `__list_add` -/
def listInsert (new prev next : α) (links : Links α) : Option (Links α) := do
  let links ← setPrev next (some new) links
  let links ← setNext new (some next) links
  let links ← setPrev new (some prev) links
  setNext prev (some new) links

def listAddTail (new head : α) (links : Links α) : Option (Links α) := do
  listInsert new (← prev links head) head links

/-- `__list_del` -/
def listUnlink (prev next : α) (links : Links α) : Option (Links α) := do
  let links ← setPrev next (some prev) links
  setNext prev (some next) links

def listDel (entry : α) (links : Links α) : Option (Links α) := do
  let links ← listUnlink (← prev links entry) (← next links entry) links
  let links ← setNext entry none links
  setPrev entry none links

/-! ## Traversal -/

/-- The loop of `list_for_each` from `pos` on; its body may return. The fuel
bounds the rounds: a loop that outlives it does not end. -/
def walk {β : Type} (links : Links α) (head : α) (body : α → Option (Option β)) :
    Nat → α → Option (Option β)
  | 0, _ => none
  | fuel + 1, pos =>
    if pos = head then some none
    else do
      match ← body pos with
      | some result => some (some result)
      | none => walk links head body fuel (← next links pos)

/-- What the body returned, if it did. -/
def listForEach {β : Type} (links : Links α) (head : α) (body : α → Option (Option β))
    (fuel : Nat) : Option (Option β) := do
  walk links head body fuel (← next links head)

variable {Mem : Type}

/-- The loop of `list_for_each_entry_safe`: `n` is read before the body runs. -/
def walkSafe (linksOf : Mem → Links α) (head : α) (body : α → Mem → Option Mem) :
    Nat → α → α → Mem → Option Mem
  | 0, _, _, _ => none
  | fuel + 1, pos, n, mem =>
    if pos = head then some mem
    else do
      let mem ← body pos mem
      walkSafe linksOf head body fuel n (← next (linksOf mem) n) mem

def listForEachSafe (linksOf : Mem → Links α) (head : α) (body : α → Mem → Option Mem)
    (fuel : Nat) (mem : Mem) : Option Mem := do
  let pos ← next (linksOf mem) head
  walkSafe linksOf head body fuel pos (← next (linksOf mem) pos) mem

end Operations

/-! ## Rings -/

def Linked (links : Links α) (a b : α) : Prop :=
  next links a = some b ∧ prev links b = some a

/-- From the head through the elements and back. -/
structure Ring (links : Links α) (head : α) (elems : List α) : Prop where
  nodup : (head :: elems).Nodup
  path : (head :: elems ++ [head]).IsChain (Linked links)

def footprint (rings : List (α × List α)) : List α :=
  rings.flatMap fun ring => ring.1 :: ring.2

/-- All rings of a memory; no link is in two of them. -/
structure Rings (links : Links α) (rings : List (α × List α)) : Prop where
  nodup : (footprint rings).Nodup
  ring : ∀ ring ∈ rings, Ring links ring.1 ring.2

section Paths

variable {links links' : Links α} {l before after : List α} {a b head x : α}

theorem path_congr (h : l.IsChain (Linked links))
    (hnext : ∀ x ∈ l.dropLast, next links' x = next links x)
    (hprev : ∀ x ∈ l.tail, prev links' x = prev links x) : l.IsChain (Linked links') := by
  induction l with
  | nil => exact List.isChain_nil
  | cons a rest ih =>
    cases rest with
    | nil => exact List.isChain_singleton a
    | cons b rest =>
      obtain ⟨hab, hrest⟩ := List.isChain_cons_cons.mp h
      rw [List.dropLast_cons_cons] at hnext
      refine List.isChain_cons_cons.mpr ⟨⟨?_, ?_⟩, ih hrest ?_ ?_⟩
      · rw [hnext a List.mem_cons_self, hab.1]
      · rw [hprev b List.mem_cons_self, hab.2]
      · exact fun x hx => hnext x (List.mem_cons_of_mem _ hx)
      · exact fun x hx => hprev x (List.mem_cons_of_mem _ hx)

theorem exists_around (head : α) (before after : List α) : ∃ A p n B,
    head :: before = A ++ [p] ∧ after ++ [head] = n :: B ∧
      p ∈ head :: before ∧ n = after.head?.getD head := by
  obtain ⟨A, p, hconcat⟩ := (List.eq_nil_or_concat (head :: before)).resolve_left (by simp)
  have hp : head :: before = A ++ [p] := hconcat.trans List.concat_eq_append
  refine ⟨A, p, after.head?.getD head, (after ++ [head]).tail, hp, ?_, by rw [hp]; simp, rfl⟩
  cases after with
  | nil => rfl
  | cons a rest => rfl

theorem Ring.next_live (h : Ring links head l) (hx : x ∈ head :: l) : (links x).isSome := by
  obtain ⟨before, after, hsplit⟩ := List.append_of_mem hx
  obtain ⟨y, rest, hrest⟩ : ∃ y rest, after ++ [head] = y :: rest :=
    List.exists_cons_of_ne_nil (by simp)
  have hpath := h.path
  rw [hsplit, List.append_assoc, List.cons_append, hrest] at hpath
  have hlinked := (List.isChain_append_cons_cons.mp hpath).2.1.1
  obtain ⟨cell, hcell, -⟩ := Option.bind_eq_some_iff.mp hlinked
  simp [hcell]

theorem Ring.congr (h : Ring links head l) (hsame : ∀ x ∈ head :: l, links' x = links x) :
    Ring links' head l := by
  refine ⟨h.nodup, path_congr h.path ?_ ?_⟩
  · intro x hx
    rw [List.dropLast_concat] at hx
    rw [next, next, hsame x hx]
  · intro x hx
    have hmem : x ∈ head :: l := by
      rcases List.mem_append.mp (show x ∈ l ++ [head] from hx) with hx | hx
      · exact List.mem_cons_of_mem _ hx
      · exact List.mem_singleton.mp hx ▸ List.mem_cons_self
    rw [prev, prev, hsame x hmem]

theorem path_around {A B : List α} {p n : α} (hp : head :: before = A ++ [p])
    (hn : after ++ [head] = n :: B) (hnodup : (head :: (before ++ after)).Nodup)
    (hpaths : (A ++ [p]).IsChain (Linked links) ∧ (n :: B).IsChain (Linked links))
    (hnext : ∀ x ∈ head :: (before ++ after), x ≠ p → next links' x = next links x)
    (hprev : ∀ x ∈ head :: (before ++ after), x ≠ n → prev links' x = prev links x) :
    (A ++ [p]).IsChain (Linked links') ∧ (n :: B).IsChain (Linked links') := by
  rw [← List.cons_append] at hnodup hnext hprev
  obtain ⟨hleft, hright, hapart⟩ := List.nodup_append.mp hnodup
  have hpmem : p ∈ head :: before := hp ▸ List.mem_concat_self
  have hnmem : n = head ∨ n ∈ after := by
    have hmem : n ∈ after ++ [head] := hn ▸ List.mem_cons_self
    simpa [or_comm] using hmem
  have hback : (after ++ [head]).Nodup := by
    refine List.nodup_append.mpr ⟨hright, List.nodup_singleton head, fun a ha b hb heq => ?_⟩
    obtain rfl := List.mem_singleton.mp hb
    exact hapart b List.mem_cons_self a ha heq.symm
  constructor
  · refine path_congr hpaths.1 (fun x hx => ?_) fun x hx => ?_
    · rw [List.dropLast_concat] at hx
      refine hnext x ?_ fun heq => ?_
      · rw [hp, List.append_assoc]
        exact List.mem_append_left _ hx
      · rw [hp] at hleft
        exact (List.nodup_append.mp hleft).2.2 x hx p (List.mem_singleton_self p) heq
    · rw [← hp, List.tail_cons] at hx
      refine hprev x (List.mem_append_left _ (List.mem_cons_of_mem _ hx)) fun heq => ?_
      rcases hnmem with hhead | hafter
      · exact (List.nodup_cons.mp hleft).1 (hhead ▸ heq ▸ hx)
      · exact hapart x (List.mem_cons_of_mem _ hx) n hafter heq
  · refine path_congr hpaths.2 (fun x hx => ?_) fun x hx => ?_
    · rw [← hn, List.dropLast_concat] at hx
      exact hnext x (List.mem_append_right _ hx) fun heq => hapart p hpmem x hx heq.symm
    · rw [List.tail_cons] at hx
      have hmem : x ∈ after ++ [head] := hn ▸ List.mem_cons_of_mem _ hx
      refine hprev x ?_ fun heq => ?_
      · rcases List.mem_append.mp hmem with hafter | hhead
        · exact List.mem_append_right _ hafter
        · obtain rfl := List.mem_singleton.mp hhead
          exact List.mem_append_left _ List.mem_cons_self
      · rw [hn] at hback
        exact (List.nodup_cons.mp hback).1 (heq ▸ hx)

end Paths

section Writing

variable [DecidableEq α] {links links' : Links α} {a : α} {target : Option α}

structure NextSet (links links' : Links α) (a : α) (target : Option α) : Prop where
  next : ∀ x, next links' x = if x = a then target else next links x
  prev : ∀ x, prev links' x = prev links x
  live : ∀ x, (links' x).isSome = (links x).isSome
  frame : ∀ x ≠ a, links' x = links x

structure PrevSet (links links' : Links α) (a : α) (target : Option α) : Prop where
  next : ∀ x, next links' x = next links x
  prev : ∀ x, prev links' x = if x = a then target else prev links x
  live : ∀ x, (links' x).isSome = (links x).isSome
  frame : ∀ x ≠ a, links' x = links x

theorem exists_setNext (h : (links a).isSome) (target : Option α) :
    ∃ links', setNext a target links = some links' ∧ NextSet links links' a target := by
  obtain ⟨cell, hcell⟩ := Option.isSome_iff_exists.mp h
  refine ⟨Function.update links a (some { cell with next := target }), by simp [setNext, hcell], ?_⟩
  exact {
    next := fun x => by by_cases hx : x = a <;> simp [LinkedList.next, hx]
    prev := fun x => by by_cases hx : x = a <;> simp [LinkedList.prev, hx, hcell]
    live := fun x => by by_cases hx : x = a <;> simp [hx, hcell]
    frame := fun x hx => by simp [hx] }

theorem exists_setPrev (h : (links a).isSome) (target : Option α) :
    ∃ links', setPrev a target links = some links' ∧ PrevSet links links' a target := by
  obtain ⟨cell, hcell⟩ := Option.isSome_iff_exists.mp h
  refine ⟨Function.update links a (some { cell with prev := target }), by simp [setPrev, hcell], ?_⟩
  exact {
    next := fun x => by by_cases hx : x = a <;> simp [LinkedList.next, hx, hcell]
    prev := fun x => by by_cases hx : x = a <;> simp [LinkedList.prev, hx]
    live := fun x => by by_cases hx : x = a <;> simp [hx, hcell]
    frame := fun x hx => by simp [hx] }

theorem exists_initListHead {list : α} (h : (links list).isSome) :
    ∃ links', initListHead list links = some links' ∧ Ring links' list [] ∧
      (∀ x, (links' x).isSome = (links x).isSome) ∧ ∀ x ≠ list, links' x = links x := by
  obtain ⟨links₁, hset₁, h₁⟩ := exists_setNext h (some list)
  obtain ⟨links₂, hset₂, h₂⟩ := exists_setPrev ((h₁.live list).trans h) (some list)
  refine ⟨links₂, by simp [initListHead, hset₁, hset₂], ⟨by simp, ?_⟩, ?_, ?_⟩
  · refine List.isChain_cons_cons.mpr ⟨⟨?_, ?_⟩, List.isChain_singleton list⟩
    · simp [h₂.next, h₁.next]
    · simp [h₂.prev]
  · exact fun x => (h₂.live x).trans (h₁.live x)
  · exact fun x hx => (h₂.frame x hx).trans (h₁.frame x hx)

/-- What `__list_add` writes between `p` and `n`. -/
structure Inserted (links links' : Links α) (new p n : α) : Prop where
  next : ∀ x, LinkedList.next links' x =
    if x = p then some new else if x = new then some n else LinkedList.next links x
  prev : ∀ x, LinkedList.prev links' x =
    if x = new then some p else if x = n then some new else LinkedList.prev links x
  live : ∀ x, (links' x).isSome = (links x).isSome
  frame : ∀ x, x ≠ new → x ≠ p → x ≠ n → links' x = links x

theorem exists_listInsert {new p n : α} (hnew : (links new).isSome) (hp : (links p).isSome)
    (hn : (links n).isSome) :
    ∃ links', listInsert new p n links = some links' ∧ Inserted links links' new p n := by
  obtain ⟨links₁, hset₁, h₁⟩ := exists_setPrev hn (some new)
  obtain ⟨links₂, hset₂, h₂⟩ := exists_setNext ((h₁.live new).trans hnew) (some n)
  have hlive₂ : ∀ x, (links₂ x).isSome = (links x).isSome := fun x =>
    (h₂.live x).trans (h₁.live x)
  obtain ⟨links₃, hset₃, h₃⟩ := exists_setPrev ((hlive₂ new).trans hnew) (some p)
  have hlive₃ : ∀ x, (links₃ x).isSome = (links x).isSome := fun x =>
    (h₃.live x).trans (hlive₂ x)
  obtain ⟨links₄, hset₄, h₄⟩ := exists_setNext ((hlive₃ p).trans hp) (some new)
  refine ⟨links₄, by simp [listInsert, hset₁, hset₂, hset₃, hset₄], ?_⟩
  exact {
    next := fun x => by rw [h₄.next, h₃.next, h₂.next, h₁.next]
    prev := fun x => by rw [h₄.prev, h₃.prev, h₂.prev, h₁.prev]
    live := fun x => (h₄.live x).trans (hlive₃ x)
    frame := fun x hnew hp hn => by
      rw [h₄.frame x hp, h₃.frame x hnew, h₂.frame x hnew, h₁.frame x hn] }

/-- What `list_del` writes between `p` and `n`. -/
structure Removed (links links' : Links α) (entry p n : α) : Prop where
  next : ∀ x ≠ entry, LinkedList.next links' x =
    if x = p then some n else LinkedList.next links x
  prev : ∀ x ≠ entry, LinkedList.prev links' x =
    if x = n then some p else LinkedList.prev links x
  live : ∀ x, (links' x).isSome = (links x).isSome
  frame : ∀ x, x ≠ entry → x ≠ p → x ≠ n → links' x = links x

theorem exists_listDel {entry p n : α} (hentry : (links entry).isSome)
    (hto : next links entry = some n) (hfrom : prev links entry = some p)
    (hp : (links p).isSome) (hn : (links n).isSome) :
    ∃ links', listDel entry links = some links' ∧ Removed links links' entry p n := by
  obtain ⟨links₁, hset₁, h₁⟩ := exists_setPrev hn (some p)
  obtain ⟨links₂, hset₂, h₂⟩ := exists_setNext ((h₁.live p).trans hp) (some n)
  have hlive₂ : ∀ x, (links₂ x).isSome = (links x).isSome := fun x =>
    (h₂.live x).trans (h₁.live x)
  obtain ⟨links₃, hset₃, h₃⟩ := exists_setNext ((hlive₂ entry).trans hentry) none
  have hlive₃ : ∀ x, (links₃ x).isSome = (links x).isSome := fun x =>
    (h₃.live x).trans (hlive₂ x)
  obtain ⟨links₄, hset₄, h₄⟩ := exists_setPrev ((hlive₃ entry).trans hentry) none
  refine ⟨links₄, by simp [listDel, listUnlink, hto, hfrom, hset₁, hset₂, hset₃, hset₄], ?_⟩
  exact {
    next := fun x hx => by rw [h₄.next, h₃.next, if_neg hx, h₂.next, h₁.next]
    prev := fun x hx => by rw [h₄.prev, if_neg hx, h₃.prev, h₂.prev, h₁.prev]
    live := fun x => (h₄.live x).trans (hlive₃ x)
    frame := fun x hentry hp hn => by
      rw [h₄.frame x hentry, h₃.frame x hentry, h₂.frame x hp, h₁.frame x hn] }

end Writing

section OneRing

variable {links : Links α} {head new entry : α} {before after : List α}

theorem cycle_eq {A B : List α} {p n : α} (hp : head :: before = A ++ [p])
    (hn : after ++ [head] = n :: B) (middle : List α) :
    head :: (before ++ (middle ++ after)) ++ [head] = A ++ p :: (middle ++ n :: B) :=
  calc head :: (before ++ (middle ++ after)) ++ [head]
      = (head :: before) ++ (middle ++ (after ++ [head])) := by
        simp only [List.cons_append, List.append_assoc]
    _ = A ++ p :: (middle ++ n :: B) := by
        rw [hp, hn, List.append_assoc, List.singleton_append]

theorem mem_cycle {x : α} (hx : x ∈ after ++ [head]) : x ∈ head :: (before ++ after) := by
  rcases List.mem_append.mp hx with hafter | hhead
  · exact List.mem_cons_of_mem _ (List.mem_append_right _ hafter)
  · exact List.mem_singleton.mp hhead ▸ List.mem_cons_self

variable [DecidableEq α]

/-- `list_add_tail` at an element, or at the head, links the new one before it. -/
theorem Ring.addTail (h : Ring links head (before ++ after))
    (hnew : new ∉ head :: (before ++ after)) (hlive : (links new).isSome) :
    ∃ links', listAddTail new (after.head?.getD head) links = some links' ∧
      Ring links' head (before ++ new :: after) ∧
      (∀ x, (links' x).isSome = (links x).isSome) ∧
      ∀ x ≠ new, x ∉ head :: (before ++ after) → links' x = links x := by
  obtain ⟨A, p, n, B, hp, hn, hpmem, hnext⟩ := exists_around head before after
  have hcycle : head :: (before ++ after) ++ [head] = A ++ p :: n :: B := cycle_eq hp hn []
  have hpath := h.path
  rw [hcycle] at hpath
  obtain ⟨hleft, hgap, hright⟩ := List.isChain_append_cons_cons.mp hpath
  have hpcycle : p ∈ head :: (before ++ after) := by
    rw [← List.cons_append]
    exact List.mem_append_left _ hpmem
  have hncycle : n ∈ head :: (before ++ after) := mem_cycle (hn ▸ List.mem_cons_self)
  obtain ⟨links', hinsert, hwritten⟩ :=
    exists_listInsert hlive (h.next_live hpcycle) (h.next_live hncycle)
  have hpaths := path_around hp hn h.nodup ⟨hleft, hright⟩
    (fun x hx hne => by
      have hxnew : x ≠ new := fun heq => hnew (heq ▸ hx)
      rw [hwritten.next, if_neg hne, if_neg hxnew])
    (fun x hx hne => by
      have hxnew : x ≠ new := fun heq => hnew (heq ▸ hx)
      rw [hwritten.prev, if_neg hxnew, if_neg hne])
  have hpnew : p ≠ new := fun heq => hnew (heq ▸ hpcycle)
  have hnnew : n ≠ new := fun heq => hnew (heq ▸ hncycle)
  refine ⟨links', by simp [listAddTail, ← hnext, hgap.2, hinsert], ⟨?_, ?_⟩, hwritten.live, ?_⟩
  · have hperm : (head :: (before ++ new :: after)).Perm (new :: head :: (before ++ after)) :=
      (List.perm_middle.cons head).trans (List.Perm.swap new head _)
    exact hperm.nodup_iff.mpr (List.nodup_cons.mpr ⟨hnew, h.nodup⟩)
  · have hcycle' : head :: (before ++ new :: after) ++ [head] = A ++ p :: new :: n :: B :=
      cycle_eq hp hn [new]
    rw [hcycle']
    refine List.isChain_append_cons_cons.mpr ⟨hpaths.1, ⟨?_, ?_⟩,
      List.isChain_cons_cons.mpr ⟨⟨?_, ?_⟩, hpaths.2⟩⟩
    · rw [hwritten.next, if_pos rfl]
    · rw [hwritten.prev, if_pos rfl]
    · rw [hwritten.next, if_neg hpnew.symm, if_pos rfl]
    · rw [hwritten.prev, if_neg hnnew, if_pos rfl]
  · intro x hxnew hx
    exact hwritten.frame x hxnew (fun heq => hx (heq ▸ hpcycle)) fun heq => hx (heq ▸ hncycle)

/-- `list_del` takes its entry out. -/
theorem Ring.del (h : Ring links head (before ++ entry :: after)) :
    ∃ links', listDel entry links = some links' ∧ Ring links' head (before ++ after) ∧
      (∀ x, (links' x).isSome = (links x).isSome) ∧
      ∀ x, x ∉ head :: (before ++ entry :: after) → links' x = links x := by
  obtain ⟨A, p, n, B, hp, hn, hpmem, -⟩ := exists_around head before after
  have hcycle : head :: (before ++ entry :: after) ++ [head] = A ++ p :: entry :: n :: B :=
    cycle_eq hp hn [entry]
  have hpath := h.path
  rw [hcycle] at hpath
  obtain ⟨hleft, hfrom, hrest⟩ := List.isChain_append_cons_cons.mp hpath
  obtain ⟨hto, hright⟩ := List.isChain_cons_cons.mp hrest
  have hperm : (head :: (before ++ entry :: after)).Perm (entry :: head :: (before ++ after)) :=
    (List.perm_middle.cons head).trans (List.Perm.swap entry head _)
  obtain ⟨hentry, hnodup⟩ := List.nodup_cons.mp (hperm.nodup_iff.mp h.nodup)
  have hpcycle : p ∈ head :: (before ++ after) := by
    rw [← List.cons_append]
    exact List.mem_append_left _ hpmem
  have hncycle : n ∈ head :: (before ++ after) := mem_cycle (hn ▸ List.mem_cons_self)
  have hmem : ∀ x ∈ head :: (before ++ after), x ∈ head :: (before ++ entry :: after) :=
    fun x hx => hperm.mem_iff.mpr (List.mem_cons_of_mem _ hx)
  have hentrymem : entry ∈ head :: (before ++ entry :: after) :=
    hperm.mem_iff.mpr List.mem_cons_self
  obtain ⟨links', hdel, hwritten⟩ := exists_listDel (h.next_live hentrymem) hto.1 hfrom.2
    (h.next_live (hmem p hpcycle)) (h.next_live (hmem n hncycle))
  have hpaths := path_around hp hn hnodup ⟨hleft, hright⟩
    (fun x hx hne => by
      have hxentry : x ≠ entry := fun heq => hentry (heq ▸ hx)
      rw [hwritten.next x hxentry, if_neg hne])
    (fun x hx hne => by
      have hxentry : x ≠ entry := fun heq => hentry (heq ▸ hx)
      rw [hwritten.prev x hxentry, if_neg hne])
  refine ⟨links', hdel, ⟨hnodup, ?_⟩, hwritten.live, ?_⟩
  · have hcycle' : head :: (before ++ after) ++ [head] = A ++ p :: n :: B := cycle_eq hp hn []
    rw [hcycle']
    refine List.isChain_append_cons_cons.mpr ⟨hpaths.1, ⟨?_, ?_⟩, hpaths.2⟩
    · rw [hwritten.next p fun heq => hentry (heq ▸ hpcycle), if_pos rfl]
    · rw [hwritten.prev n fun heq => hentry (heq ▸ hncycle), if_pos rfl]
  · intro x hx
    exact hwritten.frame x (fun heq => hx (heq ▸ hentrymem))
      (fun heq => hx (heq ▸ hmem p hpcycle)) fun heq => hx (heq ▸ hmem n hncycle)

end OneRing

section AllRings

variable {links links' : Links α} {rings rings' left right : List (α × List α)}
  {ring : α × List α} {head new entry : α} {before after : List α}

@[simp] theorem footprint_append :
    footprint (left ++ right) = footprint left ++ footprint right :=
  List.flatMap_append

@[simp] theorem footprint_cons :
    footprint (ring :: rings) = ring.1 :: (ring.2 ++ footprint rings) :=
  List.flatMap_cons

theorem mem_footprint {x : α} :
    x ∈ footprint rings ↔ ∃ ring ∈ rings, x ∈ ring.1 :: ring.2 :=
  List.mem_flatMap

theorem footprint_insert : (footprint (left ++ (head, before ++ new :: after) :: right)).Perm
    (new :: footprint (left ++ (head, before ++ after) :: right)) := by
  simp only [footprint_append, footprint_cons]
  have hring : (head :: (before ++ new :: after ++ footprint right)).Perm
      (new :: head :: (before ++ after ++ footprint right)) := by
    refine List.Perm.trans (List.Perm.cons head ?_) (List.Perm.swap new head _)
    simp
  exact (List.Perm.append_left _ hring).trans List.perm_middle

theorem Rings.congr (h : Rings links rings)
    (hsame : ∀ x ∈ footprint rings, links' x = links x) : Rings links' rings where
  nodup := h.nodup
  ring := fun ring hring => (h.ring ring hring).congr fun x hx =>
    hsame x (mem_footprint.mpr ⟨ring, hring, hx⟩)

theorem Rings.live (h : Rings links rings) {x : α} (hx : x ∈ footprint rings) :
    (links x).isSome := by
  obtain ⟨ring, hring, hmem⟩ := mem_footprint.mp hx
  exact (h.ring ring hring).next_live hmem

theorem Rings.apart (h : Rings links (left ++ ring :: right)) {x : α}
    (hx : x ∈ footprint (left ++ right)) : x ∉ ring.1 :: ring.2 := by
  intro hmem
  have hperm : (footprint (left ++ ring :: right)).Perm
      (ring.1 :: ring.2 ++ footprint (left ++ right)) := by
    simp only [footprint_append, footprint_cons]
    rw [← List.cons_append]
    exact List.perm_append_comm_assoc _ _ _
  exact (List.nodup_append.mp (hperm.nodup_iff.mp h.nodup)).2.2 x hmem x hx rfl

theorem Rings.drop (h : Rings links (left ++ ring :: right)) : Rings links (left ++ right) where
  nodup := by
    refine h.nodup.sublist ?_
    simp only [footprint_append, footprint_cons, ← List.cons_append]
    exact List.Sublist.append_left (List.sublist_append_right _ _) _
  ring := fun other hother => h.ring other (by
    rcases List.mem_append.mp hother with hleft | hright
    · exact List.mem_append_left _ hleft
    · exact List.mem_append_right _ (List.mem_cons_of_mem _ hright))

theorem Rings.replace (h : Rings links (left ++ ring :: right)) {ring' : α × List α}
    (hring : Ring links' ring'.1 ring'.2)
    (hnodup : (footprint (left ++ ring' :: right)).Nodup)
    (hsame : ∀ x ∈ footprint (left ++ right), links' x = links x) :
    Rings links' (left ++ ring' :: right) where
  nodup := hnodup
  ring := by
    intro other hother
    rcases List.mem_append.mp hother with hleft | hright
    · exact (h.drop.congr hsame).ring other (List.mem_append_left _ hleft)
    · rcases List.mem_cons.mp hright with rfl | hright
      · exact hring
      · exact (h.drop.congr hsame).ring other (List.mem_append_right _ hright)

variable [DecidableEq α]

theorem Rings.init (h : Rings links (left ++ right)) {list : α}
    (hnew : list ∉ footprint (left ++ right)) (hlive : (links list).isSome) :
    ∃ links', initListHead list links = some links' ∧
      Rings links' (left ++ (list, []) :: right) ∧
      (∀ x, (links' x).isSome = (links x).isSome) ∧ ∀ x ≠ list, links' x = links x := by
  obtain ⟨links', hinit, hring, hlive', hframe⟩ := exists_initListHead hlive
  have hsame : ∀ x ∈ footprint (left ++ right), links' x = links x := fun x hx =>
    hframe x fun heq => hnew (heq ▸ hx)
  have hperm : (footprint (left ++ (list, []) :: right)).Perm
      (list :: footprint (left ++ right)) := by
    simp only [footprint_append, footprint_cons, List.nil_append]
    exact List.perm_middle
  have hnodup : (footprint (left ++ (list, []) :: right)).Nodup :=
    hperm.nodup_iff.mpr (List.nodup_cons.mpr ⟨hnew, h.nodup⟩)
  have hothers := h.congr hsame
  refine ⟨links', hinit, ⟨hnodup, ?_⟩, hlive', hframe⟩
  intro ring hmem
  rcases List.mem_append.mp hmem with hleft | hright
  · exact hothers.ring ring (List.mem_append_left _ hleft)
  · rcases List.mem_cons.mp hright with rfl | hright
    · exact hring
    · exact hothers.ring ring (List.mem_append_right _ hright)

theorem Rings.addTail (h : Rings links (left ++ (head, before ++ after) :: right))
    (hnew : new ∉ footprint (left ++ (head, before ++ after) :: right))
    (hlive : (links new).isSome) :
    ∃ links', listAddTail new (after.head?.getD head) links = some links' ∧
      Rings links' (left ++ (head, before ++ new :: after) :: right) ∧
      (∀ x, (links' x).isSome = (links x).isSome) ∧
      ∀ x ≠ new, x ∉ head :: (before ++ after) → links' x = links x := by
  have hring := h.ring (head, before ++ after) (by simp)
  have hnotin : new ∉ head :: (before ++ after) := fun hmem =>
    hnew (mem_footprint.mpr ⟨(head, before ++ after), by simp, hmem⟩)
  obtain ⟨links', hadd, hring', hlive', hframe⟩ := hring.addTail hnotin hlive
  refine ⟨links', hadd, ?_, hlive', hframe⟩
  refine h.replace hring' ?_ fun x hx => hframe x (fun heq => hnew ?_) (h.apart hx)
  · exact footprint_insert.nodup_iff.mpr (List.nodup_cons.mpr ⟨hnew, h.nodup⟩)
  · rw [← heq]
    obtain ⟨ring, hmem, hxring⟩ := mem_footprint.mp hx
    refine mem_footprint.mpr ⟨ring, ?_, hxring⟩
    rcases List.mem_append.mp hmem with hleft | hright
    · exact List.mem_append_left _ hleft
    · exact List.mem_append_right _ (List.mem_cons_of_mem _ hright)

theorem Rings.del (h : Rings links (left ++ (head, before ++ entry :: after) :: right)) :
    ∃ links', listDel entry links = some links' ∧
      Rings links' (left ++ (head, before ++ after) :: right) ∧
      (∀ x, (links' x).isSome = (links x).isSome) ∧
      ∀ x, x ∉ head :: (before ++ entry :: after) → links' x = links x := by
  have hring := h.ring (head, before ++ entry :: after) (by simp)
  obtain ⟨links', hdel, hring', hlive', hframe⟩ := hring.del
  refine ⟨links', hdel, ?_, hlive', hframe⟩
  refine h.replace hring' ?_ fun x hx => hframe x (h.apart hx)
  exact (List.nodup_cons.mp (footprint_insert.nodup_iff.mp h.nodup)).2

end AllRings

/-! ## All of the memory -/

/-- What is allocated: the rings, and some links that are in none. -/
structure Memory (links : Links α) (lists : List (α × List α)) (loose : List α) : Prop where
  rings : Rings links lists
  apart : ∀ a ∈ loose, a ∉ footprint lists
  nodup : loose.Nodup
  live : ∀ a, (links a).isSome ↔ a ∈ footprint lists ∨ a ∈ loose

section AllMemory

variable {links : Links α} {left right lists : List (α × List α)} {loose : List α}
  {a head new entry : α} {before after : List α}

theorem Memory.live_loose (h : Memory links lists (a :: loose)) : (links a).isSome :=
  (h.live a).mpr (.inr List.mem_cons_self)

theorem Memory.not_mem (h : Memory links lists (a :: loose)) : a ∉ footprint lists :=
  h.apart a List.mem_cons_self

/-- A list that has been emptied is one more link. -/
theorem Memory.drop (h : Memory links (left ++ (head, []) :: right) loose) :
    Memory links (left ++ right) (head :: loose) := by
  have hperm : (footprint (left ++ (head, []) :: right)).Perm
      (head :: footprint (left ++ right)) := by
    simp only [footprint_append, footprint_cons, List.nil_append]
    exact List.perm_middle
  obtain ⟨hhead, -⟩ := List.nodup_cons.mp (hperm.nodup_iff.mp h.rings.nodup)
  have hmem : ∀ x, x ∈ footprint (left ++ (head, []) :: right) ↔
      x = head ∨ x ∈ footprint (left ++ right) := fun x => by
    rw [hperm.mem_iff, List.mem_cons]
  have hloose : ∀ x ∈ loose, x ≠ head ∧ x ∉ footprint (left ++ right) := fun x hx => by
    have hnot := h.apart x hx
    rw [hmem] at hnot
    exact not_or.mp hnot
  exact {
    rings := h.rings.drop
    apart := List.forall_mem_cons.mpr ⟨hhead, fun x hx => (hloose x hx).2⟩
    nodup := List.nodup_cons.mpr ⟨fun hin => (hloose head hin).1 rfl, h.nodup⟩
    live := fun x => by rw [h.live, hmem, List.mem_cons, or_assoc, or_left_comm] }

theorem mem_insert_iff {x : α} : x ∈ footprint (left ++ (head, before ++ new :: after) :: right) ↔
    x = new ∨ x ∈ footprint (left ++ (head, before ++ after) :: right) := by
  rw [footprint_insert.mem_iff, List.mem_cons]

variable [DecidableEq α]

theorem Memory.allocate (h : Memory links lists loose) (ha : links a = none) :
    Memory (LinkedList.allocate a links) lists (a :: loose) := by
  have hnot : ¬ (a ∈ footprint lists ∨ a ∈ loose) := by
    rw [← h.live, ha]
    simp
  obtain ⟨hrings, hloose⟩ := not_or.mp hnot
  exact {
    rings := h.rings.congr fun x hx => by
      have hne : x ≠ a := fun heq => hrings (heq ▸ hx)
      simp [LinkedList.allocate, hne]
    apart := List.forall_mem_cons.mpr ⟨hrings, h.apart⟩
    nodup := List.nodup_cons.mpr ⟨hloose, h.nodup⟩
    live := fun x => by
      by_cases hx : x = a
      · simp [LinkedList.allocate, hx]
      · simp [LinkedList.allocate, hx, h.live] }

theorem Memory.free (h : Memory links lists (a :: loose)) :
    ∃ links', LinkedList.free a links = some links' ∧ Memory links' lists loose := by
  obtain ⟨hloose, hnodup⟩ := List.nodup_cons.mp h.nodup
  refine ⟨Function.update links a none, by simp [LinkedList.free, h.live_loose], ?_⟩
  exact {
    rings := h.rings.congr fun x hx => by
      have hne : x ≠ a := fun heq => h.not_mem (heq ▸ hx)
      simp [hne]
    apart := fun x hx => h.apart x (List.mem_cons_of_mem _ hx)
    nodup := hnodup
    live := fun x => by
      by_cases hx : x = a
      · simp [hx, hloose, h.not_mem]
      · simp [hx, h.live] }

theorem live_of_free {links' : Links α} (hfree : LinkedList.free a links = some links') {x : α}
    (hlive : (links' x).isSome) : (links x).isSome := by
  rw [LinkedList.free] at hfree
  split at hfree
  · obtain rfl := Option.some.inj hfree
    by_cases hx : x = a
    · simp [hx] at hlive
    · simpa [hx] using hlive
  · cases hfree

theorem Memory.init (h : Memory links (left ++ right) (a :: loose)) :
    ∃ links', initListHead a links = some links' ∧
      Memory links' (left ++ (a, []) :: right) loose ∧
      ∀ x, (links' x).isSome = (links x).isSome := by
  obtain ⟨links', hinit, hrings, hlive, -⟩ := h.rings.init h.not_mem h.live_loose
  obtain ⟨hloose, hnodup⟩ := List.nodup_cons.mp h.nodup
  have hmem : ∀ x, x ∈ footprint (left ++ (a, []) :: right) ↔
      x = a ∨ x ∈ footprint (left ++ right) := fun x => by
    simp only [footprint_append, footprint_cons, List.nil_append, List.mem_append, List.mem_cons]
    rw [or_left_comm]
  refine ⟨links', hinit, ⟨hrings, fun x hx => ?_, hnodup, fun x => ?_⟩, hlive⟩
  · rw [hmem]
    exact not_or.mpr ⟨fun heq => hloose (heq ▸ hx), h.apart x (List.mem_cons_of_mem _ hx)⟩
  · rw [hlive, h.live, hmem, List.mem_cons, or_assoc, or_left_comm]

theorem Memory.addTail
    (h : Memory links (left ++ (head, before ++ after) :: right) (new :: loose)) :
    ∃ links', listAddTail new (after.head?.getD head) links = some links' ∧
      Memory links' (left ++ (head, before ++ new :: after) :: right) loose ∧
      ∀ x, (links' x).isSome = (links x).isSome := by
  obtain ⟨links', hadd, hrings, hlive, -⟩ := h.rings.addTail h.not_mem h.live_loose
  obtain ⟨hloose, hnodup⟩ := List.nodup_cons.mp h.nodup
  refine ⟨links', hadd, ⟨hrings, fun x hx => ?_, hnodup, fun x => ?_⟩, hlive⟩
  · rw [mem_insert_iff]
    exact not_or.mpr ⟨fun heq => hloose (heq ▸ hx), h.apart x (List.mem_cons_of_mem _ hx)⟩
  · rw [hlive, h.live, mem_insert_iff, List.mem_cons, or_assoc, or_left_comm]

theorem Memory.del (h : Memory links (left ++ (head, before ++ entry :: after) :: right) loose) :
    ∃ links', listDel entry links = some links' ∧
      Memory links' (left ++ (head, before ++ after) :: right) (entry :: loose) ∧
      ∀ x, (links' x).isSome = (links x).isSome := by
  obtain ⟨links', hdel, hrings, hlive, -⟩ := h.rings.del
  obtain ⟨hentry, -⟩ := List.nodup_cons.mp (footprint_insert.nodup_iff.mp h.rings.nodup)
  have hloose : ∀ x ∈ loose,
      x ≠ entry ∧ x ∉ footprint (left ++ (head, before ++ after) :: right) := fun x hx => by
    have hnot := h.apart x hx
    rw [mem_insert_iff] at hnot
    exact not_or.mp hnot
  refine ⟨links', hdel, ⟨hrings, ?_, ?_, fun x => ?_⟩, hlive⟩
  · exact List.forall_mem_cons.mpr ⟨hentry, fun x hx => (hloose x hx).2⟩
  · exact List.nodup_cons.mpr ⟨fun hin => (hloose entry hin).1 rfl, h.nodup⟩
  · rw [hlive, h.live, mem_insert_iff, List.mem_cons, or_assoc, or_left_comm]

end AllMemory

section Traversing

variable {β : Type} {links : Links α} {head : α} {elems before after : List α}
  {visit : α → Option (Option β)} {result : α → Option β} {fuel : Nat}

theorem Ring.next_of_split (h : Ring links head (before ++ after)) :
    next links ((head :: before).getLast (List.cons_ne_nil _ _)) =
      some (after.head?.getD head) := by
  obtain ⟨A, p, n, B, hp, hn, -, hnext⟩ := exists_around head before after
  have hpath := h.path
  rw [show head :: (before ++ after) ++ [head] = A ++ p :: n :: B from cycle_eq hp hn []] at hpath
  have hlast : (head :: before).getLast (List.cons_ne_nil _ _) = p := by
    simp only [hp, List.getLast_append_singleton]
  rw [hlast, ← hnext]
  exact (List.isChain_append_cons_cons.mp hpath).2.1.1

theorem Ring.next_head (h : Ring links head elems) :
    next links head = some (elems.head?.getD head) := by
  have hring : Ring links head ([] ++ elems) := h
  simpa using hring.next_of_split

theorem Ring.next_elem {x : α} (h : Ring links head (before ++ x :: after)) :
    next links x = some (after.head?.getD head) := by
  have hring : Ring links head ((before ++ [x]) ++ after) := by simpa using h
  simpa using hring.next_of_split

variable [DecidableEq α]

private theorem walk_spec (h : Ring links head (before ++ after))
    (hvisit : ∀ x ∈ after, visit x = some (result x)) (hfuel : after.length < fuel) :
    walk links head visit fuel (after.head?.getD head) = some (after.findSome? result) := by
  induction after generalizing before fuel with
  | nil =>
    obtain ⟨fuel, rfl⟩ : ∃ n, fuel = n + 1 := ⟨fuel - 1, by simp at hfuel; omega⟩
    simp [walk]
  | cons x rest ih =>
    obtain ⟨fuel, rfl⟩ : ∃ n, fuel = n + 1 := ⟨fuel - 1, by simp at hfuel; omega⟩
    have hne : x ≠ head := fun heq =>
      (List.nodup_cons.mp h.nodup).1 (heq ▸ List.mem_append_right _ List.mem_cons_self)
    have hring : Ring links head ((before ++ [x]) ++ rest) := by simpa using h
    have hrest := ih hring (fun y hy => hvisit y (List.mem_cons_of_mem _ hy))
      (by simpa using hfuel)
    simp only [List.head?_cons, Option.getD_some, walk, if_neg hne, hvisit x List.mem_cons_self,
      Option.bind_eq_bind, Option.bind_some, h.next_elem, hrest]
    cases hx : result x with
    | some y => simp [hx]
    | none => simp [hx]

theorem listForEach_spec (h : Ring links head elems)
    (hvisit : ∀ x ∈ elems, visit x = some (result x)) (hfuel : elems.length < fuel) :
    listForEach links head visit fuel = some (elems.findSome? result) := by
  have hring : Ring links head ([] ++ elems) := h
  simp only [listForEach, h.next_head, Option.bind_eq_bind, Option.bind_some]
  exact walk_spec hring hvisit hfuel

variable {Mem : Type} {linksOf : Mem → Links α} {body : α → Mem → Option Mem}
  {Inv : List α → Mem → Prop}

private theorem walkSafe_spec (hring : ∀ rest mem, Inv rest mem → Ring (linksOf mem) head rest)
    (hbody : ∀ x rest mem, Inv (x :: rest) mem → ∃ mem', body x mem = some mem' ∧ Inv rest mem')
    {mem : Mem} (hinv : Inv elems mem) (hfuel : elems.length < fuel) :
    ∃ n mem', next (linksOf mem) (elems.head?.getD head) = some n ∧
      walkSafe linksOf head body fuel (elems.head?.getD head) n mem = some mem' ∧ Inv [] mem' := by
  induction elems generalizing fuel mem with
  | nil =>
    obtain ⟨fuel, rfl⟩ : ∃ n, fuel = n + 1 := ⟨fuel - 1, by simp at hfuel; omega⟩
    exact ⟨_, mem, (hring _ _ hinv).next_head, by simp [walkSafe], hinv⟩
  | cons x rest ih =>
    obtain ⟨fuel, rfl⟩ : ∃ n, fuel = n + 1 := ⟨fuel - 1, by simp at hfuel; omega⟩
    have hx := hring _ _ hinv
    have hne : x ≠ head := fun heq => (List.nodup_cons.mp hx.nodup).1 (heq ▸ List.mem_cons_self)
    obtain ⟨mem', hmem', hinv'⟩ := hbody x rest mem hinv
    obtain ⟨n, final, hn, hwalk, hdone⟩ := ih hinv' (by simpa using hfuel)
    have hnext : next (linksOf mem) x = some (rest.head?.getD head) := by
      have hring' : Ring (linksOf mem) head ([] ++ x :: rest) := hx
      exact hring'.next_elem
    refine ⟨_, final, hnext, ?_, hdone⟩
    simp only [List.head?_cons, Option.getD_some, walkSafe, if_neg hne, hmem',
      Option.bind_eq_bind, Option.bind_some, hn, hwalk]

/-- A body that takes its element out of the ring is run on every element. -/
theorem listForEachSafe_spec
    (hring : ∀ rest mem, Inv rest mem → Ring (linksOf mem) head rest)
    (hbody : ∀ x rest mem, Inv (x :: rest) mem → ∃ mem', body x mem = some mem' ∧ Inv rest mem')
    {mem : Mem} (hinv : Inv elems mem) (hfuel : elems.length < fuel) :
    ∃ mem', listForEachSafe linksOf head body fuel mem = some mem' ∧ Inv [] mem' := by
  obtain ⟨n, mem', hn, hwalk, hdone⟩ := walkSafe_spec hring hbody hinv hfuel
  refine ⟨mem', ?_, hdone⟩
  simp only [listForEachSafe, (hring _ _ hinv).next_head, Option.bind_eq_bind, Option.bind_some,
    hn, hwalk]

end Traversing

end Idlestat.Library.LinkedList
