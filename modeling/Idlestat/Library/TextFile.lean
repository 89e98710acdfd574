import Mathlib.Data.List.Basic
import Mathlib.Tactic.Common

/-! Reading a text file with `fgets`, and the C strings that end up in the
buffer. -/
namespace Idlestat.Library.TextFile

def takeLine : Nat → List Char → List Char × List Char
  | 0, file => ([], file)
  | _, [] => ([], [])
  | room + 1, c :: file =>
    if c = '\n' then ([c], file)
    else (c :: (takeLine room file).1, (takeLine room file).2)

/-- The results of calling `fgets` until it fails, with room for `room` more
bytes in the first one. -/
def readsFrom (size : Nat) : Nat → List Char → List (List Char)
  | _, [] => []
  | room, c :: file =>
    if c = '\n' ∨ room ≤ 1 then [c] :: readsFrom size (size - 1) file
    else
      match readsFrom size (room - 1) file with
      | [] => [[c]]
      | line :: lines => (c :: line) :: lines

def reads (size : Nat) (file : List Char) : List (List Char) :=
  readsFrom size (size - 1) file

/-- A buffer holds a C string, which ends at the first NUL. -/
def cString (line : List Char) : List Char :=
  line.takeWhile fun c => c ≠ '\x00'

def buffers (size : Nat) (file : List Char) : List (List Char) :=
  (reads size file).map cString

section Reads

variable {size room : Nat} {file rest : List Char}

theorem readsFrom_eq (hroom : 0 < room) (hfile : file ≠ []) :
    readsFrom size room file =
      (takeLine room file).1 :: readsFrom size (size - 1) (takeLine room file).2 := by
  induction file generalizing room with
  | nil => exact absurd rfl hfile
  | cons c file ih =>
    obtain ⟨room, rfl⟩ := Nat.exists_eq_succ_of_ne_zero (Nat.pos_iff_ne_zero.mp hroom)
    by_cases hend : c = '\n'
    · simp [readsFrom, takeLine, hend]
    · by_cases hlast : room = 0
      · simp [readsFrom, takeLine, hend, hlast]
      · have hmore : ¬ room + 1 ≤ 1 := by omega
        simp only [readsFrom, hmore, takeLine, hend, Nat.succ_eq_add_one, Nat.add_sub_cancel,
          or_self, if_false]
        by_cases hnil : file = []
        · subst hnil
          cases room <;> simp [readsFrom, takeLine]
        · rw [ih (Nat.pos_of_ne_zero hlast) hnil]

theorem takeLine_line {body : List Char} (hbody : '\n' ∉ body) (hlen : body.length < room) :
    takeLine room (body ++ '\n' :: rest) = (body ++ ['\n'], rest) := by
  induction body generalizing room with
  | nil =>
    obtain ⟨room, rfl⟩ := Nat.exists_eq_succ_of_ne_zero (show room ≠ 0 by simp at hlen; omega)
    simp [takeLine]
  | cons c body ih =>
    obtain ⟨room, rfl⟩ := Nat.exists_eq_succ_of_ne_zero (show room ≠ 0 by omega)
    have hne : c ≠ '\n' := fun heq => hbody (heq ▸ List.mem_cons_self)
    have hrest := ih (fun hmem => hbody (List.mem_cons_of_mem _ hmem)) (by simpa using hlen)
    simp [takeLine, hne, hrest]

theorem reads_line {body : List Char} (hbody : '\n' ∉ body) (hlen : body.length + 1 < size) :
    reads size (body ++ '\n' :: rest) = (body ++ ['\n']) :: reads size rest := by
  have hline : takeLine (size - 1) (body ++ '\n' :: rest) = (body ++ ['\n'], rest) :=
    takeLine_line hbody (by omega)
  rw [reads, readsFrom_eq (by omega) (by simp), hline]
  rfl

theorem cString_of_no_nul {line : List Char} (h : '\x00' ∉ line) : cString line = line := by
  induction line with
  | nil => rfl
  | cons c line ih =>
    have hc : c ≠ '\x00' := fun heq => h (heq ▸ List.mem_cons_self)
    have hline := ih fun hmem => h (List.mem_cons_of_mem _ hmem)
    rw [cString, List.takeWhile_cons_of_pos (by simpa using hc), ← cString, hline]

theorem buffers_line {body : List Char} (hbody : '\n' ∉ body) (hnul : '\x00' ∉ body)
    (hlen : body.length + 1 < size) :
    buffers size (body ++ '\n' :: rest) = (body ++ ['\n']) :: buffers size rest := by
  have hwhole : '\x00' ∉ body ++ ['\n'] := by simp [hnul]
  rw [buffers, reads_line hbody hlen, List.map_cons, cString_of_no_nul hwhole]
  rfl

/-- A line that reaches the buffer as it is. -/
def WholeLine (size : Nat) (line : List Char) : Prop :=
  ∃ body, line = body ++ ['\n'] ∧ '\n' ∉ body ∧ '\x00' ∉ body ∧ body.length + 1 < size

theorem buffers_flatten {lines : List (List Char)} (h : ∀ line ∈ lines, WholeLine size line) :
    buffers size (lines.flatten ++ rest) = lines ++ buffers size rest := by
  induction lines with
  | nil => rfl
  | cons line lines ih =>
    obtain ⟨body, rfl, hnewline, hnul, hlen⟩ := h line (by simp)
    have hrest := ih fun line hline => h line (by simp [hline])
    rw [List.flatten_cons, List.append_assoc, List.append_assoc, List.singleton_append,
      buffers_line hnewline hnul hlen, hrest]
    rfl

/-! ## Lines of any length -/

theorem readsFrom_cons (size room : Nat) (c : Char) (file : List Char) :
    ∃ line lines, readsFrom size room (c :: file) = (c :: line) :: lines := by
  simp only [readsFrom]
  split
  · exact ⟨[], _, rfl⟩
  · split
    · exact ⟨[], [], rfl⟩
    · exact ⟨_, _, rfl⟩

theorem readsFrom_append (body rest : List Char) :
    readsFrom size room (body ++ '\n' :: rest) =
      readsFrom size room (body ++ ['\n']) ++ reads size rest := by
  induction body generalizing room with
  | nil => simp [readsFrom, reads]
  | cons c body ih =>
    simp only [List.cons_append, readsFrom, ih]
    split
    · rfl
    · obtain ⟨x, tail, hcons⟩ := List.exists_cons_of_ne_nil (show body ++ ['\n'] ≠ [] by simp)
      obtain ⟨line, lines, heq⟩ := readsFrom_cons size (room - 1) x tail
      simp [hcons, heq]

theorem reads_append (body rest : List Char) :
    reads size (body ++ '\n' :: rest) = reads size (body ++ ['\n']) ++ reads size rest :=
  readsFrom_append body rest

/-- In text that ends with a newline, a read ends with one or fills the buffer. -/
theorem readsFrom_full (hsize : 1 < size) (hroom : 0 < room) (body : List Char) :
    ∃ first others, readsFrom size room (body ++ ['\n']) = first :: others ∧
      (first.getLast? = some '\n' ∨ first.length = room) ∧
      ∀ line ∈ others, line.getLast? = some '\n' ∨ line.length = size - 1 := by
  induction body generalizing room with
  | nil => exact ⟨['\n'], [], by simp [readsFrom], by simp, by simp⟩
  | cons c body ih =>
    rw [List.cons_append, readsFrom]
    split
    · next hend =>
      obtain ⟨first, others, heq, hfirst, hothers⟩ := ih (show 0 < size - 1 by omega)
      refine ⟨[c], first :: others, by rw [heq], ?_, ?_⟩
      · cases hend with
        | inl hc => exact .inl (by rw [hc]; rfl)
        | inr hlast => exact .inr (by simp only [List.length_singleton]; omega)
      · rw [List.forall_mem_cons]
        exact ⟨hfirst, hothers⟩
    · next hmore =>
      obtain ⟨first, others, heq, hfirst, hothers⟩ := ih (show 0 < room - 1 by omega)
      refine ⟨c :: first, others, by rw [heq], ?_, hothers⟩
      cases hfirst with
      | inl hlast =>
        have hne : first ≠ [] := by
          intro hnil
          rw [hnil] at hlast
          cases hlast
        rw [List.getLast?_cons_of_ne_nil hne]
        exact .inl hlast
      | inr hlength => exact .inr (by simp only [List.length_cons]; omega)

theorem reads_full (hsize : 1 < size) (body : List Char) :
    ∀ line ∈ reads size (body ++ ['\n']), line.getLast? = some '\n' ∨ line.length + 1 = size := by
  obtain ⟨first, others, heq, hfirst, hothers⟩ :=
    readsFrom_full hsize (show 0 < size - 1 by omega) body
  rw [reads, heq]
  intro line hline
  have hfull : line.getLast? = some '\n' ∨ line.length = size - 1 := by
    cases List.mem_cons.mp hline with
    | inl h => rwa [h]
    | inr h => exact hothers line h
  exact hfull.imp_right fun h => by omega

/-! ## Reads written back -/

/-- A read that text behind it does not change: it has its newline or is full. -/
def IsRead (size : Nat) (line : List Char) : Prop :=
  (∃ body, line = body ++ ['\n'] ∧ '\n' ∉ body ∧ line.length < size) ∨
    '\n' ∉ line ∧ line.length + 1 = size

theorem takeLine_full {line : List Char} (hline : '\n' ∉ line) :
    takeLine line.length (line ++ rest) = (line, rest) := by
  induction line with
  | nil => cases rest <;> rfl
  | cons c line ih =>
    have hc : c ≠ '\n' := fun heq => hline (heq ▸ List.mem_cons_self)
    have hrest := ih fun hmem => hline (List.mem_cons_of_mem _ hmem)
    simp [takeLine, hc, hrest]

theorem takeLine_isRead {line : List Char} (h : IsRead size line) :
    takeLine (size - 1) (line ++ rest) = (line, rest) := by
  rcases h with ⟨body, rfl, hbody, hlen⟩ | ⟨hline, hlen⟩
  · rw [List.append_assoc, List.singleton_append]
    rw [List.length_append, List.length_singleton] at hlen
    exact takeLine_line hbody (by omega)
  · have hroom : size - 1 = line.length := by omega
    rw [hroom]
    exact takeLine_full hline

theorem isRead_ne_nil (hsize : 1 < size) {line : List Char} (h : IsRead size line) :
    line ≠ [] := by
  rintro rfl
  rcases h with ⟨body, hbody, -, -⟩ | ⟨-, hlen⟩
  · simp at hbody
  · simp only [List.length_nil] at hlen
    omega

/-- Reads that are written in any order are read again as they were. -/
theorem reads_flatten (hsize : 1 < size) {lines : List (List Char)}
    (h : ∀ line ∈ lines, IsRead size line) :
    reads size (lines.flatten ++ rest) = lines ++ reads size rest := by
  induction lines with
  | nil => rfl
  | cons line lines ih =>
    have hline : IsRead size line := h line List.mem_cons_self
    have hrest := ih fun line' hmem => h line' (List.mem_cons_of_mem _ hmem)
    have hne : line ++ (lines.flatten ++ rest) ≠ [] := by
      simp [isRead_ne_nil hsize hline]
    rw [List.flatten_cons, List.append_assoc, reads, readsFrom_eq (by omega) hne,
      takeLine_isRead hline, List.cons_append, ← hrest]
    rfl

theorem takeLine_spec (room : Nat) (file : List Char) :
    file = (takeLine room file).1 ++ (takeLine room file).2 ∧
      ((∃ body, (takeLine room file).1 = body ++ ['\n'] ∧ '\n' ∉ body ∧
          (takeLine room file).1.length ≤ room) ∨
        '\n' ∉ (takeLine room file).1 ∧
          ((takeLine room file).1.length = room ∨ (takeLine room file).2 = [])) := by
  induction file generalizing room with
  | nil => cases room <;> simp [takeLine]
  | cons c file ih =>
    cases room with
    | zero => simp [takeLine]
    | succ room =>
      by_cases hc : c = '\n'
      · refine ⟨by simp [takeLine, hc], .inl ⟨[], ?_⟩⟩
        simp [takeLine, hc]
      · obtain ⟨hfile, hread⟩ := ih room
        simp only [takeLine, hc, if_false, List.cons_append, ← hfile, true_and]
        rcases hread with ⟨body, hbody, hnewline, hlen⟩ | ⟨hnewline, hend⟩
        · refine .inl ⟨c :: body, by rw [hbody]; rfl, ?_, ?_⟩
          · simp [Ne.symm hc, hnewline]
          · rw [List.length_cons]
            omega
        · refine .inr ⟨by simp [Ne.symm hc, hnewline], ?_⟩
          exact hend.imp_left fun hfull => by rw [List.length_cons, hfull]

theorem isRead_of_reads (hsize : 1 < size) (hfile : ∀ c ∈ file.getLast?, c = '\n') :
    ∀ line ∈ reads size file, IsRead size line ∧ line ⊆ file := by
  induction hn : file.length using Nat.strongRecOn generalizing file with
  | _ n ih =>
    subst hn
    by_cases hnil : file = []
    · simp [hnil, reads, readsFrom]
    · obtain ⟨hsplit, hread⟩ := takeLine_spec (size - 1) file
      generalize hline : (takeLine (size - 1) file).1 = line at hsplit hread
      generalize hleft : (takeLine (size - 1) file).2 = left at hsplit hread
      have hreads : reads size file = line :: reads size left := by
        rw [reads, readsFrom_eq (by omega) hnil, hline, hleft]
        rfl
      have hend : ∀ c ∈ left.getLast?, c = '\n' := by
        intro c hc
        apply hfile c
        rw [hsplit, List.getLast?_append, hc]
        rfl
      have hisRead : IsRead size line := by
        rcases hread with ⟨body, hbody, hnewline, hlen⟩ | ⟨hnewline, hfull | hlast⟩
        · exact .inl ⟨body, hbody, hnewline, by omega⟩
        · exact .inr ⟨hnewline, by omega⟩
        · rw [hlast, List.append_nil] at hsplit
          subst hsplit
          have hmem := List.getLast_mem hnil
          rw [hfile _ (List.getLast?_eq_some_getLast hnil)] at hmem
          exact absurd hmem hnewline
      have hshorter : left.length < file.length := by
        have hpos := List.length_pos_of_ne_nil (isRead_ne_nil hsize hisRead)
        rw [hsplit, List.length_append]
        omega
      have hrest := ih left.length hshorter hend rfl
      rw [hreads, List.forall_mem_cons]
      refine ⟨⟨hisRead, ?_⟩, fun line' hline' => ?_⟩
      · rw [hsplit]
        exact List.subset_append_left _ _
      · obtain ⟨hisRead', hsub⟩ := hrest line' hline'
        refine ⟨hisRead', fun c hc => ?_⟩
        rw [hsplit]
        exact List.mem_append_right _ (hsub hc)

theorem buffers_of_no_nul (h : ∀ line ∈ reads size file, '\x00' ∉ line) :
    buffers size file = reads size file := by
  unfold buffers
  conv_rhs => rw [← List.map_id (reads size file)]
  exact List.map_congr_left fun line hline => cString_of_no_nul (h line hline)

theorem buffers_sublist (hsize : 1 < size) (hfile : ∀ c ∈ file.getLast?, c = '\n')
    (hnul : '\x00' ∉ file) {lines : List (List Char)} (hlines : lines ⊆ buffers size file) :
    buffers size (lines.flatten ++ rest) = lines ++ buffers size rest := by
  have hread := isRead_of_reads hsize hfile
  have hclean : ∀ line ∈ reads size file, '\x00' ∉ line := fun line hline hmem =>
    hnul ((hread line hline).2 hmem)
  rw [buffers_of_no_nul hclean] at hlines
  have hback : reads size (lines.flatten ++ rest) = lines ++ reads size rest :=
    reads_flatten hsize fun line hline => (hread line (hlines hline)).1
  have hself : lines.map cString = lines := by
    conv_rhs => rw [← List.map_id lines]
    exact List.map_congr_left fun line hline => cString_of_no_nul (hclean line (hlines hline))
  rw [buffers, hback, List.map_append, hself]
  rfl

end Reads

end Idlestat.Library.TextFile
