import Mathlib

/-!
# Searching a sequence

`find` and the split at a separator, as `bytes` and `str` have them, over any alphabet.
-/

namespace Search

variable {α : Type} [DecidableEq α]

/-- `s.find(pattern)`: the first place at which the pattern stands. -/
def find (pattern : List α) : List α → Option Nat
  | [] => if pattern = [] then some 0 else none
  | a :: rest =>
    if pattern.isPrefixOf (a :: rest) then some 0 else (find pattern rest).map (· + 1)

/-- `s.split(separator, 1)`, where the separator is there. -/
def cut (separator : α) : List α → Option (List α × List α)
  | [] => none
  | a :: rest =>
    if a = separator then some ([], rest)
    else (cut separator rest).map fun parts => (a :: parts.1, parts.2)

theorem find_eq_some {pattern s : List α} {n : Nat} (h : find pattern s = some n) :
    ∃ before after, s = before ++ (pattern ++ after) ∧ before.length = n := by
  induction s generalizing n with
  | nil =>
    rw [find] at h
    split at h
    · rename_i empty
      cases h
      exact ⟨[], [], by rw [empty]; rfl, rfl⟩
    · cases h
  | cons a rest ih =>
    rw [find] at h
    split at h
    · rename_i here
      cases h
      obtain ⟨after, stands⟩ := List.isPrefixOf_iff_prefix.mp here
      exact ⟨[], after, stands.symm, rfl⟩
    · obtain ⟨m, found, rfl⟩ := Option.map_eq_some_iff.mp h
      obtain ⟨before, after, rfl, place⟩ := ih found
      exact ⟨a :: before, after, rfl, congrArg (· + 1) place⟩

/-- A blank line is found no earlier than in the text behind a line that another follows. -/
theorem find_line {b c : α} {line rest : List α} (free : b ∉ line) (other : c ≠ b) :
    find [b, b] (line ++ b :: c :: rest) =
      (find [b, b] (c :: rest)).map (· + (line.length + 1)) := by
  induction line with
  | nil =>
    have not_here : [b, b].isPrefixOf (b :: c :: rest) = false := by
      simp [List.isPrefixOf, Ne.symm other]
    rw [List.nil_append, find, not_here]
    rfl
  | cons a line ih =>
    obtain ⟨first, later⟩ := not_or.mp (List.mem_cons.not.mp free)
    have not_here : [b, b].isPrefixOf (a :: (line ++ b :: c :: rest)) = false := by
      simp [List.isPrefixOf, first]
    rw [List.cons_append, find, not_here, ih later]
    simp only [Bool.false_eq_true, if_false, Option.map_map, List.length_cons]
    rfl

theorem find_last_line {b : α} {line rest : List α} (free : b ∉ line) :
    find [b, b] (line ++ b :: b :: rest) = some line.length := by
  induction line with
  | nil => simp [find, List.isPrefixOf]
  | cons a line ih =>
    obtain ⟨first, later⟩ := not_or.mp (List.mem_cons.not.mp free)
    have not_here : [b, b].isPrefixOf (a :: (line ++ b :: b :: rest)) = false := by
      simp [List.isPrefixOf, first]
    rw [List.cons_append, find, not_here, ih later]
    rfl

/-- A letter never follows itself. -/
def Apart (a : α) (s : List α) : Prop := s.IsChain fun b c => ¬ (b = a ∧ c = a)

instance (a : α) (s : List α) : Decidable (Apart a s) :=
  inferInstanceAs (Decidable (s.IsChain fun b c => ¬ (b = a ∧ c = a)))

omit [DecidableEq α] in
theorem Apart.append {a : α} {s rest : List α} (first : Apart a s) (free : ∀ b ∈ s.getLast?, b ≠ a)
    (later : Apart a rest) : Apart a (s ++ rest) :=
  List.isChain_append.mpr ⟨first, later, fun b last _ _ both => free b last both.1⟩

omit [DecidableEq α] in
theorem apart_of_free {a : α} {s : List α} (free : ∀ b ∈ s, b ≠ a) : Apart a s := by
  induction s with
  | nil => exact .nil
  | cons b s ih =>
    obtain ⟨first, later⟩ := List.forall_mem_cons.mp free
    exact List.isChain_cons.mpr ⟨fun _ _ both => first both.1, ih later⟩

omit [DecidableEq α] in
theorem apart_free_append {a : α} {s rest : List α} (free : ∀ b ∈ s, b ≠ a) (later : Apart a rest) :
    Apart a (s ++ rest) :=
  (apart_of_free free).append (fun b last => free b (List.mem_of_getLast? last)) later

omit [DecidableEq α] in
/-- The letter may stand in front of others. -/
theorem apart_cons {a : α} {s rest : List α} (free : ∀ b ∈ s, b ≠ a) (nonempty : s ≠ [])
    (later : Apart a (s ++ rest)) : Apart a (a :: (s ++ rest)) := by
  refine List.isChain_cons.mpr ⟨fun b here both => ?_, later⟩
  cases s with
  | nil => exact nonempty rfl
  | cons c s =>
    cases here
    exact free _ List.mem_cons_self both.2

/-- A letter that never follows itself does not stand twice. -/
theorem find_twice_eq_none {a : α} {s : List α} (apart : Apart a s) : find [a, a] s = none := by
  induction s with
  | nil => rfl
  | cons b rest ih =>
    cases rest with
    | nil => simp [find, List.isPrefixOf]
    | cons c rest =>
      obtain ⟨first, later⟩ := List.isChain_cons_cons.mp apart
      have not_here : [a, a].isPrefixOf (b :: c :: rest) = false := by
        simp only [List.isPrefixOf, Bool.and_true, Bool.and_eq_false_iff, beq_eq_false_iff_ne]
        by_contra both
        simp only [not_or, not_not] at both
        exact first ⟨both.1.symm, both.2.symm⟩
      rw [find, not_here, ih later]
      rfl

theorem cut_append {separator : α} {before after : List α} (free : separator ∉ before) :
    cut separator (before ++ separator :: after) = some (before, after) := by
  induction before with
  | nil => simp [cut]
  | cons a before ih =>
    obtain ⟨first, later⟩ := not_or.mp (List.mem_cons.not.mp free)
    rw [List.cons_append, cut, if_neg (Ne.symm first), ih later]
    rfl

theorem cut_eq_some {separator : α} {s before after : List α}
    (h : cut separator s = some (before, after)) : s = before ++ separator :: after := by
  induction s generalizing before after with
  | nil => cases h
  | cons a rest ih =>
    rw [cut] at h
    split at h
    · rename_i here
      cases h
      rw [here]
      rfl
    · obtain ⟨⟨first, last⟩, found, ⟨⟩⟩ := Option.map_eq_some_iff.mp h
      rw [ih found]
      rfl

/-- The fields of a split hold no separator. -/
theorem not_mem_of_mem_splitOn {separator : α} {s field : List α}
    (h : field ∈ s.splitOn separator) : separator ∉ field := by
  induction s generalizing field with
  | nil =>
    rw [List.splitOn_nil, List.mem_singleton] at h
    subst h
    exact List.not_mem_nil
  | cons a rest ih =>
    rw [List.splitOn_cons_eq_if_modifyHead] at h
    split at h
    · rcases List.mem_cons.mp h with rfl | later
      · exact List.not_mem_nil
      · exact ih later
    · rename_i other
      cases fields : rest.splitOn separator with
      | nil => exact absurd fields (List.splitOn_ne_nil _ _)
      | cons first more =>
        rw [fields] at h ih
        rcases List.mem_cons.mp h with rfl | later
        · refine fun inside => ?_
          rcases List.mem_cons.mp inside with rfl | later
          · exact other (beq_self_eq_true _)
          · exact ih List.mem_cons_self later
        · exact ih (List.mem_cons_of_mem _ later)

theorem mem_of_mem_splitOn {sep a : α} {xs part : List α}
    (held : part ∈ xs.splitOn sep) (here : a ∈ part) : a ∈ xs := by
  induction xs generalizing part with
  | nil =>
    rw [List.splitOn_nil] at held
    rw [List.mem_singleton.mp held] at here
    cases here
  | cons x xs ih =>
    rw [List.splitOn_cons_eq_if_modifyHead] at held
    split at held
    · rcases List.mem_cons.mp held with rfl | held
      · cases here
      · exact List.mem_cons_of_mem _ (ih held here)
    · cases parts : xs.splitOn sep with
      | nil => exact absurd parts (List.splitOn_ne_nil _ _)
      | cons first rest =>
        rw [parts, List.modifyHead_cons] at held
        rcases List.mem_cons.mp held with rfl | held
        · rcases List.mem_cons.mp here with rfl | here
          · exact List.mem_cons_self
          · exact List.mem_cons_of_mem _ (ih (parts ▸ List.mem_cons_self) here)
        · exact List.mem_cons_of_mem _ (ih (parts ▸ List.mem_cons_of_mem _ held) here)

omit [DecidableEq α] in
/-- Some lists in their order are not longer together than all of them. -/
theorem length_intercalate_sublist {sep : List α} {xs ys : List (List α)}
    (some_of : xs.Sublist ys) : (sep.intercalate xs).length ≤ (sep.intercalate ys).length := by
  induction some_of with
  | slnil => exact Nat.le_refl _
  | @cons xs ys y _ ih =>
    by_cases h : ys = []
    · subst h
      simp only [List.intercalate_nil, List.length_nil, Nat.le_zero] at ih
      omega
    · rw [List.intercalate_cons_of_ne_nil h, List.length_append, List.length_append]
      omega
  | @cons_cons xs ys y sub ih =>
    by_cases h : xs = []
    · subst h
      by_cases h' : ys = []
      · subst h'
        exact Nat.le_refl _
      · rw [List.intercalate_singleton, List.intercalate_cons_of_ne_nil h', List.length_append,
          List.length_append]
        omega
    · have h' : ys ≠ [] := by
        rintro rfl
        exact h (List.sublist_nil.mp sub)
      rw [List.intercalate_cons_of_ne_nil h, List.intercalate_cons_of_ne_nil h']
      simp only [List.length_append]
      omega

omit [DecidableEq α] in
theorem mem_intercalate {sep : List α} {xs : List (List α)} {a : α} (h : a ∈ sep.intercalate xs) :
    a ∈ sep ∨ ∃ x ∈ xs, a ∈ x := by
  induction xs with
  | nil => cases h
  | cons x xs ih =>
    by_cases empty : xs = []
    · subst empty
      rw [List.intercalate_singleton] at h
      exact .inr ⟨x, List.mem_cons_self, h⟩
    · rw [List.intercalate_cons_of_ne_nil empty, List.append_assoc] at h
      rcases List.mem_append.mp h with here | h
      · exact .inr ⟨x, List.mem_cons_self, here⟩
      rcases List.mem_append.mp h with between | later
      · exact .inl between
      · rcases ih later with between | ⟨y, held, here⟩
        · exact .inl between
        · exact .inr ⟨y, List.mem_cons_of_mem _ held, here⟩

end Search
