import Mathlib

/-!
# Keyed tables

A table is the list of its rows in insertion order, with the uniqueness of the
primary key as a field: a table with two rows of one key cannot be built. `first` is
the selection of one row under an order.
-/

structure Table (κ ρ : Type) (key : ρ → κ) where
  rows : List ρ
  unique : (rows.map key).Nodup

namespace Table

variable {κ ρ : Type} {key : ρ → κ}

def empty : Table κ ρ key := ⟨[], by simp⟩

theorem ext {t u : Table κ ρ key} (h : t.rows = u.rows) : t = u := by
  cases t
  cases u
  cases h
  rfl

/-- The row that `ORDER BY … LIMIT 1` returns: the first one that no other precedes. -/
def first (before : ρ → ρ → Bool) : List ρ → Option ρ
  | [] => none
  | r :: rest =>
    match first before rest with
    | none => some r
    | some q => if before q r then some q else some r

theorem first_mem {before : ρ → ρ → Bool} {rows : List ρ} {r : ρ}
    (h : first before rows = some r) : r ∈ rows := by
  induction rows generalizing r with
  | nil => cases h
  | cons q rest ih =>
    rw [first] at h
    cases hf : first before rest with
    | none =>
      rw [hf] at h
      cases h
      exact List.mem_cons_self
    | some p =>
      rw [hf] at h
      simp only at h
      split at h <;> cases h
      · exact List.mem_cons_of_mem _ (ih hf)
      · exact List.mem_cons_self

theorem first_eq_none_iff {before : ρ → ρ → Bool} {rows : List ρ} :
    first before rows = none ↔ rows = [] := by
  cases rows with
  | nil => simp [first]
  | cons q rest =>
    simp only [first, reduceCtorEq, iff_false]
    cases first before rest with
    | none => simp
    | some p =>
      simp only
      split <;> simp

/-- Under an order that compares a measure first, the row returned has the least measure. -/
theorem first_least {β : Type} [LinearOrder β] {before : ρ → ρ → Bool} (f : ρ → β)
    (le : ∀ a b, before a b = true → f a ≤ f b) (lt : ∀ a b, f a < f b → before a b = true)
    {rows : List ρ} {r : ρ} (h : first before rows = some r) : ∀ q ∈ rows, f r ≤ f q := by
  induction rows generalizing r with
  | nil => cases h
  | cons p rest ih =>
    simp only [first] at h
    cases hf : first before rest with
    | none =>
      rw [hf] at h
      cases h
      intro q hq
      rw [first_eq_none_iff.mp hf] at hq
      rw [List.mem_singleton.mp hq]
    | some m =>
      rw [hf] at h
      simp only at h
      intro q hq
      split at h <;> cases h
      · rename_i earlier
        rcases List.mem_cons.mp hq with rfl | hq
        · exact le _ _ earlier
        · exact ih hf q hq
      · rename_i later
        have least : f p ≤ f m := le_of_not_gt fun less => later (lt m p less)
        rcases List.mem_cons.mp hq with rfl | hq
        · exact le_rfl
        · exact le_trans least (ih hf q hq)

/-- Rows that come in order have their last one first. -/
theorem first_of_pairwise {before : ρ → ρ → Bool} {rows : List ρ}
    (ordered : rows.Pairwise fun a b => before b a = true) : first before rows = rows.getLast? := by
  induction rows with
  | nil => rfl
  | cons r rest ih =>
    obtain ⟨head, tail⟩ := List.pairwise_cons.mp ordered
    rw [first, ih tail, List.getLast?_cons]
    cases hl : rest.getLast? with
    | none => rfl
    | some q => simp [head q (List.mem_of_getLast? hl)]

variable [DecidableEq κ]

def find? (t : Table κ ρ key) (k : κ) : Option ρ :=
  t.rows.find? fun r => key r = k

/-- Rewrite the row of key `k`, if there is one; the key itself stays. -/
def modify (t : Table κ ρ key) (k : κ) (f : ρ → ρ)
    (keeps : ∀ r, key (f r) = key r := by intro; rfl) : Table κ ρ key where
  rows := t.rows.map fun r => if key r = k then f r else r
  unique := by
    have same : (t.rows.map fun r => if key r = k then f r else r).map key = t.rows.map key := by
      rw [List.map_map]
      refine List.map_congr_left fun r _ => ?_
      by_cases h : key r = k
      · simp [h, keeps]
      · simp [h]
    rw [same]
    exact t.unique

/-- Append a row, refused when its key is taken. -/
def insert? (t : Table κ ρ key) (r : ρ) : Option (Table κ ρ key) :=
  if h : key r ∈ t.rows.map key then none
  else some {
    rows := t.rows ++ [r]
    unique := by
      rw [List.map_append, List.map_singleton, List.nodup_append]
      refine ⟨t.unique, by simp, ?_⟩
      intro a ha b hb
      rw [List.mem_singleton] at hb
      subst hb
      intro same
      exact h (same ▸ ha) }

def insertOrIgnore (t : Table κ ρ key) (r : ρ) : Table κ ρ key :=
  (t.insert? r).getD t

/-- Insert the row, or rewrite the one that holds its key. -/
def upsert (t : Table κ ρ key) (r : ρ) (f : ρ → ρ)
    (keeps : ∀ r, key (f r) = key r := by intro; rfl) : Table κ ρ key :=
  (t.insert? r).getD (t.modify (key r) f keeps)

theorem find?_eq_some_iff {t : Table κ ρ key} {k : κ} {r : ρ} :
    t.find? k = some r ↔ r ∈ t.rows ∧ key r = k := by
  constructor
  · intro h
    exact ⟨List.mem_of_find?_eq_some h, by simpa using List.find?_some h⟩
  · rintro ⟨hr, rfl⟩
    cases hf : t.find? (key r) with
    | none =>
      have absent := List.find?_eq_none.mp hf r hr
      simp at absent
    | some q =>
      have hq : q ∈ t.rows := List.mem_of_find?_eq_some hf
      have hk : key q = key r := by simpa using List.find?_some hf
      exact congrArg some (List.inj_on_of_nodup_map t.unique hq hr hk)

theorem find?_eq_none_iff {t : Table κ ρ key} {k : κ} :
    t.find? k = none ↔ ∀ r ∈ t.rows, key r ≠ k := by
  simp [find?, List.find?_eq_none]

theorem mem_of_find? {t : Table κ ρ key} {k : κ} {r : ρ} (h : t.find? k = some r) :
    r ∈ t.rows := (find?_eq_some_iff.mp h).1

theorem key_of_find? {t : Table κ ρ key} {k : κ} {r : ρ} (h : t.find? k = some r) :
    key r = k := (find?_eq_some_iff.mp h).2

theorem find?_of_mem {t : Table κ ρ key} {r : ρ} (h : r ∈ t.rows) :
    t.find? (key r) = some r := find?_eq_some_iff.mpr ⟨h, rfl⟩

@[simp] theorem find?_empty (k : κ) : (empty : Table κ ρ key).find? k = none := rfl

@[simp] theorem rows_modify (t : Table κ ρ key) (k : κ) (f : ρ → ρ)
    (keeps : ∀ r, key (f r) = key r) :
    (t.modify k f keeps).rows = t.rows.map fun r => if key r = k then f r else r := rfl

theorem find?_modify (t : Table κ ρ key) (k k' : κ) (f : ρ → ρ)
    (keeps : ∀ r, key (f r) = key r) :
    (t.modify k f keeps).find? k' =
      if k' = k then (t.find? k').map f else t.find? k' := by
  simp only [find?, modify, List.find?_map]
  have same : ((fun r => decide (key r = k')) ∘ fun r => if key r = k then f r else r) =
      fun r => decide (key r = k') := by
    funext r
    by_cases h : key r = k
    · simp [h, keeps]
    · simp [h]
  rw [same]
  cases hf : t.rows.find? fun r => decide (key r = k') with
  | none => simp
  | some r =>
    have hk : key r = k' := by simpa using List.find?_some hf
    by_cases h : k' = k
    · simp [h, hk]
    · simp [h, hk]

/-- Rewriting under a key that no row has changes nothing. -/
theorem modify_absent {t : Table κ ρ key} {k : κ} (f : ρ → ρ)
    (keeps : ∀ r, key (f r) = key r) (h : t.find? k = none) :
    t.modify k f keeps = t := by
  refine ext ?_
  rw [rows_modify]
  conv_rhs => rw [← List.map_id t.rows]
  refine List.map_congr_left fun r hr => ?_
  simp [find?_eq_none_iff.mp h r hr]

theorem insert?_eq_some_iff {t u : Table κ ρ key} {r : ρ} :
    t.insert? r = some u ↔ t.find? (key r) = none ∧ u.rows = t.rows ++ [r] := by
  unfold insert?
  by_cases h : key r ∈ t.rows.map key
  · simp only [h, ↓reduceDIte, false_iff, not_and, reduceCtorEq]
    intro absent
    obtain ⟨q, hq, hk⟩ := List.mem_map.mp h
    exact absurd hk (find?_eq_none_iff.mp absent q hq)
  · simp only [h, ↓reduceDIte, Option.some.injEq]
    constructor
    · rintro rfl
      refine ⟨find?_eq_none_iff.mpr fun q hq hk => ?_, rfl⟩
      exact h (hk ▸ List.mem_map_of_mem hq)
    · rintro ⟨-, hu⟩
      exact ext hu.symm

theorem insert?_of_absent {t : Table κ ρ key} {r : ρ} (h : t.find? (key r) = none) :
    ∃ u, t.insert? r = some u := by
  unfold insert?
  rw [dif_neg]
  · exact ⟨_, rfl⟩
  · intro taken
    obtain ⟨q, hq, hk⟩ := List.mem_map.mp taken
    exact find?_eq_none_iff.mp h q hq hk

theorem find?_insert {t u : Table κ ρ key} {r : ρ} (h : t.insert? r = some u) (k : κ) :
    u.find? k = if k = key r then some r else t.find? k := by
  obtain ⟨absent, hu⟩ := insert?_eq_some_iff.mp h
  simp only [find?, hu, List.find?_append]
  by_cases hk : k = key r
  · subst hk
    have hn : (t.rows.find? fun q => decide (key q = key r)) = none := absent
    simp [hn]
  · have hk' : ¬ key r = k := fun e => hk e.symm
    simp [hk, hk']

/-- An ignored insertion finds its key taken; rows that were there stay. -/
theorem find?_insertOrIgnore {t : Table κ ρ key} {r q : ρ} {k : κ} (h : t.find? k = some q) :
    (t.insertOrIgnore r).find? k = some q := by
  unfold insertOrIgnore
  cases hu : t.insert? r with
  | none => exact h
  | some u =>
    obtain ⟨absent, -⟩ := insert?_eq_some_iff.mp hu
    have other : k ≠ key r := fun same => by simp [← same, h] at absent
    exact (find?_insert hu k).trans ((if_neg other).trans h)

theorem find?_insertOrIgnore_eq (t : Table κ ρ key) (r : ρ) (k : κ) :
    (t.insertOrIgnore r).find? k = (t.find? k).or (if k = key r then some r else none) := by
  cases found : t.find? k with
  | some q => exact find?_insertOrIgnore found
  | none =>
    unfold insertOrIgnore
    cases hu : t.insert? r with
    | some u =>
      rw [Option.getD_some, find?_insert hu, found]
      split <;> rfl
    | none =>
      rw [Option.getD_none, found, Option.none_or, if_neg]
      rintro rfl
      obtain ⟨u, inserted⟩ := insert?_of_absent found
      cases hu.symm.trans inserted

/-- A row is inserted under a free key, and the row of a taken one rewritten. -/
theorem find?_upsert (t : Table κ ρ key) (r : ρ) (f : ρ → ρ) (keeps : ∀ r, key (f r) = key r)
    (k : κ) : (t.upsert r f keeps).find? k =
      if k = key r then some (((t.find? k).map f).getD r) else t.find? k := by
  unfold upsert
  cases hu : t.insert? r with
  | none =>
    have taken : t.find? (key r) ≠ none := by
      intro absent
      obtain ⟨u, new⟩ := insert?_of_absent absent
      cases hu.symm.trans new
    rw [Option.getD_none, find?_modify]
    by_cases same : k = key r
    · subst same
      obtain ⟨q, found⟩ := Option.ne_none_iff_exists'.mp taken
      simp [found]
    · simp [same]
  | some u =>
    obtain ⟨absent, -⟩ := insert?_eq_some_iff.mp hu
    rw [Option.getD_some, find?_insert hu]
    by_cases same : k = key r
    · simp [same, absent]
    · simp [same]

theorem insertOrIgnore_eq_self_iff {t : Table κ ρ key} {r : ρ} :
    t.insertOrIgnore r = t ↔ t.find? (key r) ≠ none := by
  unfold insertOrIgnore
  cases hu : t.insert? r with
  | none =>
    simp only [Option.getD_none, true_iff]
    intro absent
    obtain ⟨u, new⟩ := insert?_of_absent absent
    cases hu.symm.trans new
  | some u =>
    obtain ⟨absent, rows⟩ := insert?_eq_some_iff.mp hu
    simp only [Option.getD_some, absent, ne_eq, not_true_eq_false, iff_false]
    intro same
    have lengths := congrArg List.length rows
    rw [same, List.length_append, List.length_singleton] at lengths
    omega

/-- Rows picked by a test that the rewriting respects are rewritten in place. -/
theorem filter_modify (t : Table κ ρ key) (k : κ) (f : ρ → ρ)
    (keeps : ∀ r, key (f r) = key r) (p : ρ → Bool) (hp : ∀ r, p (f r) = p r) :
    (t.modify k f keeps).rows.filter p =
      (t.rows.filter p).map fun r => if key r = k then f r else r := by
  rw [rows_modify, List.filter_map]
  refine congrArg _ (List.filter_congr fun r _ => ?_)
  by_cases h : key r = k
  · simp [h, hp]
  · simp [h]

/-- A selection that leaves out the rewritten row is the same afterwards. -/
theorem filter_modify_other (t : Table κ ρ key) (k : κ) (f : ρ → ρ)
    (keeps : ∀ r, key (f r) = key r) (p : ρ → Bool) (hp : ∀ r, p (f r) = p r)
    (other : ∀ r ∈ t.rows, key r = k → p r = false) :
    (t.modify k f keeps).rows.filter p = t.rows.filter p := by
  rw [filter_modify t k f keeps p hp]
  conv_rhs => rw [← List.map_id (t.rows.filter p)]
  refine List.map_congr_left fun r hr => ?_
  obtain ⟨hmem, hpr⟩ := List.mem_filter.mp hr
  have hk : key r ≠ k := fun e => by simp [other r hmem e] at hpr
  simp [hk]

omit [DecidableEq κ] in
/-- A count grows by no more than the keys whose rows newly pass the test. -/
theorem countP_le {t u : Table κ ρ key} {p : ρ → Bool} (extra : List κ)
    (h : ∀ q ∈ u.rows, p q = true → key q ∈ extra ∨ ∃ r ∈ t.rows, key r = key q ∧ p r = true) :
    u.rows.countP p ≤ t.rows.countP p + extra.length := by
  have distinct : ((u.rows.filter p).map key).Nodup :=
    u.unique.sublist (List.filter_sublist.map key)
  have within : (u.rows.filter p).map key ⊆ (t.rows.filter p).map key ++ extra := by
    intro k hk
    obtain ⟨q, hq, rfl⟩ := List.mem_map.mp hk
    obtain ⟨stored, passes⟩ := List.mem_filter.mp hq
    rcases h q stored passes with new | ⟨r, hr, same, old⟩
    · exact List.mem_append_right _ new
    · exact List.mem_append_left _ (List.mem_map.mpr ⟨r, List.mem_filter.mpr ⟨hr, old⟩, same⟩)
  have bound := distinct.length_le_of_subset within
  rw [List.length_append, List.length_map, List.length_map] at bound
  rw [List.countP_eq_length_filter, List.countP_eq_length_filter]
  exact bound

end Table
