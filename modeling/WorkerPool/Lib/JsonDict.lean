import Mathlib
import WorkerPool.Lib.Json

/-!
# Dictionaries

Python reads a dictionary as a mapping and compares two of them so, and `json.dumps`
writes their keys in order. Here are the parts of a value, its form with all keys in
order, and equality as Python decides it.
-/

namespace Json

/-! ### Parts -/

/-- Induction with one hypothesis for each item or field. -/
@[elab_as_elim]
theorem byParts {motive : Json → Prop} (null : motive .null) (bool : ∀ b, motive (.bool b))
    (int : ∀ n, motive (.int n)) (float : ∀ b, motive (.float b)) (str : ∀ s, motive (.str s))
    (arr : ∀ items, (∀ v ∈ items, motive v) → motive (.arr items))
    (obj : ∀ fields, (∀ f ∈ fields, motive f.2) → motive (.obj fields)) (v : Json) : motive v :=
  @Json.rec motive (fun items => ∀ v ∈ items, motive v) (fun fields => ∀ f ∈ fields, motive f.2)
    (fun f => motive f.2) null bool int float str arr obj
    (fun _ h => absurd h List.not_mem_nil)
    (fun _ _ head tail => List.forall_mem_cons.mpr ⟨head, tail⟩)
    (fun _ h => absurd h List.not_mem_nil)
    (fun _ _ head tail => List.forall_mem_cons.mpr ⟨head, tail⟩) (fun _ _ value => value) v

mutual

/-- A value and all that it holds, at any depth. -/
def parts : Json → List Json
  | .arr items => .arr items :: partsOfItems items
  | .obj fields => .obj fields :: partsOfFields fields
  | v => [v]

def partsOfItems : List Json → List Json
  | [] => []
  | v :: rest => parts v ++ partsOfItems rest

def partsOfFields : List (String × Json) → List Json
  | [] => []
  | (_, v) :: rest => parts v ++ partsOfFields rest

end

/-- `p` of a value and of all that it holds. -/
def Everywhere (p : Json → Prop) (v : Json) : Prop := ∀ w ∈ v.parts, p w

instance (p : Json → Prop) [DecidablePred p] (v : Json) : Decidable (v.Everywhere p) :=
  inferInstanceAs (Decidable (∀ w ∈ v.parts, p w))

theorem mem_partsOfItems {w : Json} {items : List Json} :
    w ∈ partsOfItems items ↔ ∃ v ∈ items, w ∈ v.parts := by
  induction items with
  | nil => simp [partsOfItems]
  | cons v rest ih => simp [partsOfItems, ih]

theorem mem_partsOfFields {w : Json} {fields : List (String × Json)} :
    w ∈ partsOfFields fields ↔ ∃ f ∈ fields, w ∈ f.2.parts := by
  induction fields with
  | nil => simp [partsOfFields]
  | cons f rest ih => simp [partsOfFields, ih]

section Everywhere

variable {p : Json → Prop}

theorem Everywhere.here {v : Json} (h : v.Everywhere p) : p v := by
  apply h
  cases v <;> simp [parts]

@[simp] theorem everywhere_arr {items : List Json} :
    (arr items).Everywhere p ↔ p (.arr items) ∧ ∀ v ∈ items, v.Everywhere p := by
  simp only [Everywhere, parts, List.forall_mem_cons, mem_partsOfItems]
  constructor
  · rintro ⟨whole, held⟩
    exact ⟨whole, fun v hv w hw => held w ⟨v, hv, hw⟩⟩
  · rintro ⟨whole, held⟩
    exact ⟨whole, fun w ⟨v, hv, hw⟩ => held v hv w hw⟩

@[simp] theorem everywhere_obj {fields : List (String × Json)} :
    (obj fields).Everywhere p ↔ p (.obj fields) ∧ ∀ f ∈ fields, f.2.Everywhere p := by
  simp only [Everywhere, parts, List.forall_mem_cons, mem_partsOfFields]
  constructor
  · rintro ⟨whole, held⟩
    exact ⟨whole, fun v hv w hw => held w ⟨v, hv, hw⟩⟩
  · rintro ⟨whole, held⟩
    exact ⟨whole, fun w ⟨v, hv, hw⟩ => held v hv w hw⟩

@[simp] theorem everywhere_null : null.Everywhere p ↔ p .null := by simp [Everywhere, parts]

@[simp] theorem everywhere_bool {b : Bool} : (bool b).Everywhere p ↔ p (.bool b) := by
  simp [Everywhere, parts]

@[simp] theorem everywhere_int {n : Int} : (int n).Everywhere p ↔ p (.int n) := by
  simp [Everywhere, parts]

@[simp] theorem everywhere_float {b : UInt64} : (float b).Everywhere p ↔ p (.float b) := by
  simp [Everywhere, parts]

@[simp] theorem everywhere_str {s : String} : (str s).Everywhere p ↔ p (.str s) := by
  simp [Everywhere, parts]

end Everywhere

/-! ### Lookup -/

def keys (fields : List (String × Json)) : List String := fields.map Prod.fst

/-- A dictionary, not a list of pairs, all the way down. -/
def KeysDistinct : Json → Prop
  | .obj fields => (keys fields).Nodup
  | _ => True

theorem lookup_mem {fields : List (String × Json)} {key : String} {v : Json}
    (h : lookup key fields = some v) : (key, v) ∈ fields := by
  obtain ⟨f, found, rfl⟩ := Option.map_eq_some_iff.mp h
  have named : f.1 = key := by simpa using List.find?_some found
  subst named
  exact List.mem_reverse.mp (List.mem_of_find?_eq_some found)

theorem value_unique {fields : List (String × Json)} (distinct : (keys fields).Nodup)
    {key : String} {v w : Json} (hv : (key, v) ∈ fields) (hw : (key, w) ∈ fields) : v = w :=
  congrArg Prod.snd (List.inj_on_of_nodup_map distinct hv hw rfl)

theorem lookup_eq_some_iff {fields : List (String × Json)} (distinct : (keys fields).Nodup)
    {key : String} {v : Json} : lookup key fields = some v ↔ (key, v) ∈ fields := by
  constructor
  · exact lookup_mem
  · intro mem
    cases h : lookup key fields with
    | some w => rw [value_unique distinct (lookup_mem h) mem]
    | none =>
      simp only [lookup, Option.map_eq_none_iff, List.find?_eq_none, List.mem_reverse] at h
      exact absurd (beq_self_eq_true key) (h _ mem)

theorem lookup_isSome_iff {fields : List (String × Json)} {key : String} :
    (lookup key fields).isSome = true ↔ key ∈ keys fields := by
  simp [lookup, keys]

/-- Two dictionaries that hold the same pairs answer alike. -/
theorem lookup_perm {fields others : List (String × Json)} (distinct : (keys fields).Nodup)
    (same : fields.Perm others) (key : String) : lookup key fields = lookup key others := by
  have distinct' : (keys others).Nodup := (same.map Prod.fst).nodup_iff.mp distinct
  apply Option.ext
  intro v
  rw [lookup_eq_some_iff distinct, lookup_eq_some_iff distinct', same.mem_iff]

/-! ### The order of the keys -/

def sortFields (fields : List (String × Json)) : List (String × Json) :=
  fields.insertionSort fun f g => f.1 ≤ g.1

mutual

/-- The value with the keys of all its dictionaries in order. -/
def sorted : Json → Json
  | .arr items => .arr (sortedItems items)
  | .obj fields => .obj (sortFields (sortedFields fields))
  | v => v

def sortedItems : List Json → List Json
  | [] => []
  | v :: rest => sorted v :: sortedItems rest

def sortedFields : List (String × Json) → List (String × Json)
  | [] => []
  | (key, v) :: rest => (key, sorted v) :: sortedFields rest

end

/-- All keys are in order, and none occurs twice. -/
def KeysSorted : Json → Prop
  | .obj fields => (keys fields).Pairwise (· < ·)
  | _ => True

@[simp] theorem sortedItems_eq (items : List Json) : sortedItems items = items.map sorted := by
  induction items with
  | nil => rfl
  | cons v rest ih => simp [sortedItems, ih]

@[simp] theorem sortedFields_eq (fields : List (String × Json)) :
    sortedFields fields = fields.map fun f => (f.1, f.2.sorted) := by
  induction fields with
  | nil => rfl
  | cons f rest ih => simp [sortedFields, ih]

theorem sortFields_perm (fields : List (String × Json)) : (sortFields fields).Perm fields :=
  List.perm_insertionSort _ fields

theorem mem_sortFields {f : String × Json} {fields : List (String × Json)} :
    f ∈ sortFields fields ↔ f ∈ fields := (sortFields_perm fields).mem_iff

theorem keys_map {g : Json → Json} (fields : List (String × Json)) :
    keys (fields.map fun f => (f.1, g f.2)) = keys fields := by
  simp [keys]

theorem sortFields_sorted {fields : List (String × Json)} (distinct : (keys fields).Nodup) :
    (keys (sortFields fields)).Pairwise (· < ·) := by
  have ordered : (sortFields fields).Pairwise fun f g => f.1 ≤ g.1 :=
    List.pairwise_insertionSort _ fields
  have weak : (keys (sortFields fields)).Pairwise (· ≤ ·) := List.pairwise_map.mpr ordered
  have nodup : (keys (sortFields fields)).Nodup :=
    ((sortFields_perm fields).map Prod.fst).nodup_iff.mpr distinct
  exact weak.imp₂ (fun _ _ le ne => lt_of_le_of_ne le ne) nodup

theorem keysSorted_sorted {v : Json} (distinct : v.Everywhere KeysDistinct) :
    v.sorted.Everywhere KeysSorted := by
  induction v using byParts with
  | null | bool | int | float | str => simp [sorted, KeysSorted]
  | arr items ih =>
    rw [everywhere_arr] at distinct
    simp only [sorted, everywhere_arr, sortedItems_eq, List.forall_mem_map]
    exact ⟨trivial, fun v hv => ih v hv (distinct.2 v hv)⟩
  | obj fields ih =>
    rw [everywhere_obj] at distinct
    simp only [sorted, everywhere_obj, sortedFields_eq]
    constructor
    · apply sortFields_sorted
      rw [keys_map]
      exact distinct.1
    · intro f hf
      obtain ⟨g, hg, rfl⟩ := List.mem_map.mp (mem_sortFields.mp hf)
      exact ih g hg (distinct.2 g hg)

theorem lookup_map {g : Json → Json} (fields : List (String × Json)) (key : String) :
    lookup key (fields.map fun f => (f.1, g f.2)) = (lookup key fields).map g := by
  simp only [lookup, ← List.map_reverse, List.find?_map, Option.map_map]
  rfl

theorem lookup_sortFields {fields : List (String × Json)} (distinct : (keys fields).Nodup)
    (key : String) : lookup key (sortFields fields) = lookup key fields :=
  (lookup_perm distinct (sortFields_perm fields).symm key).symm

/-- Sorted dictionaries are equal as soon as they hold the same pairs. -/
theorem sortFields_congr {fields others : List (String × Json)} (distinct : (keys fields).Nodup)
    (distinct' : (keys others).Nodup) (same : ∀ key, lookup key fields = lookup key others) :
    sortFields fields = sortFields others := by
  have perm : fields.Perm others := by
    apply (List.perm_ext_iff_of_nodup distinct.of_map distinct'.of_map).mpr
    rintro ⟨key, v⟩
    rw [← lookup_eq_some_iff distinct, ← lookup_eq_some_iff distinct', same]
  have sorted := List.pairwise_map.mp (sortFields_sorted distinct)
  have sorted' := List.pairwise_map.mp (sortFields_sorted distinct')
  apply List.Perm.eq_of_pairwise _ sorted sorted'
  · exact ((sortFields_perm fields).trans perm).trans (sortFields_perm others).symm
  · intro f g _ _ less more
    exact absurd less (lt_asymm more)

/-- Keys that are in order once they are sorted were distinct before. -/
theorem distinct_of_sorted {v : Json} (h : v.sorted.Everywhere KeysSorted) :
    v.Everywhere KeysDistinct := by
  induction v using byParts with
  | null | bool | int | float | str => simp [KeysDistinct]
  | arr items ih =>
    simp only [sorted, everywhere_arr, sortedItems_eq, List.forall_mem_map] at h
    exact everywhere_arr.mpr ⟨trivial, fun v hv => ih v hv (h.2 v hv)⟩
  | obj fields ih =>
    simp only [sorted, everywhere_obj, sortedFields_eq] at h
    have ordered : (keys (sortFields (fields.map fun f => (f.1, f.2.sorted)))).Pairwise (· < ·) := h.1
    have nodup := ((sortFields_perm _).map Prod.fst).nodup_iff.mp (ordered.imp fun lt => ne_of_lt lt)
    refine everywhere_obj.mpr ⟨?_, fun f hf => ih f hf (h.2 (f.1, f.2.sorted) ?_)⟩
    · have distinct : (keys (fields.map fun f => (f.1, f.2.sorted))).Nodup := nodup
      rwa [keys_map] at distinct
    · exact mem_sortFields.mpr (List.mem_map.mpr ⟨f, hf, rfl⟩)

/-- The order of keys does not matter to a property of the scalars. -/
theorem everywhere_sorted {p : Json → Prop} (arr : ∀ items, p (.arr items))
    (obj : ∀ fields, p (.obj fields)) (v : Json) : v.sorted.Everywhere p ↔ v.Everywhere p := by
  induction v using byParts with
  | null | bool | int | float | str => exact Iff.rfl
  | arr items ih =>
    simp only [sorted, everywhere_arr, sortedItems_eq, List.forall_mem_map, arr, true_and]
    exact forall₂_congr ih
  | obj fields ih =>
    simp only [sorted, everywhere_obj, sortedFields_eq, mem_sortFields, List.forall_mem_map, obj,
      true_and]
    exact forall₂_congr ih

/-- Two dictionaries with the same values, up to the order of keys, under the same keys. -/
theorem sorted_obj_congr {fields others : List (String × Json)} (distinct : (keys fields).Nodup)
    (distinct' : (keys others).Nodup)
    (same : ∀ key, (lookup key fields).map sorted = (lookup key others).map sorted) :
    (obj fields).sorted = (obj others).sorted := by
  simp only [sorted, sortedFields_eq]
  congr 1
  apply sortFields_congr
  · rwa [keys_map]
  · rwa [keys_map]
  · intro key
    rw [lookup_map, lookup_map, same]

/-! ### Writing -/

theorem dumpsItems_eq (a : Bool) (repr : UInt64 → List Char) (items : List Json) :
    dumpsItems a repr items = items.map (dumps a repr) := by
  induction items with
  | nil => rfl
  | cons v rest ih => simp [dumpsItems, ih]

theorem dumpsFields_eq (a : Bool) (repr : UInt64 → List Char) (fields : List (String × Json)) :
    dumpsFields a repr fields = fields.map fun f => (f.1, dumps a repr f.2) := by
  induction fields with
  | nil => rfl
  | cons f rest ih => simp [dumpsFields, ih]

theorem sortByKey_eq (fields : List (String × List Char)) :
    sortByKey fields = fields.insertionSort fun f g => f.1 ≤ g.1 := by
  have insert : ∀ f rest, insertByKey f rest =
      List.orderedInsert (fun (f g : String × List Char) => f.1 ≤ g.1) f rest := by
    intro f rest
    induction rest with
    | nil => rfl
    | cons g rest ih =>
      by_cases before : g.1 < f.1
      · simp [insertByKey, before, not_le.mpr before, ih]
      · simp [insertByKey, before, not_lt.mp before]
  induction fields with
  | nil => rfl
  | cons f rest ih =>
    rw [List.insertionSort_cons, ← ih, ← insert]
    rfl

theorem sortByKey_map (text : Json → List Char) (fields : List (String × Json)) :
    sortByKey (fields.map fun f => (f.1, text f.2)) =
      (sortFields fields).map fun f => (f.1, text f.2) := by
  rw [sortByKey_eq]
  exact (List.map_insertionSort _ _ _ _ (by simp)).symm

theorem sortFields_idem (fields : List (String × Json)) :
    sortFields (sortFields fields) = sortFields fields :=
  (List.pairwise_insertionSort _ fields).insertionSort_eq

theorem map_sortFields (g : Json → Json) (fields : List (String × Json)) :
    (sortFields fields).map (fun f => (f.1, g f.2)) = sortFields (fields.map fun f => (f.1, g f.2)) :=
  List.map_insertionSort _ _ _ _ (by simp)

theorem sorted_sorted (v : Json) : v.sorted.sorted = v.sorted := by
  induction v using byParts with
  | null | bool | int | float | str => rfl
  | arr items ih =>
    simp only [sorted, sortedItems_eq, List.map_map]
    congr 1
    exact List.map_congr_left ih
  | obj fields ih =>
    have inner : (fields.map fun f => (f.1, f.2.sorted)).map (fun f => (f.1, f.2.sorted)) =
        fields.map fun f => (f.1, f.2.sorted) := by
      rw [List.map_map]
      exact List.map_congr_left fun f hf => by simp [ih f hf]
    simp only [sorted, sortedFields_eq]
    rw [map_sortFields, inner, sortFields_idem]

/-- `json.dumps` does not see the order in which keys were inserted. -/
theorem dumps_sorted (a : Bool) (repr : UInt64 → List Char) (v : Json) :
    v.sorted.dumps a repr = v.dumps a repr := by
  induction v using byParts with
  | null | bool | int | float | str => rfl
  | arr items ih =>
    simp only [sorted, dumps, sortedItems_eq, dumpsItems_eq, List.map_map]
    congr 3
    exact List.map_congr_left ih
  | obj fields ih =>
    have written : (fields.map fun f => (f.1, f.2.sorted)).map (fun f => (f.1, dumps a repr f.2)) =
        fields.map fun f => (f.1, dumps a repr f.2) := by
      rw [List.map_map]
      exact List.map_congr_left fun f hf => by simp [ih f hf]
    simp only [sorted, dumps, sortedFields_eq, dumpsFields_eq]
    rw [sortByKey_map, sortFields_idem, ← sortByKey_map, written]

/-! ### Equality -/

mutual

/-- `==`, of dictionaries without regard to the order of their keys. -/
def pyEq : Json → Json → Bool
  | .arr items, .arr others => pyEqItems items others
  | .obj fields, .obj others => fields.length == others.length && pyEqFields fields others
  | v, w => v.scalarEq w

def pyEqItems : List Json → List Json → Bool
  | [], [] => true
  | v :: rest, w :: others => pyEq v w && pyEqItems rest others
  | _, _ => false

def pyEqFields : List (String × Json) → List (String × Json) → Bool
  | [], _ => true
  | (key, v) :: rest, others =>
    (match lookup key others with
      | some w => pyEq v w
      | none => false) && pyEqFields rest others

end

theorem floatEq_comm (a b : UInt64) : floatEq a b = floatEq b a := by
  unfold floatEq
  have bits : (a == b) = (b == a) := BEq.comm
  simp only [bits, or_comm, and_comm]

theorem scalarEq_comm (v w : Json) : v.scalarEq w = w.scalarEq v := by
  cases v <;> cases w <;>
    first
    | rfl
    | exact BEq.comm
    | exact floatEq_comm _ _
    | simp only [scalarEq]
      split <;> split <;> simp_all [eq_comm]

/-- A value that is no list and no dictionary. -/
theorem pyEq_scalar {v : Json} (w : Json) (plain : v.isHashable = true) :
    v.pyEq w = v.scalarEq w ∧ w.pyEq v = w.scalarEq v := by
  cases v <;> cases w <;> simp_all [pyEq, isHashable]

theorem pyEqFields_iff {fields others : List (String × Json)} :
    pyEqFields fields others = true ↔
      ∀ f ∈ fields, ∃ w, lookup f.1 others = some w ∧ f.2.pyEq w = true := by
  induction fields with
  | nil => simp [pyEqFields]
  | cons f rest ih =>
    rw [List.forall_mem_cons, ← ih]
    cases h : lookup f.1 others <;> simp [pyEqFields, h]

theorem pyEq_obj {fields others : List (String × Json)} :
    pyEq (.obj fields) (.obj others) = true ↔ fields.length = others.length ∧
      ∀ f ∈ fields, ∃ w, lookup f.1 others = some w ∧ f.2.pyEq w = true := by
  simp [pyEq, pyEqFields_iff]

/-- Only a dictionary equals a dictionary. -/
theorem pyEq_obj_left {v : Json} {others : List (String × Json)}
    (h : pyEq v (.obj others) = true) : ∃ fields, v = .obj fields := by
  cases v with
  | obj fields => exact ⟨fields, rfl⟩
  | _ => simp [pyEq, scalarEq, asInt?] at h

/-- Only a text equals a text, and only the same. -/
@[simp] theorem pyEq_str {v : Json} {s : String} : pyEq v (.str s) = true ↔ v = .str s := by
  cases v <;> simp [pyEq, scalarEq, asInt?]

@[simp] theorem str_pyEq {v : Json} {s : String} : pyEq (.str s) v = true ↔ v = .str s := by
  cases v with
  | str t => simpa [pyEq, scalarEq] using eq_comm
  | _ => simp [pyEq, scalarEq, asInt?]

/-- Dictionaries that are equal have the same keys, and equal values under each. -/
theorem pyEq_lookup {fields others : List (String × Json)} (distinct : (keys fields).Nodup)
    (h : pyEq (.obj fields) (.obj others) = true) {key : String} {w : Json}
    (held : lookup key others = some w) : ∃ v, lookup key fields = some v ∧ v.pyEq w = true := by
  obtain ⟨size, each⟩ := pyEq_obj.mp h
  have within : keys fields ⊆ keys others := by
    intro k hk
    obtain ⟨f, hf, rfl⟩ := List.mem_map.mp hk
    obtain ⟨w, found, -⟩ := each f hf
    exact lookup_isSome_iff.mp (by simp [found])
  have same : (keys fields).Perm (keys others) :=
    (List.subperm_of_subset distinct within).perm_of_length_le (by simp [keys, size])
  have present : key ∈ keys fields :=
    same.mem_iff.mpr (lookup_isSome_iff.mp (by simp [held]))
  obtain ⟨v, found⟩ := Option.isSome_iff_exists.mp (lookup_isSome_iff.mpr present)
  obtain ⟨w', held', equal⟩ := each _ (lookup_mem found)
  obtain rfl : w = w' := Option.some.inj (held.symm.trans held')
  exact ⟨v, found, equal⟩

theorem pyEq_keys {fields others : List (String × Json)} (distinct : (keys fields).Nodup)
    (h : pyEq (.obj fields) (.obj others) = true) (key : String) :
    key ∈ keys fields ↔ key ∈ keys others := by
  constructor
  · intro mem
    obtain ⟨f, hf, rfl⟩ := List.mem_map.mp mem
    obtain ⟨w, found, -⟩ := (pyEq_obj.mp h).2 f hf
    exact lookup_isSome_iff.mp (by simp [found])
  · intro mem
    obtain ⟨w, found⟩ := Option.isSome_iff_exists.mp (lookup_isSome_iff.mpr mem)
    obtain ⟨v, held, -⟩ := pyEq_lookup distinct h found
    exact lookup_isSome_iff.mp (by simp [held])

/-- A number that equals itself. -/
def NotNan : Json → Prop
  | .float b => floatEq b b = true
  | _ => True

theorem pyEqItems_map {g : Json → Json} {items : List Json}
    (h : ∀ v ∈ items, (g v).pyEq v = true) : pyEqItems (items.map g) items = true := by
  induction items with
  | nil => rfl
  | cons v rest ih =>
    rw [List.forall_mem_cons] at h
    simp [pyEqItems, h.1, ih h.2]

theorem pyEq_sorted {v : Json} (distinct : v.Everywhere KeysDistinct)
    (ordinary : v.Everywhere NotNan) : v.sorted.pyEq v = true := by
  induction v using byParts with
  | null => rfl
  | bool b => simp [sorted, pyEq, scalarEq, asInt?]
  | int n => simp [sorted, pyEq, scalarEq, asInt?]
  | float b =>
    rw [everywhere_float] at ordinary
    simpa [sorted, pyEq, scalarEq, NotNan] using ordinary
  | str s => simp [sorted]
  | arr items ih =>
    rw [everywhere_arr] at distinct ordinary
    simp only [sorted, pyEq, sortedItems_eq]
    exact pyEqItems_map fun v hv => ih v hv (distinct.2 v hv) (ordinary.2 v hv)
  | obj fields ih =>
    rw [everywhere_obj] at distinct ordinary
    simp only [sorted, pyEq_obj, sortedFields_eq]
    constructor
    · rw [(sortFields_perm _).length_eq, List.length_map]
    · intro f hf
      obtain ⟨g, hg, rfl⟩ := List.mem_map.mp (mem_sortFields.mp hf)
      exact ⟨g.2, (lookup_eq_some_iff distinct.1).mpr hg, ih g hg (distinct.2 g hg) (ordinary.2 g hg)⟩

/-- The order of the keys on the left does not matter, -/
theorem sorted_pyEq (v w : Json) : v.sorted.pyEq w = v.pyEq w := by
  induction v using byParts generalizing w with
  | null | bool | int | float | str => rfl
  | arr items ih =>
    have each : ∀ others, pyEqItems (items.map sorted) others = pyEqItems items others := by
      induction items with
      | nil => intro others; rfl
      | cons v rest tail =>
        rw [List.forall_mem_cons] at ih
        intro others
        cases others with
        | nil => rfl
        | cons w others => simp [pyEqItems, ih.1 w, tail ih.2 others]
    cases w <;> simp [sorted, pyEq, scalarEq, asInt?, each]
  | obj fields ih =>
    cases w with
    | obj others =>
      rw [Bool.eq_iff_iff, sorted, pyEq_obj, pyEq_obj, (sortFields_perm _).length_eq,
        sortedFields_eq, List.length_map]
      simp only [mem_sortFields, List.forall_mem_map]
      apply and_congr_right'
      refine forall₂_congr fun f hf => ?_
      simp only [ih f hf]
    | _ => simp [sorted, pyEq, scalarEq, asInt?]

/-- nor does it on the right. -/
theorem pyEq_sorted_right (v : Json) {w : Json} (distinct : w.Everywhere KeysDistinct) :
    v.pyEq w.sorted = v.pyEq w := by
  induction v using byParts generalizing w with
  | null | bool | int | float | str =>
    cases w <;> simp [sorted, pyEq, scalarEq, asInt?]
  | arr items ih =>
    cases w with
    | arr others =>
      rw [everywhere_arr] at distinct
      replace distinct := distinct.2
      simp only [sorted, pyEq, sortedItems_eq]
      induction items generalizing others with
      | nil => cases others <;> rfl
      | cons v rest tail =>
        rw [List.forall_mem_cons] at ih
        cases others with
        | nil => rfl
        | cons w others =>
          rw [List.forall_mem_cons] at distinct
          simp only [List.map_cons, pyEqItems, ih.1 distinct.1]
          rw [tail ih.2 others distinct.2]
    | _ => simp [sorted, pyEq, scalarEq, asInt?]
  | obj fields ih =>
    cases w with
    | obj others =>
      rw [everywhere_obj] at distinct
      have named : (keys (others.map fun f => (f.1, f.2.sorted))).Nodup := by
        rw [keys_map]
        exact distinct.1
      rw [Bool.eq_iff_iff, sorted, pyEq_obj, pyEq_obj, (sortFields_perm _).length_eq,
        sortedFields_eq, List.length_map]
      apply and_congr_right'
      refine forall₂_congr fun f hf => ?_
      simp only [lookup_sortFields named, lookup_map, Option.map_eq_some_iff]
      constructor
      · rintro ⟨_, ⟨w, held, rfl⟩, equal⟩
        rw [ih f hf (distinct.2 _ (lookup_mem held))] at equal
        exact ⟨w, held, equal⟩
      · rintro ⟨w, held, equal⟩
        rw [← ih f hf (distinct.2 _ (lookup_mem held))] at equal
        exact ⟨_, ⟨w, held, rfl⟩, equal⟩
    | _ => simp [sorted, pyEq, scalarEq, asInt?]

/-! ### Dictionaries with known keys -/

/-- The value under a key, `null` where there is none. -/
def field (key : String) (fields : List (String × Json)) : Json := (lookup key fields).getD .null

theorem field_eq {fields : List (String × Json)} {key : String} {v : Json}
    (h : lookup key fields = some v) : field key fields = v := by
  simp [field, h]

theorem sameSet_iff {values others : List String} :
    sameSet values others = true ↔ ∀ s, s ∈ values ↔ s ∈ others := by
  simp only [sameSet, Bool.and_eq_true, List.all_eq_true, decide_eq_true_eq]
  exact ⟨fun h s => ⟨h.1 s, h.2 s⟩, fun h => ⟨fun s => (h s).mp, fun s => (h s).mpr⟩⟩

theorem lookup_of_named {names : List String} {fields : List (String × Json)}
    (named : sameSet (keys fields) names = true) (key : String) :
    lookup key fields = if key ∈ names then some (field key fields) else none := by
  have present := (sameSet_iff.mp named key).symm
  rw [← lookup_isSome_iff] at present
  cases held : lookup key fields with
  | some v => simp [present, held, field]
  | none => simp [present, held]

/-- Two dictionaries with the same keys are the same as soon as their values are. -/
theorem sorted_eq_of_fields {names : List String} {fields others : List (String × Json)}
    (distinct : (keys fields).Nodup) (distinct' : (keys others).Nodup)
    (named : sameSet (keys fields) names = true) (named' : sameSet (keys others) names = true)
    (each : ∀ key ∈ names, (field key fields).sorted = (field key others).sorted) :
    (obj fields).sorted = (obj others).sorted := by
  apply sorted_obj_congr distinct distinct'
  intro key
  rw [lookup_of_named named, lookup_of_named named']
  by_cases member : key ∈ names
  · simp [member, each key member]
  · simp [member]

theorem field_sorted {fields : List (String × Json)} (distinct : (keys fields).Nodup) (key : String) :
    field key (sortFields (sortedFields fields)) = (field key fields).sorted := by
  have named : (keys (fields.map fun f => (f.1, f.2.sorted))).Nodup := by
    rwa [keys_map]
  rw [sortedFields_eq, field, lookup_sortFields named, lookup_map, field]
  cases lookup key fields <;> rfl

theorem field_sorted_congr {fields others : List (String × Json)} (distinct : (keys fields).Nodup)
    (distinct' : (keys others).Nodup) (same : (obj fields).sorted = (obj others).sorted)
    (key : String) : (field key fields).sorted = (field key others).sorted := by
  simp only [sorted, obj.injEq] at same
  rw [← field_sorted distinct, ← field_sorted distinct', same]

end Json
