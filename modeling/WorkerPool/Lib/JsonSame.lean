import WorkerPool.Lib.JsonDict

/-!
# The same JSON value

Python finds `True`, `1` and `1.0` equal, also inside lists and dictionaries. Two values are the same
JSON value if they are equal and of one type at every depth.
-/

namespace Json

/-- `type(value).__name__`. -/
def typeName : Json → String
  | .null => "NoneType"
  | .bool _ => "bool"
  | .int _ => "int"
  | .float _ => "float"
  | .str _ => "str"
  | .arr _ => "list"
  | .obj _ => "dict"

mutual

/-- Equal, and of one type at every depth. A float is compared by its value. -/
def same : Json → Json → Bool
  | .arr items, .arr others => sameItems items others
  | .obj fields, .obj others => fields.length == others.length && sameFields fields others
  | v, w => v.typeName == w.typeName && v.scalarEq w

def sameItems : List Json → List Json → Bool
  | [], [] => true
  | v :: rest, w :: others => same v w && sameItems rest others
  | _, _ => false

def sameFields : List (String × Json) → List (String × Json) → Bool
  | [], _ => true
  | (key, v) :: rest, others =>
    (match lookup key others with
      | some w => same v w
      | none => false) && sameFields rest others

end

/-- At some place both hold a scalar, of different types. -/
inductive Mixed : Json → Json → Prop where
  | here {v w : Json} : v.isHashable = true → w.isHashable = true → v.typeName ≠ w.typeName → Mixed v w
  | item {items others : List Json} {v w : Json} (i : Nat) :
      items[i]? = some v → others[i]? = some w → Mixed v w → Mixed (.arr items) (.arr others)
  | member {fields others : List (String × Json)} {v w : Json} (key : String) :
      (key, v) ∈ fields → lookup key others = some w → Mixed v w → Mixed (.obj fields) (.obj others)

/-! ### Equal and nowhere mixed -/

theorem mixed_scalar {v w : Json} (plain : v.isHashable = true) :
    Mixed v w ↔ w.isHashable = true ∧ v.typeName ≠ w.typeName := by
  constructor
  · intro h
    cases h with
    | here _ plain' apart => exact ⟨plain', apart⟩
    | item | member => exact absurd plain (by simp [isHashable])
  · rintro ⟨plain', apart⟩
    exact .here plain plain' apart

theorem same_scalar {v w : Json} (plain : v.isHashable = true) :
    v.same w = (v.typeName == w.typeName && v.scalarEq w) := by
  cases v <;> cases w <;> simp_all [same, isHashable]

theorem hashable_of_scalarEq {v w : Json} (plain : v.isHashable = true) (equal : v.scalarEq w = true) :
    w.isHashable = true := by
  cases v <;> cases w <;> simp_all [scalarEq, asInt?, isHashable]

theorem sameFields_iff {fields others : List (String × Json)} :
    sameFields fields others = true ↔
      ∀ f ∈ fields, ∃ w, lookup f.1 others = some w ∧ f.2.same w = true := by
  induction fields with
  | nil => simp [sameFields]
  | cons f rest ih =>
    rw [List.forall_mem_cons, ← ih]
    cases h : lookup f.1 others <;> simp [sameFields, h]

theorem same_obj {fields others : List (String × Json)} :
    same (.obj fields) (.obj others) = true ↔ fields.length = others.length ∧
      ∀ f ∈ fields, ∃ w, lookup f.1 others = some w ∧ f.2.same w = true := by
  simp [same, sameFields_iff]

/-- Equal scalars are the same, two floats, or one number. -/
theorem scalarEq_cases {v w : Json} (h : v.scalarEq w = true) :
    v = w ∨ (∃ a b, v = .float a ∧ w = .float b ∧ floatEq a b = true) ∨
      ∃ n, v.asInt? = some n ∧ w.asInt? = some n := by
  unfold scalarEq at h
  split at h
  · exact .inl rfl
  · exact .inl (congrArg str (eq_of_beq h))
  · exact .inr (.inl ⟨_, _, rfl, rfl, h⟩)
  · split at h
    · rename_i m n held held'
      exact .inr (.inr ⟨m, held, by rw [held', eq_of_beq h]⟩)
    · cases h

theorem pyEq_arr {items others : List Json} (h : pyEq (.arr items) (.arr others) = true) :
    items.length = others.length ∧ ∀ v ∈ items, ∃ w ∈ others, v.pyEq w = true := by
  have list : pyEqItems items others = true := h
  clear h
  induction items generalizing others with
  | nil =>
    cases others with
    | nil => simp
    | cons => simp [pyEqItems] at list
  | cons v rest ih =>
    cases others with
    | nil => simp [pyEqItems] at list
    | cons w others =>
      simp only [pyEqItems, Bool.and_eq_true] at list
      obtain ⟨size, each⟩ := ih list.2
      refine ⟨by simp [size], List.forall_mem_cons.mpr ⟨⟨w, List.mem_cons_self, list.1⟩, fun v hv => ?_⟩⟩
      obtain ⟨w', hw', equal⟩ := each v hv
      exact ⟨w', List.mem_cons_of_mem _ hw', equal⟩

theorem mixed_cons {v w : Json} {rest others : List Json} :
    Mixed (.arr (v :: rest)) (.arr (w :: others)) ↔ Mixed v w ∨ Mixed (.arr rest) (.arr others) := by
  constructor
  · intro h
    cases h with
    | here plain => exact absurd plain (by simp [isHashable])
    | item i held held' mixed =>
      cases i with
      | zero =>
        rw [List.getElem?_cons_zero, Option.some.injEq] at held held'
        exact .inl (held ▸ held' ▸ mixed)
      | succ i => exact .inr (.item i held held' mixed)
  · rintro (mixed | mixed)
    · exact .item 0 rfl rfl mixed
    · cases mixed with
      | here plain => exact absurd plain (by simp [isHashable])
      | item i held held' mixed => exact .item (i + 1) held held' mixed

theorem sameItems_iff {items others : List Json}
    (each : ∀ v ∈ items, ∀ w, v.same w = true ↔ v.pyEq w = true ∧ ¬ Mixed v w) :
    sameItems items others = true ↔ pyEqItems items others = true ∧ ¬ Mixed (.arr items) (.arr others) := by
  induction items generalizing others with
  | nil =>
    cases others with
    | nil =>
      simp only [sameItems, pyEqItems, true_and, true_iff]
      rintro (⟨plain, -, -⟩ | ⟨i, held, -, -⟩)
      · simp [isHashable] at plain
      · simp at held
    | cons => simp [sameItems, pyEqItems]
  | cons v rest ih =>
    cases others with
    | nil => simp [sameItems, pyEqItems]
    | cons w others =>
      rw [List.forall_mem_cons] at each
      rw [mixed_cons, not_or]
      simp only [sameItems, pyEqItems, Bool.and_eq_true, each.1 w, ih each.2]
      exact and_and_and_comm

/-- The same value: equal for Python, and no two scalars of different types at one place. -/
theorem same_iff (v w : Json) : v.same w = true ↔ v.pyEq w = true ∧ ¬ Mixed v w := by
  have scalar : ∀ v : Json, v.isHashable = true → ∀ w,
      (v.same w = true ↔ v.pyEq w = true ∧ ¬ Mixed v w) := by
    intro v plain w
    rw [same_scalar plain, mixed_scalar plain, (pyEq_scalar w plain).1, Bool.and_eq_true, beq_iff_eq]
    constructor
    · rintro ⟨alike, equal⟩
      exact ⟨equal, fun apart => apart.2 alike⟩
    · rintro ⟨equal, apart⟩
      refine ⟨?_, equal⟩
      by_contra unlike
      exact apart ⟨hashable_of_scalarEq plain equal, unlike⟩
  induction v using byParts generalizing w with
  | null | bool | int | float | str => exact scalar _ rfl w
  | arr items ih =>
    cases w with
    | arr others => exact sameItems_iff ih
    | _ => simp [same, pyEq, typeName, scalarEq, asInt?]
  | obj fields ih =>
    cases w with
    | obj others =>
      rw [same_obj, pyEq_obj]
      constructor
      · rintro ⟨size, each⟩
        refine ⟨⟨size, fun f hf => ?_⟩, fun mixed => ?_⟩
        · obtain ⟨w, held, alike⟩ := each f hf
          exact ⟨w, held, ((ih f hf w).mp alike).1⟩
        · cases mixed with
          | here plain => exact absurd plain (by simp [isHashable])
          | member key mem held mixed =>
            obtain ⟨w, held', alike⟩ := each _ mem
            obtain rfl := Option.some.inj (held.symm.trans held')
            exact ((ih _ mem _).mp alike).2 mixed
      · rintro ⟨⟨size, each⟩, unmixed⟩
        refine ⟨size, fun f hf => ?_⟩
        obtain ⟨w, held, equal⟩ := each f hf
        exact ⟨w, held, (ih f hf w).mpr ⟨equal, fun mixed => unmixed (.member f.1 hf held mixed)⟩⟩
    | _ => simp [same, pyEq, typeName, scalarEq, asInt?]

theorem typeName_of_same {v w : Json} (h : v.same w = true) : v.typeName = w.typeName := by
  cases v <;> cases w <;> first | rfl | simp [same, typeName] at h

end Json
