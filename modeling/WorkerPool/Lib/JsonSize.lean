import Mathlib
import WorkerPool.Lib.JsonText

/-!
# How much `json.dumps` writes

With `ensure_ascii` only ASCII, and a number of letters that the lengths of the strings and the
shape of the value bound.
-/

namespace Json

variable {a : Bool} {repr : UInt64 → List Char}

/-! ### ASCII -/

def Ascii (cs : List Char) : Prop := ∀ c ∈ cs, c.toNat < 128

theorem hexChar_ascii (n : Nat) : (hexChar n).toNat < 128 := by
  have bound : n % 16 < 16 := Nat.mod_lt n (by decide)
  unfold hexChar
  generalize n % 16 = d at bound ⊢
  revert d
  decide

theorem unicodeEscape_ascii (n : Nat) : Ascii (unicodeEscape n) := by
  simp only [Ascii, unicodeEscape, List.forall_mem_cons, hexChar_ascii]
  exact ⟨by decide, by decide, trivial, trivial, trivial, trivial, fun _ nobody => absurd nobody List.not_mem_nil⟩

theorem escapeChar_ascii (c : Char) : Ascii (escapeChar true c) := by
  unfold escapeChar
  repeat' split
  all_goals first | exact unicodeEscape_ascii _ | exact List.all_iff_forall_prop.mp (by decide) | skip
  · intro d inside
    rcases List.mem_append.mp inside with first | second
    · exact unicodeEscape_ascii _ d first
    · exact unicodeEscape_ascii _ d second
  · rename_i low high
    intro d inside
    rw [List.mem_singleton.mp inside]
    simp only [true_and, not_or, not_and, not_lt, not_le] at low high
    omega

theorem quote_ascii (s : String) : Ascii (quote true s) := by
  intro c inside
  simp only [quote, List.cons_append, List.mem_cons, List.mem_append, List.mem_flatMap,
    List.not_mem_nil, or_false] at inside
  rcases inside with rfl | ⟨d, -, escaped⟩ | rfl
  · decide
  · exact escapeChar_ascii d c escaped
  · decide

theorem mem_joinComma {texts : List (List Char)} {c : Char} (h : c ∈ joinComma texts) :
    c = ',' ∨ ∃ text ∈ texts, c ∈ text := by
  induction texts with
  | nil => cases h
  | cons text texts ih =>
    cases texts with
    | nil => exact .inr ⟨text, List.mem_cons_self, h⟩
    | cons next texts =>
      rcases List.mem_append.mp h with here | later
      · exact .inr ⟨text, List.mem_cons_self, here⟩
      · rcases List.mem_cons.mp later with comma | later
        · exact .inl comma
        · rcases ih later with comma | ⟨text', inside, held⟩
          · exact .inl comma
          · exact .inr ⟨text', List.mem_cons_of_mem _ inside, held⟩

/-- What a float is written as, of the floats that a value holds. -/
def FloatsAscii (repr : UInt64 → List Char) : Json → Prop
  | .float bits => Ascii (repr bits)
  | _ => True

theorem digit_ascii {c : Char} (h : c.isDigit = true) : c.toNat < 128 := by
  simp only [Char.isDigit, Bool.and_eq_true, decide_eq_true_eq] at h
  have high : c.toNat ≤ '9'.toNat := h.2
  exact Nat.lt_of_le_of_lt high (by decide)

theorem int_ascii (n : Int) : Ascii (toString n).toList := by
  cases n with
  | ofNat m =>
    have text : (toString (Int.ofNat m)).toList = Nat.toDigits 10 m := Nat.toList_repr
    rw [text]
    exact fun c inside => digit_ascii (Nat.isDigit_of_mem_toDigits (by decide) (by decide) inside)
  | negSucc m =>
    have text : (toString (Int.negSucc m)).toList = '-' :: Nat.toDigits 10 (m + 1) := by
      show ("-" ++ (m + 1).repr).toList = _
      rw [String.toList_append, Nat.toList_repr]
      rfl
    rw [text]
    refine List.forall_mem_cons.mpr ⟨by decide, fun c inside => ?_⟩
    exact digit_ascii (Nat.isDigit_of_mem_toDigits (by decide) (by decide) inside)

theorem joinComma_ascii {texts : List (List Char)} (each : ∀ text ∈ texts, Ascii text) :
    Ascii (joinComma texts) := by
  intro c inside
  rcases mem_joinComma inside with rfl | ⟨text, held, here⟩
  · decide
  · exact each text held c here

theorem enclosed_ascii {first last : Char} {cs : List Char} (opens : first.toNat < 128)
    (closes : last.toNat < 128) (inner : Ascii cs) : Ascii (first :: cs ++ [last]) := by
  intro c inside
  rcases List.mem_append.mp inside with inside | end_
  · rcases List.mem_cons.mp inside with rfl | inside
    · exact opens
    · exact inner c inside
  · rw [List.mem_singleton.mp end_]
    exact closes

theorem dumps_ascii {v : Json} (floats : v.Everywhere (FloatsAscii repr)) : Ascii (dumps true repr v) := by
  induction v using byParts with
  | null =>
    unfold dumps
    exact List.all_iff_forall_prop.mp (by decide)
  | bool b =>
    cases b <;>
    · unfold dumps
      exact List.all_iff_forall_prop.mp (by decide)
  | int n => exact int_ascii n
  | float bits => exact floats.here
  | str s => exact quote_ascii s
  | arr items ih =>
    rw [everywhere_arr] at floats
    rw [dumps, dumpsItems_eq]
    refine enclosed_ascii (by decide) (by decide) (joinComma_ascii fun text inside => ?_)
    obtain ⟨v, held, rfl⟩ := List.mem_map.mp inside
    exact ih v held (floats.2 v held)
  | obj fields ih =>
    rw [everywhere_obj] at floats
    rw [dumps, dumpsFields_eq, sortByKey_map, List.map_map]
    refine enclosed_ascii (by decide) (by decide) (joinComma_ascii fun text inside => ?_)
    obtain ⟨f, held, rfl⟩ := List.mem_map.mp inside
    have member := mem_sortFields.mp held
    intro c here
    rcases List.mem_append.mp here with key | value
    · exact quote_ascii f.1 c key
    · rcases List.mem_cons.mp value with rfl | value
      · decide
      · exact ih f member (floats.2 f member) c value

/-! ### Size -/

mutual

/-- A bound on the number of letters of a value. -/
def width (repr : UInt64 → List Char) : Json → Nat
  | .null => 4
  | .bool _ => 5
  | .int n => (toString n).length
  | .float bits => (repr bits).length
  | .str s => 12 * s.length + 2
  | .arr items => widthOfItems repr items + 2
  | .obj fields => widthOfFields repr fields + 2

def widthOfItems (repr : UInt64 → List Char) : List Json → Nat
  | [] => 0
  | v :: rest => width repr v + 1 + widthOfItems repr rest

def widthOfFields (repr : UInt64 → List Char) : List (String × Json) → Nat
  | [] => 0
  | (key, v) :: rest => 12 * key.length + 4 + width repr v + widthOfFields repr rest

end

theorem length_escapeChar (c : Char) : (escapeChar a c).length ≤ 12 := by
  unfold escapeChar unicodeEscape
  repeat' split
  all_goals simp

theorem length_quote (s : String) : (quote a s).length ≤ 12 * s.length + 2 := by
  have inner : ∀ cs : List Char, (cs.flatMap (escapeChar a)).length ≤ 12 * cs.length := by
    intro cs
    induction cs with
    | nil => simp
    | cons c cs ih =>
      have first := length_escapeChar (a := a) c
      simp only [List.flatMap_cons, List.length_append, List.length_cons]
      omega
  have held := inner s.toList
  simp only [quote, List.length_append, List.length_cons, List.length_nil, String.length_toList] at held ⊢
  omega

/-- The letters of a list, each with its comma. -/
def joined (texts : List (List Char)) : Nat := (texts.map fun text => text.length + 1).sum

theorem length_joinComma (texts : List (List Char)) : (joinComma texts).length ≤ joined texts := by
  induction texts with
  | nil => simp [joinComma]
  | cons text texts ih =>
    cases texts with
    | nil => simp [joinComma, joined]
    | cons next texts =>
      simp only [joinComma, joined, List.length_append, List.length_cons, List.map_cons,
        List.sum_cons] at ih ⊢
      omega

theorem length_dumps (v : Json) : (dumps a repr v).length ≤ width repr v := by
  induction v using byParts with
  | null => exact Nat.le_refl _
  | bool b =>
    cases b with
    | true => exact Nat.le_succ 4
    | false => exact Nat.le_refl 5
  | int n => exact Nat.le_of_eq String.length_toList
  | float bits => exact Nat.le_refl _
  | str s => exact length_quote s
  | arr items ih =>
    have inner : joined (items.map (dumps a repr)) ≤ widthOfItems repr items := by
      induction items with
      | nil => exact Nat.le_refl 0
      | cons v rest tail =>
        rw [List.forall_mem_cons] at ih
        have later := tail ih.2
        have first := ih.1
        simp only [joined, List.map_cons, List.sum_cons, widthOfItems] at later ⊢
        omega
    have whole := length_joinComma (items.map (dumps a repr))
    simp only [dumps, dumpsItems_eq, width, List.length_append, List.length_cons, List.length_nil]
    omega
  | obj fields ih =>
    have texts : ∀ fields : List (String × Json), (∀ f ∈ fields, (dumps a repr f.2).length ≤ width repr f.2) →
        joined (fields.map (fieldText a repr)) ≤ widthOfFields repr fields := by
      intro fields held
      induction fields with
      | nil => exact Nat.le_refl 0
      | cons f rest tail =>
        rw [List.forall_mem_cons] at held
        have later := tail held.2
        have first := held.1
        have key := length_quote (a := a) f.1
        simp only [joined, List.map_cons, List.sum_cons, widthOfFields, fieldText, List.length_append,
          List.length_cons] at later ⊢
        omega
    have same : joined ((sortFields fields).map (fieldText a repr)) = joined (fields.map (fieldText a repr)) := by
      unfold joined
      exact (((sortFields_perm fields).map _).map _).sum_nat
    have inner := texts fields ih
    have whole := length_joinComma ((sortFields fields).map (fieldText a repr))
    have written : dumps a repr (.obj fields) =
        '{' :: joinComma ((sortFields fields).map (fieldText a repr)) ++ ['}'] := by
      rw [dumps, dumpsFields_eq, sortByKey_map, List.map_map]
      rfl
    simp only [written, width, List.length_append, List.length_cons, List.length_nil]
    omega

theorem dumps_obj_pos (a : Bool) (repr : UInt64 → List Char) (fields : List (String × Json)) :
    0 < ((Json.obj fields).dumps a repr).length := by
  rw [Json.dumps]
  exact Nat.succ_pos _

end Json
