import Mathlib
import WorkerPool.Lib.JsonText

/-!
# JSON text with spaces

What `json.dumps` writes with its default separators, the keys in the order they have, its length in
bytes, and that the scanner reads it back.
-/

namespace Json

/-- `text.encode()` has so many bytes. -/
def byteLength (cs : List Char) : Nat := (cs.map Char.utf8Size).sum

def joinSpaced : List (List Char) → List Char
  | [] => []
  | [t] => t
  | t :: rest => t ++ ',' :: ' ' :: joinSpaced rest

mutual

/-- `json.dumps(value)`; with `sort_keys=True` it is that of `value.sorted`. -/
def spaced (asciiOnly : Bool) (floatRepr : UInt64 → List Char) : Json → List Char
  | .null => ['n', 'u', 'l', 'l']
  | .bool true => ['t', 'r', 'u', 'e']
  | .bool false => ['f', 'a', 'l', 's', 'e']
  | .int n => (toString n).toList
  | .float bits => floatRepr bits
  | .str s => quote asciiOnly s
  | .arr items => '[' :: joinSpaced (spacedItems asciiOnly floatRepr items) ++ [']']
  | .obj fields => '{' :: joinSpaced (spacedFields asciiOnly floatRepr fields) ++ ['}']

def spacedItems (asciiOnly : Bool) (floatRepr : UInt64 → List Char) : List Json → List (List Char)
  | [] => []
  | v :: rest => spaced asciiOnly floatRepr v :: spacedItems asciiOnly floatRepr rest

def spacedFields (asciiOnly : Bool) (floatRepr : UInt64 → List Char) : List (String × Json) → List (List Char)
  | [] => []
  | (key, v) :: rest =>
    (quote asciiOnly key ++ ':' :: ' ' :: spaced asciiOnly floatRepr v) :: spacedFields asciiOnly floatRepr rest

end

example : String.ofList (spaced false (fun _ => []) (.obj [("b", .arr [.int (-3), .null]), ("a", .str "x")])) =
    "\x7b\"b\": [-3, null], \"a\": \"x\"\x7d" := by decide +kernel

theorem spacedItems_eq (a : Bool) (repr : UInt64 → List Char) (items : List Json) :
    spacedItems a repr items = items.map (spaced a repr) := by
  induction items with
  | nil => rfl
  | cons v rest ih => simp [spacedItems, ih]

/-- A key with its value. -/
def spacedField (a : Bool) (repr : UInt64 → List Char) (f : String × Json) : List Char :=
  quote a f.1 ++ ':' :: ' ' :: spaced a repr f.2

theorem spacedFields_eq (a : Bool) (repr : UInt64 → List Char) (fields : List (String × Json)) :
    spacedFields a repr fields = fields.map (spacedField a repr) := by
  induction fields with
  | nil => rfl
  | cons f rest ih => simp [spacedFields, spacedField, ih]

/-! ### Reading it back -/

section Read

variable {hook : List (String × Json) → Option Json} {a : Bool} {repr : UInt64 → List Char}

theorem joinSpaced_eq (texts : List (List Char)) : joinSpaced texts = joinGap [' '] texts := by
  induction texts with
  | nil => rfl
  | cons t rest ih =>
    cases rest with
    | nil => rfl
    | cons => exact congrArg (fun cs => t ++ ',' :: ' ' :: cs) ih

theorem spaced_scalar {v : Json} (plain : v.isHashable = true) : spaced a repr v = dumps a repr v := by
  cases v with
  | bool b => cases b <;> rfl
  | arr | obj => simp [isHashable] at plain
  | _ => rfl

theorem opens_spaced {v : Json} (h : ReadsBack repr v) : Opens (spaced a repr v) := by
  cases v with
  | arr items => exact ⟨_, _, rfl, rfl, by decide⟩
  | obj fields => exact ⟨_, _, rfl, rfl, by decide⟩
  | _ =>
    rw [spaced_scalar rfl]
    exact opens_dumps h

/-- What `json.dumps` wrote of a value, the scanner reads. -/
theorem scans_spaced (law : ∀ fields, (keys fields).Nodup → hook fields = some (.obj fields))
    {v : Json} (distinct : v.Everywhere KeysDistinct) (reads : v.Everywhere (ReadsBack repr)) :
    ScansText hook (spaced a repr) v := by
  induction v using byParts with
  | null | bool | int | float | str => exact scansText_scalar rfl (spaced_scalar rfl) reads.here
  | arr items ih =>
    rw [everywhere_arr] at distinct reads
    have written : spaced a repr (.arr items) = '[' :: joinGap [' '] (items.map (spaced a repr)) ++ [']'] := by
      rw [spaced, spacedItems_eq, joinSpaced_eq]
    exact scansText_arr rfl written (fun v hv => ih v hv (distinct.2 v hv) (reads.2 v hv))
      fun v hv => opens_spaced (reads.2 v hv).here
  | obj fields ih =>
    rw [everywhere_obj] at distinct reads
    have written : spaced a repr (.obj fields) =
        '{' :: joinGap [' '] (fields.map (gapField a [' '] (spaced a repr))) ++ ['}'] := by
      rw [spaced, spacedFields_eq, joinSpaced_eq]
      rfl
    exact scansText_obj rfl law distinct.1 written (fun f hf => ih f hf (distinct.2 f hf) (reads.2 f hf))
      fun f hf => opens_spaced (reads.2 f hf).here

/-- `json.loads` of what `json.dumps` wrote of a dictionary is the dictionary again, also in front of blanks. -/
theorem loads_spaced (law : ∀ fields, (keys fields).Nodup → hook fields = some (.obj fields))
    {fields : List (String × Json)} (distinct : (obj fields).Everywhere KeysDistinct)
    (reads : (obj fields).Everywhere (ReadsBack repr)) {after : List Char} (blank : after.all isBlank = true) :
    loads hook (spaced a repr (.obj fields) ++ after) = some (.obj fields) := by
  have skip := (opens_spaced (a := a) reads.here).skipBlanks after
  rw [everywhere_obj] at distinct reads
  have written : spaced a repr (.obj fields) =
      '{' :: joinGap [' '] (fields.map (gapField a [' '] (spaced a repr))) ++ ['}'] := by
    rw [spaced, spacedFields_eq, joinSpaced_eq]
    rfl
  have scanned : scanValue hook (2 * (spaced a repr (.obj fields) ++ after).length + 1)
      (spaced a repr (.obj fields) ++ after) = some (.obj fields, after) :=
    scanValue_obj rfl law distinct.1 written (fun f hf => scans_spaced law (distinct.2 f hf) (reads.2 f hf))
      (fun f hf => opens_spaced (reads.2 f hf).here) after (by rw [List.length_append]; omega)
  have nothing : skipBlanks after = [] := by
    rw [skipBlanks, List.dropWhile_eq_nil_iff]
    exact List.all_eq_true.mp blank
  simp only [loads, skip, scanned, Option.bind_eq_bind, Option.bind_some, nothing, if_true]
  rfl

end Read

/-! ### Bytes -/

@[simp] theorem byteLength_nil : byteLength [] = 0 := rfl

@[simp] theorem byteLength_cons (c : Char) (cs : List Char) : byteLength (c :: cs) = c.utf8Size + byteLength cs := by
  simp [byteLength]

@[simp] theorem byteLength_append (cs cs' : List Char) : byteLength (cs ++ cs') = byteLength cs + byteLength cs' := by
  simp [byteLength]

/-- The bytes of texts that are joined, a comma and a space between any two. -/
def joinedBytes (texts : List (List Char)) : Nat := byteLength (joinSpaced texts)

theorem joinedBytes_cons (text : List Char) {texts : List (List Char)} (more : texts ≠ []) :
    joinedBytes (text :: texts) = byteLength text + 2 + joinedBytes texts := by
  obtain ⟨next, rest, rfl⟩ := List.exists_cons_of_ne_nil more
  have comma : ','.utf8Size = 1 := by decide
  have space : ' '.utf8Size = 1 := by decide
  simp only [joinedBytes, joinSpaced, byteLength_append, byteLength_cons, comma, space]
  omega

theorem joinedBytes_append_single {texts : List (List Char)} (some : texts ≠ []) (text : List Char) :
    joinedBytes (texts ++ [text]) = joinedBytes texts + 2 + byteLength text := by
  induction texts with
  | nil => exact absurd rfl some
  | cons first rest ih =>
    cases rest with
    | nil => exact joinedBytes_cons first (List.cons_ne_nil _ _)
    | cons next rest =>
      have tail := ih (List.cons_ne_nil _ _)
      rw [List.cons_append, joinedBytes_cons first (by simp), tail, joinedBytes_cons first (List.cons_ne_nil _ _)]
      omega

/-- Joining more texts takes no fewer bytes. -/
theorem joinedBytes_le_append (texts more : List (List Char)) :
    joinedBytes texts ≤ joinedBytes (texts ++ more) := by
  induction texts with
  | nil => exact Nat.zero_le _
  | cons first rest ih =>
    by_cases last : rest = []
    · subst last
      cases more with
      | nil => exact Nat.le_refl _
      | cons next more =>
        rw [List.cons_append, List.nil_append, joinedBytes_cons first (List.cons_ne_nil _ _)]
        have only : joinedBytes [first] = byteLength first := rfl
        omega
    · rw [List.cons_append, joinedBytes_cons first last, joinedBytes_cons first (by simp [last])]
      omega

/-- `len(json.dumps(value, …).encode())`. -/
def spacedBytes (a : Bool) (repr : UInt64 → List Char) (v : Json) : Nat := byteLength (spaced a repr v)

theorem byteLength_spacedField (a : Bool) (repr : UInt64 → List Char) (key : String) (v : Json) :
    byteLength (spacedField a repr (key, v)) = byteLength (quote a key) + 2 + spacedBytes a repr v := by
  have colon : ':'.utf8Size = 1 := by decide
  have space : ' '.utf8Size = 1 := by decide
  simp only [spacedField, byteLength_append, byteLength_cons, colon, space, spacedBytes]
  omega

theorem spacedBytes_obj (a : Bool) (repr : UInt64 → List Char) (fields : List (String × Json)) :
    spacedBytes a repr (.obj fields) = joinedBytes (fields.map (spacedField a repr)) + 2 := by
  have opens : '{'.utf8Size = 1 := by decide
  have closes : '}'.utf8Size = 1 := by decide
  simp only [spacedBytes, spaced, spacedFields_eq, byteLength_append, byteLength_cons, byteLength_nil, opens, closes,
    joinedBytes]
  omega

theorem spacedBytes_arr (a : Bool) (repr : UInt64 → List Char) (items : List Json) :
    spacedBytes a repr (.arr items) = joinedBytes (items.map (spaced a repr)) + 2 := by
  have opens : '['.utf8Size = 1 := by decide
  have closes : ']'.utf8Size = 1 := by decide
  simp only [spacedBytes, spaced, spacedItems_eq, byteLength_append, byteLength_cons, byteLength_nil, opens, closes,
    joinedBytes]
  omega

/-- The quoted text of a letter so many times. -/
theorem byteLength_quote_replicate (a : Bool) (n : Nat) (c : Char) :
    byteLength (quote a (String.ofList (List.replicate n c))) = n * byteLength (escapeChar a c) + 2 := by
  have each : byteLength ((List.replicate n c).flatMap (escapeChar a)) = n * byteLength (escapeChar a c) := by
    induction n with
    | zero => simp
    | succ n ih => rw [List.replicate_succ, List.flatMap_cons, byteLength_append, ih, Nat.succ_mul, Nat.add_comm]
  have mark : '"'.utf8Size = 1 := by decide
  simp only [quote, String.toList_ofList, byteLength_append, byteLength_cons, byteLength_nil, List.cons_append, each,
    mark]
  omega

theorem length_quote_replicate (a : Bool) (n : Nat) (c : Char) :
    (quote a (String.ofList (List.replicate n c))).length = n * (escapeChar a c).length + 2 := by
  have each : ((List.replicate n c).flatMap (escapeChar a)).length = n * (escapeChar a c).length := by
    induction n with
    | zero => simp
    | succ n ih => rw [List.replicate_succ, List.flatMap_cons, List.length_append, ih, Nat.succ_mul, Nat.add_comm]
  simp only [quote, String.toList_ofList, List.length_append, List.length_cons, List.length_nil, each]

/-! ### Hexadecimal texts -/

section Hex

open PyText

theorem isLowerHex_range {c : Char} (h : isLowerHex c = true) :
    48 ≤ c.toNat ∧ c.toNat ≤ 57 ∨ 97 ≤ c.toNat ∧ c.toNat ≤ 102 := by
  simp only [isLowerHex, Bool.or_eq_true, Bool.and_eq_true, decide_eq_true_eq, Char.le_def,
    UInt32.le_iff_toNat_le] at h
  exact h

theorem escapeChar_hex (a : Bool) {c : Char} (h : isLowerHex c = true) : escapeChar a c = [c] := by
  have range := isLowerHex_range h
  have other : ∀ d : Char, (d.toNat < 48 ∨ 57 < d.toNat ∧ d.toNat < 97) → c ≠ d := by
    rintro d low rfl
    omega
  unfold escapeChar
  simp only [other '"' (by decide), other '\\' (by decide), other '\n' (by decide), other '\r' (by decide),
    other '\t' (by decide), if_false]
  rw [if_neg (by omega), if_neg (by omega), if_neg (by omega), if_neg (by omega)]

theorem utf8Size_hex {c : Char} (h : isLowerHex c = true) : c.utf8Size = 1 := by
  have range := isLowerHex_range h
  have small : c.val ≤ 127 := by
    rw [UInt32.le_iff_toNat_le]
    show c.toNat ≤ 127
    omega
  simp [Char.utf8Size, small]

/-- A hexadecimal text takes one byte for each letter and two for the quotes. -/
theorem byteLength_quote_hex {text : String} (hex : text.toList.all isLowerHex = true) :
    byteLength (quote false text) = text.toList.length + 2 := by
  have each : ∀ cs : List Char, cs.all isLowerHex = true →
      byteLength (cs.flatMap (escapeChar false)) = cs.length := by
    intro cs
    induction cs with
    | nil => intro; rfl
    | cons c rest ih =>
      intro all
      rw [List.all_cons, Bool.and_eq_true] at all
      rw [List.flatMap_cons, escapeChar_hex false all.1, byteLength_append, ih all.2, List.length_cons]
      simp only [byteLength_cons, byteLength_nil, utf8Size_hex all.1]
      omega
  have mark : '"'.utf8Size = 1 := by decide
  simp only [quote, byteLength_append, byteLength_cons, byteLength_nil, List.cons_append, each _ hex, mark]
  omega

theorem length_quote_hex (a : Bool) {text : String} (hex : text.toList.all isLowerHex = true) :
    (quote a text).length = text.toList.length + 2 := by
  have each : ∀ cs : List Char, cs.all isLowerHex = true → cs.flatMap (escapeChar a) = cs := by
    intro cs
    induction cs with
    | nil => intro; rfl
    | cons c rest ih =>
      intro all
      rw [List.all_cons, Bool.and_eq_true] at all
      rw [List.flatMap_cons, escapeChar_hex a all.1, ih all.2, List.singleton_append]
  simp only [quote, each _ hex, List.length_append, List.length_cons, List.length_nil]

end Hex

end Json
