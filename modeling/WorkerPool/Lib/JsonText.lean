import WorkerPool.Lib.Float64
import WorkerPool.Lib.JsonDict

/-!
# Reading JSON text

The scanner behind `json.loads`, with the hook that it calls for each dictionary and with
`NaN` and the infinities refused, and what it makes of a text that `json.dumps` wrote.
-/

namespace Json

/-! ### Texts -/

def isBlank (c : Char) : Bool := c = ' ' || c = '\t' || c = '\n' || c = '\r'

def skipBlanks (cs : List Char) : List Char := cs.dropWhile isBlank

def hexValue? (c : Char) : Option Nat :=
  if '0' ≤ c ∧ c ≤ '9' then some (c.toNat - 48)
  else if 'a' ≤ c ∧ c ≤ 'f' then some (c.toNat - 87)
  else if 'A' ≤ c ∧ c ≤ 'F' then some (c.toNat - 55)
  else none

/-- The four digits of `\uXXXX`. -/
def scanUnit : List Char → Option (Nat × List Char)
  | a :: b :: c :: d :: rest => do
    let a ← hexValue? a
    let b ← hexValue? b
    let c ← hexValue? c
    let d ← hexValue? d
    pure (((a * 16 + b) * 16 + c) * 16 + d, rest)
  | _ => none

/-- One or two units. A unit of a surrogate pair that stands alone is no character here. -/
def scanEscape (cs : List Char) : Option (Char × List Char) := do
  let (high, rest) ← scanUnit cs
  if 0xD800 ≤ high ∧ high < 0xDC00 then
    match rest with
    | '\\' :: 'u' :: rest =>
      let (low, rest) ← scanUnit rest
      if 0xDC00 ≤ low ∧ low < 0xE000 then
        pure (Char.ofNat (0x10000 + (high - 0xD800) * 1024 + (low - 0xDC00)), rest)
      else none
    | _ => none
  else if 0xDC00 ≤ high ∧ high < 0xE000 then none
  else pure (Char.ofNat high, rest)

def escaped? (c : Char) : Option Char :=
  if c = '"' ∨ c = '\\' ∨ c = '/' then some c
  else if c = 'b' then some (Char.ofNat 8)
  else if c = 'f' then some (Char.ofNat 12)
  else if c = 'n' then some '\n'
  else if c = 'r' then some '\r'
  else if c = 't' then some '\t'
  else none

def scanChar : List Char → Option (Char × List Char)
  | '\\' :: 'u' :: rest => scanEscape rest
  | '\\' :: c :: rest => (escaped? c).map fun e => (e, rest)
  | c :: rest => if c = '\\' ∨ c.toNat < 32 then none else some (c, rest)
  | [] => none

/-- The characters up to the closing quote. -/
def scanString : Nat → List Char → Option (List Char × List Char)
  | 0, _ => none
  | fuel + 1, cs =>
    if cs.head? = some '"' then some ([], cs.tail)
    else do
      let (c, rest) ← scanChar cs
      let (text, rest) ← scanString fuel rest
      pure (c :: text, rest)

/-! ### Numbers -/

/-- The most digits that `int` reads or writes. -/
def maxDigits : Nat := 4300

def scanDigits (cs : List Char) : List Char × List Char :=
  (cs.takeWhile Char.isDigit, cs.dropWhile Char.isDigit)

def scanSign : List Char → Bool × List Char
  | '-' :: rest => (true, rest)
  | rest => (false, rest)

/-- Digits, of which the first is zero only if it is the last. -/
def scanInteger : List Char → List Char × List Char
  | '0' :: rest => (['0'], rest)
  | rest => scanDigits rest

/-- A point with digits, if there is one. -/
def scanFraction (cs : List Char) : Option (List Char) × List Char :=
  match cs with
  | '.' :: rest =>
    let (digits, rest) := scanDigits rest
    if digits = [] then (none, cs) else (some digits, rest)
  | _ => (none, cs)

/-- `e` or `E` with digits, if it is there. -/
def scanExponent (cs : List Char) : Option Int × List Char :=
  match cs with
  | e :: rest =>
    if e = 'e' ∨ e = 'E' then
      let (negative, tail) := match rest with
        | '-' :: tail => (true, tail)
        | '+' :: tail => (false, tail)
        | tail => (false, tail)
      let (digits, tail) := scanDigits tail
      if digits = [] then (none, cs)
      else
        let n : Int := Nat.ofDigitChars 10 digits 0
        (some (if negative then -n else n), tail)
    else (none, cs)
  | [] => (none, cs)

def scanNumber (cs : List Char) : Option (Json × List Char) :=
  let (negative, rest) := scanSign cs
  let (digits, rest) := scanInteger rest
  if digits = [] then none
  else
    let (fraction, rest) := scanFraction rest
    let (exponent, rest) := scanExponent rest
    if fraction = none ∧ exponent = none then
      let n : Int := Nat.ofDigitChars 10 digits 0
      if digits.length ≤ maxDigits then some (.int (if negative then -n else n), rest) else none
    else
      let after := fraction.getD []
      some (.float (Float64.ofDecimal negative (Nat.ofDigitChars 10 (digits ++ after) 0)
        (exponent.getD 0 - after.length)), rest)

/-! ### Values -/

/-- `value` if the text goes on with `word`. -/
def scanWord (word : List Char) (value : Json) (cs : List Char) : Option (Json × List Char) :=
  if word <+: cs then some (value, cs.drop word.length) else none

mutual

def scanValue (hook : List (String × Json) → Option Json) :
    Nat → List Char → Option (Json × List Char)
  | 0, _ => none
  | fuel + 1, cs =>
    match cs with
    | '"' :: rest => (scanString (rest.length + 1) rest).map fun p => (.str (String.ofList p.1), p.2)
    | '[' :: rest =>
      match skipBlanks rest with
      | ']' :: rest => some (.arr [], rest)
      | rest => (scanItems hook fuel rest).map fun p => (.arr p.1, p.2)
    | '{' :: rest =>
      match skipBlanks rest with
      | '}' :: rest => (hook []).map fun v => (v, rest)
      | rest => do
        let (fields, rest) ← scanFields hook fuel rest
        let v ← hook fields
        pure (v, rest)
    | 'n' :: _ => scanWord ['n', 'u', 'l', 'l'] .null cs
    | 't' :: _ => scanWord ['t', 'r', 'u', 'e'] (.bool true) cs
    | 'f' :: _ => scanWord ['f', 'a', 'l', 's', 'e'] (.bool false) cs
    | _ => scanNumber cs

def scanItems (hook : List (String × Json) → Option Json) :
    Nat → List Char → Option (List Json × List Char)
  | 0, _ => none
  | fuel + 1, cs => do
    let (v, rest) ← scanValue hook fuel cs
    match skipBlanks rest with
    | ']' :: rest => pure ([v], rest)
    | ',' :: rest =>
      let (items, rest) ← scanItems hook fuel (skipBlanks rest)
      pure (v :: items, rest)
    | _ => none

def scanFields (hook : List (String × Json) → Option Json) :
    Nat → List Char → Option (List (String × Json) × List Char)
  | 0, _ => none
  | fuel + 1, cs =>
    match cs with
    | '"' :: rest => do
      let (key, rest) ← scanString (rest.length + 1) rest
      match skipBlanks rest with
      | ':' :: rest =>
        let (v, rest) ← scanValue hook fuel (skipBlanks rest)
        match skipBlanks rest with
        | '}' :: rest => pure ([(String.ofList key, v)], rest)
        | ',' :: rest =>
          let (fields, rest) ← scanFields hook fuel (skipBlanks rest)
          pure ((String.ofList key, v) :: fields, rest)
        | _ => none
      | _ => none
    | _ => none

end

/-- `json.loads(text, object_pairs_hook=hook)`. -/
def loads (hook : List (String × Json) → Option Json) (cs : List Char) : Option Json := do
  let (v, rest) ← scanValue hook (2 * cs.length + 1) (skipBlanks cs)
  if skipBlanks rest = [] then pure v else none

example : (loads (fun fields => some (.obj fields))
    " \x7b\"b\" : [1, -20, true ], \"\\u0061\":null\x7d".toList).map (dumps true fun _ => []) =
    some "\x7b\"a\":null,\"b\":[1,-20,true]\x7d".toList := by decide +kernel

/-! ### Reading back texts -/

theorem hexValue?_hexChar (n : Nat) : hexValue? (hexChar n) = some (n % 16) := by
  have bound : n % 16 < 16 := Nat.mod_lt n (by decide)
  unfold hexChar
  generalize n % 16 = d at bound ⊢
  revert d
  decide

theorem scanUnit_unicodeEscape {n : Nat} (bound : n < 65536) (rest : List Char) :
    scanUnit ((unicodeEscape n).drop 2 ++ rest) = some (n, rest) := by
  have digits : ((n / 4096 % 16 * 16 + n / 256 % 16) * 16 + n / 16 % 16) * 16 + n % 16 = n := by
    omega
  simp [unicodeEscape, scanUnit, hexValue?_hexChar, digits]

/-- The code of a character is no half of a surrogate pair. -/
theorem not_surrogate (c : Char) : c.toNat < 0xD800 ∨ 0xE000 ≤ c.toNat ∧ c.toNat < 0x110000 := by
  have valid := c.valid
  simp only [UInt32.isValidChar, Nat.isValidChar] at valid
  rcases valid with low | ⟨above, high⟩
  · exact Or.inl low
  · exact Or.inr ⟨by simp only [Char.toNat]; omega, high⟩

theorem scanEscape_single {cs rest : List Char} {n : Nat} (unit : scanUnit cs = some (n, rest))
    (valid : n < 0xD800 ∨ 0xE000 ≤ n) : scanEscape cs = some (Char.ofNat n, rest) := by
  have high : ¬ (0xD800 ≤ n ∧ n < 0xDC00) := by omega
  have low : ¬ (0xDC00 ≤ n ∧ n < 0xE000) := by omega
  simp only [scanEscape, unit, Option.bind_eq_bind, Option.bind_some, if_neg high, if_neg low]
  rfl

theorem scanEscape_pair {cs cs' rest : List Char} {high low : Nat}
    (first : scanUnit cs = some (high, '\\' :: 'u' :: cs'))
    (second : scanUnit cs' = some (low, rest)) (above : 0xD800 ≤ high ∧ high < 0xDC00)
    (below : 0xDC00 ≤ low ∧ low < 0xE000) :
    scanEscape cs =
      some (Char.ofNat (0x10000 + (high - 0xD800) * 1024 + (low - 0xDC00)), rest) := by
  simp only [scanEscape, first, second, Option.bind_eq_bind, Option.bind_some, if_pos above,
    if_pos below]
  rfl

theorem scanChar_unicodeEscape {c : Char} (bound : c.toNat < 65536) (rest : List Char) :
    scanChar (unicodeEscape c.toNat ++ rest) = some (c, rest) := by
  have valid := not_surrogate c
  have unit := scanEscape_single (scanUnit_unicodeEscape bound rest) (by omega)
  rw [Char.ofNat_toNat] at unit
  exact unit

theorem scanChar_pair {c : Char} (bound : 65536 ≤ c.toNat) (rest : List Char) :
    scanChar (unicodeEscape (0xD800 + (c.toNat - 65536) / 1024) ++
      unicodeEscape (0xDC00 + (c.toNat - 65536) % 1024) ++ rest) = some (c, rest) := by
  have valid := not_surrogate c
  obtain ⟨high, isHigh⟩ : ∃ high, high = 0xD800 + (c.toNat - 65536) / 1024 := ⟨_, rfl⟩
  obtain ⟨low, isLow⟩ : ∃ low, low = 0xDC00 + (c.toNat - 65536) % 1024 := ⟨_, rfl⟩
  rw [← isHigh, ← isLow, List.append_assoc]
  have first := scanUnit_unicodeEscape (n := high) (by omega) (unicodeEscape low ++ rest)
  have second := scanUnit_unicodeEscape (n := low) (by omega) rest
  have pair := scanEscape_pair first second (by omega) (by omega)
  have whole : 0x10000 + (high - 0xD800) * 1024 + (low - 0xDC00) = c.toNat := by omega
  rw [whole, Char.ofNat_toNat] at pair
  exact pair

theorem scanChar_raw {c : Char} (slash : c ≠ '\\') (control : 32 ≤ c.toNat) (rest : List Char) :
    scanChar (c :: rest) = some (c, rest) := by
  unfold scanChar
  split
  case h_1 h => exact absurd (List.cons.inj h).1 slash
  case h_2 h => exact absurd (List.cons.inj h).1 slash
  case h_3 h =>
    obtain ⟨rfl, rfl⟩ := List.cons.inj h
    exact if_neg (by simp only [slash, false_or]; omega)
  case h_4 h => exact absurd h (List.cons_ne_nil _ _)

theorem scanChar_escapeChar (a : Bool) (c : Char) (rest : List Char) :
    scanChar (escapeChar a c ++ rest) = some (c, rest) := by
  unfold escapeChar
  split
  case isTrue h => subst h; rfl
  split
  case isTrue h => subst h; rfl
  split
  case isTrue h => subst h; rfl
  split
  case isTrue h => subst h; rfl
  split
  case isTrue h => subst h; rfl
  split
  case isTrue h => rw [← Char.ofNat_toNat c, h]; rfl
  split
  case isTrue h => rw [← Char.ofNat_toNat c, h]; rfl
  split
  case isTrue h => exact scanChar_unicodeEscape (by omega) rest
  split
  case isTrue h => exact scanChar_pair h.2 rest
  case isFalse quoted slash _ _ _ _ _ control _ =>
    exact scanChar_raw slash (by omega) rest

theorem head_escapeChar (a : Bool) (c : Char) : ∃ d t, escapeChar a c = d :: t ∧ d ≠ '"' := by
  unfold escapeChar unicodeEscape
  repeat'
    split
    · exact ⟨_, _, rfl, by decide⟩
  case isFalse quoted _ _ _ _ _ _ _ _ => exact ⟨_, _, rfl, quoted⟩

/-- A text reads back as it was quoted, whatever follows it. -/
theorem scanString_escaped (a : Bool) (cs rest : List Char) :
    ∀ fuel, cs.length < fuel →
      scanString fuel (cs.flatMap (escapeChar a) ++ '"' :: rest) = some (cs, rest) := by
  induction cs with
  | nil =>
    intro fuel enough
    obtain ⟨n, rfl⟩ := Nat.exists_eq_add_one_of_ne_zero (Nat.ne_of_gt enough)
    rfl
  | cons c cs ih =>
    intro fuel enough
    obtain ⟨n, rfl⟩ : ∃ n, fuel = n + 1 := ⟨fuel - 1, by omega⟩
    have step := scanChar_escapeChar a c (cs.flatMap (escapeChar a) ++ '"' :: rest)
    have tail := ih n (by simpa using enough)
    obtain ⟨d, t, written, plain⟩ := head_escapeChar a c
    rw [List.flatMap_cons, List.append_assoc, scanString, if_neg (by simp [written, plain]), step]
    simp [tail]

theorem length_le_flatMap_escapeChar (a : Bool) (cs : List Char) :
    cs.length ≤ (cs.flatMap (escapeChar a)).length := by
  induction cs with
  | nil => simp
  | cons c cs ih =>
    obtain ⟨d, t, written, -⟩ := head_escapeChar a c
    simp only [List.flatMap_cons, List.length_append, List.length_cons, written]
    omega

/-- With the fuel that the scanner gives itself. -/
theorem scanString_quote (a : Bool) (s : String) (rest : List Char) :
    ∃ body, quote a s ++ rest = '"' :: body ∧
      scanString (body.length + 1) body = some (s.toList, rest) := by
  refine ⟨s.toList.flatMap (escapeChar a) ++ '"' :: rest, by simp [quote], ?_⟩
  apply scanString_escaped
  have := length_le_flatMap_escapeChar a s.toList
  simp only [List.length_append, List.length_cons]
  omega

/-! ### Reading back numbers -/

/-- What may follow a value inside a longer text. -/
def Delimited (rest : List Char) : Prop :=
  ∀ c ∈ rest.head?, c = ',' ∨ c = ']' ∨ c = '}'

theorem scanDigits_append {digits rest : List Char} (h : ∀ c ∈ digits, c.isDigit = true)
    (stop : ∀ c ∈ rest.head?, c.isDigit = false) : scanDigits (digits ++ rest) = (digits, rest) := by
  have none : rest.takeWhile Char.isDigit = [] ∧ rest.dropWhile Char.isDigit = rest := by
    cases rest with
    | nil => exact ⟨rfl, rfl⟩
    | cons c cs => simp [stop c rfl]
  simp [scanDigits, List.takeWhile_append_of_pos h, List.dropWhile_append_of_pos h, none]

theorem Delimited.not_digit {rest : List Char} (h : Delimited rest) :
    ∀ c ∈ rest.head?, c.isDigit = false := by
  intro c hc
  rcases h c hc with rfl | rfl | rfl <;> rfl

theorem scanFraction_delimited {rest : List Char} (h : Delimited rest) :
    scanFraction rest = (none, rest) := by
  cases rest with
  | nil => rfl
  | cons c cs => rcases h c rfl with rfl | rfl | rfl <;> rfl

theorem scanExponent_delimited {rest : List Char} (h : Delimited rest) :
    scanExponent rest = (none, rest) := by
  cases rest with
  | nil => rfl
  | cons c cs => rcases h c rfl with rfl | rfl | rfl <;> rfl

/-- No number is written with a leading zero. -/
theorem head_toDigits {n : Nat} (positive : 0 < n) : (Nat.toDigits 10 n).head? ≠ some '0' := by
  induction n using Nat.strong_induction_on with
  | _ n ih =>
    rw [Nat.toDigits_eq_if (by decide)]
    split
    case isTrue small =>
      have nonzero : n ≠ 0 := by omega
      simpa using nonzero
    case isFalse large =>
      have head := ih (n / 10) (by omega) (by omega)
      rw [List.head?_append_of_ne_nil _ (by simp)]
      exact head

theorem scanInteger_toDigits {rest : List Char} (h : Delimited rest) (n : Nat) :
    scanInteger (Nat.toDigits 10 n ++ rest) = (Nat.toDigits 10 n, rest) := by
  have digits : ∀ c ∈ Nat.toDigits 10 n, c.isDigit = true := fun c hc =>
    Nat.isDigit_of_mem_toDigits (by decide) (by decide) hc
  rcases Nat.eq_zero_or_pos n with rfl | positive
  · rfl
  · have head := head_toDigits positive
    rw [← scanDigits_append digits h.not_digit]
    cases written : Nat.toDigits 10 n with
    | nil => exact absurd written Nat.toDigits_ne_nil
    | cons c cs =>
      have nonzero : c ≠ '0' := by simpa [written] using head
      unfold scanInteger
      split
      case h_1 eq => exact absurd (List.cons.inj eq).1 nonzero
      case h_2 => rfl

theorem scanSign_digit {c : Char} (h : c.isDigit = true) (rest : List Char) :
    scanSign (c :: rest) = (false, c :: rest) := by
  unfold scanSign
  split
  case h_1 eq =>
    obtain ⟨rfl, -⟩ := List.cons.inj eq
    exact absurd h (by decide)
  case h_2 => rfl

theorem scanNumber_digits {cs rest : List Char} {negative : Bool} {n : Nat} (h : Delimited rest)
    (short : (Nat.toDigits 10 n).length ≤ maxDigits)
    (sign : scanSign cs = (negative, Nat.toDigits 10 n ++ rest)) :
    scanNumber cs = some (.int (if negative then -n else n), rest) := by
  have value : Nat.ofDigitChars 10 (Nat.toDigits 10 n) 0 = n := Nat.ofDigitChars_ten_toDigits
  simp [scanNumber, sign, scanInteger_toDigits h, scanFraction_delimited h,
    scanExponent_delimited h, value, short]

theorem scanNumber_int {n : Int} {rest : List Char} (h : Delimited rest)
    (short : (Nat.toDigits 10 n.natAbs).length ≤ maxDigits) :
    scanNumber ((toString n).toList ++ rest) = some (.int n, rest) := by
  cases n with
  | ofNat m =>
    have text : (toString (Int.ofNat m)).toList = Nat.toDigits 10 m := Nat.toList_repr
    have sign : scanSign (Nat.toDigits 10 m ++ rest) = (false, Nat.toDigits 10 m ++ rest) := by
      cases written : Nat.toDigits 10 m with
      | nil => exact absurd written Nat.toDigits_ne_nil
      | cons c cs =>
        have member : c ∈ Nat.toDigits 10 m := by simp [written]
        exact scanSign_digit (Nat.isDigit_of_mem_toDigits (by decide) (by decide) member) _
    rw [text]
    exact scanNumber_digits h short sign
  | negSucc m =>
    have text : (toString (Int.negSucc m)).toList = '-' :: Nat.toDigits 10 (m + 1) := by
      simp [Int.toString_eq_repr, Int.repr]
    have sign : scanSign ('-' :: Nat.toDigits 10 (m + 1) ++ rest) =
        (true, Nat.toDigits 10 (m + 1) ++ rest) := rfl
    rw [text]
    exact scanNumber_digits h short sign

/-! ### Reading back values -/

/-- A number that is read as it is written; every other value is. -/
def ReadsBack (repr : UInt64 → List Char) : Json → Prop
  | .int n => (Nat.toDigits 10 n.natAbs).length ≤ maxDigits
  | .float b => ∀ rest, Delimited rest → scanNumber (repr b ++ rest) = some (.float b, rest)
  | _ => True

/-- Only a sign or a digit starts a number. -/
theorem scanNumber_head {cs : List Char} {r : Json × List Char} (h : scanNumber cs = some r) :
    ∃ c rest, cs = c :: rest ∧ (c = '-' ∨ c.isDigit = true) := by
  cases cs with
  | nil => simp [scanNumber, scanSign, scanInteger, scanDigits] at h
  | cons c rest =>
    refine ⟨c, rest, rfl, ?_⟩
    by_contra other
    push Not at other
    have sign : scanSign (c :: rest) = (false, c :: rest) := by
      unfold scanSign
      split
      case h_1 eq => exact absurd (List.cons.inj eq).1 other.1
      case h_2 => rfl
    have digits : scanInteger (c :: rest) = ([], c :: rest) := by
      unfold scanInteger
      split
      case h_1 eq =>
        rw [(List.cons.inj eq).1] at other
        exact absurd rfl other.2
      case h_2 => simp [scanDigits, other.2]
    simp [scanNumber, sign, digits] at h

theorem scanValue_number {hook : List (String × Json) → Option Json} {cs : List Char}
    {r : Json × List Char} (h : scanNumber cs = some r) (fuel : Nat) :
    scanValue hook (fuel + 1) cs = some r := by
  obtain ⟨c, rest, rfl, start⟩ := scanNumber_head h
  rw [scanValue]
  · exact h
  all_goals
    intro rest' eq
    obtain ⟨rfl, -⟩ := List.cons.inj eq
    exact absurd start (by decide)

/-- A text that starts with something else than a blank or the end of a list. -/
def Opens (cs : List Char) : Prop := ∃ c rest, cs = c :: rest ∧ isBlank c = false ∧ c ≠ ']'

theorem Opens.skipBlanks {cs : List Char} (h : Opens cs) (rest : List Char) :
    skipBlanks (cs ++ rest) = cs ++ rest := by
  obtain ⟨c, tail, rfl, dark, -⟩ := h
  simp [Json.skipBlanks, dark]

theorem opens_number {cs : List Char} {r : Json × List Char} (h : scanNumber cs = some r) :
    Opens cs := by
  obtain ⟨c, rest, rfl, start⟩ := scanNumber_head h
  have dark : isBlank c = false := by
    by_contra blank
    simp only [isBlank, Bool.or_eq_true, decide_eq_true_eq, Bool.not_eq_false] at blank
    rcases blank with ((rfl | rfl) | rfl) | rfl <;> exact absurd start (by decide)
  refine ⟨c, rest, rfl, dark, ?_⟩
  rintro rfl
  exact absurd start (by decide)

theorem skipBlanks_delimiter {c : Char} (h : c = ',' ∨ c = ']' ∨ c = '}' ∨ c = ':' ∨ c = '"')
    (rest : List Char) : skipBlanks (c :: rest) = c :: rest := by
  rcases h with rfl | rfl | rfl | rfl | rfl <;> rfl

/-! ### Any text with gaps -/

/-- Texts with a comma and a gap between any two. -/
def joinGap (gap : List Char) : List (List Char) → List Char
  | [] => []
  | [t] => t
  | t :: rest => t ++ ',' :: (gap ++ joinGap gap rest)

/-- A key with its value, after a colon and a gap. -/
def gapField (a : Bool) (gap : List Char) (text : Json → List Char) (f : String × Json) : List Char :=
  quote a f.1 ++ ':' :: (gap ++ text f.2)

/-- The scanner returns `v` and stops where its text does. -/
def ScansText (hook : List (String × Json) → Option Json) (text : Json → List Char) (v : Json) : Prop :=
  ∀ fuel rest, 2 * (text v).length < fuel → Delimited rest →
    scanValue hook fuel (text v ++ rest) = some (v, rest)

theorem Opens.joinGap {cs : List Char} (h : Opens cs) (gap : List Char) (texts : List (List Char)) :
    Opens (joinGap gap (cs :: texts)) := by
  obtain ⟨c, tail, rfl, plain⟩ := h
  cases texts with
  | nil => exact ⟨c, tail, rfl, plain⟩
  | cons text texts => exact ⟨c, _, rfl, plain⟩

section Gap

variable {hook : List (String × Json) → Option Json} {a : Bool} {gap : List Char} {text : Json → List Char}

theorem skipBlanks_gap {cs : List Char} (blank : gap.all isBlank = true) (opens : Opens cs) (rest : List Char) :
    skipBlanks (gap ++ (cs ++ rest)) = cs ++ rest := by
  rw [Json.skipBlanks, List.dropWhile_append_of_pos (List.all_eq_true.mp blank)]
  exact opens.skipBlanks rest

theorem scanItems_gap (blank : gap.all isBlank = true) {items : List Json} (nonempty : items ≠ [])
    (scans : ∀ v ∈ items, ScansText hook text v) (opens : ∀ v ∈ items, Opens (text v)) :
    ∀ fuel rest, 2 * (joinGap gap (items.map text)).length + 1 < fuel →
      scanItems hook fuel (joinGap gap (items.map text) ++ ']' :: rest) = some (items, rest) := by
  induction items with
  | nil => exact absurd rfl nonempty
  | cons v items ih =>
    intro fuel rest enough
    obtain ⟨n, rfl⟩ : ∃ n, fuel = n + 1 := ⟨fuel - 1, by omega⟩
    rw [List.forall_mem_cons] at scans opens
    cases items with
    | nil =>
      simp only [List.map_cons, List.map_nil, joinGap] at enough ⊢
      rw [scanItems, scans.1 n (']' :: rest) (by omega) (by simp [Delimited])]
      rfl
    | cons w items =>
      simp only [List.map_cons, joinGap, List.length_append, List.length_cons,
        List.append_assoc, List.cons_append] at enough ⊢
      have tail := ih (List.cons_ne_nil _ _) scans.2 opens.2 n rest (by
        simp only [List.map_cons]
        omega)
      simp only [List.map_cons] at tail
      have front : Opens (joinGap gap (text w :: items.map text)) :=
        (opens.2 w List.mem_cons_self).joinGap gap _
      rw [scanItems, scans.1 n _ (by omega) (by simp [Delimited])]
      simp only [Option.bind_eq_bind, Option.bind_some,
        skipBlanks_delimiter (Or.inl rfl : ',' = ',' ∨ _), skipBlanks_gap blank front, tail]
      rfl

theorem scanFields_step (blank : gap.all isBlank = true) {f : String × Json} (scans : ScansText hook text f.2)
    (opens : Opens (text f.2)) {fuel : Nat} {rest : List Char} (delimited : Delimited rest)
    (enough : 2 * (gapField a gap text f).length < fuel) :
    scanFields hook (fuel + 1) (gapField a gap text f ++ rest) =
      match skipBlanks rest with
      | '}' :: rest => some ([f], rest)
      | ',' :: rest => (scanFields hook fuel (skipBlanks rest)).map fun p => (f :: p.1, p.2)
      | _ => none := by
  obtain ⟨body, quoted, key⟩ := scanString_quote a f.1 (':' :: (gap ++ (text f.2 ++ rest)))
  simp only [gapField, List.length_append, List.length_cons, List.append_assoc,
    List.cons_append] at enough ⊢
  rw [quoted, scanFields, key]
  simp only [Option.bind_eq_bind, Option.bind_some, skipBlanks_gap blank opens,
    skipBlanks_delimiter (Or.inr (Or.inr (Or.inr (Or.inl rfl))) : ':' = ',' ∨ _)]
  rw [scans fuel rest (by omega) delimited]
  simp only [Option.bind_some, String.ofList_toList]
  cases skipBlanks rest with
  | nil => rfl
  | cons c tail =>
    split
    case h_1 => rfl
    case h_2 => cases scanFields hook fuel (skipBlanks _) <;> rfl
    case h_3 => rfl

theorem scanFields_gap (blank : gap.all isBlank = true) {fields : List (String × Json)} (nonempty : fields ≠ [])
    (scans : ∀ f ∈ fields, ScansText hook text f.2) (opens : ∀ f ∈ fields, Opens (text f.2)) :
    ∀ fuel rest, 2 * (joinGap gap (fields.map (gapField a gap text))).length + 1 < fuel →
      scanFields hook fuel (joinGap gap (fields.map (gapField a gap text)) ++ '}' :: rest) =
        some (fields, rest) := by
  induction fields with
  | nil => exact absurd rfl nonempty
  | cons f fields ih =>
    intro fuel rest enough
    obtain ⟨n, rfl⟩ : ∃ n, fuel = n + 1 := ⟨fuel - 1, by omega⟩
    rw [List.forall_mem_cons] at scans opens
    cases fields with
    | nil =>
      simp only [List.map_cons, List.map_nil, joinGap] at enough ⊢
      rw [scanFields_step blank scans.1 opens.1 (by simp [Delimited]) (by omega)]
      rfl
    | cons g fields =>
      simp only [List.map_cons, joinGap, List.length_append, List.length_cons,
        List.append_assoc, List.cons_append] at enough ⊢
      have tail := ih (List.cons_ne_nil _ _) scans.2 opens.2 n rest (by
        simp only [List.map_cons]
        omega)
      have front : Opens (joinGap gap (gapField a gap text g :: fields.map (gapField a gap text))) :=
        Opens.joinGap ⟨_, _, rfl, rfl, by decide⟩ gap _
      rw [scanFields_step blank scans.1 opens.1 (by simp [Delimited]) (by omega),
        skipBlanks_delimiter (Or.inl rfl)]
      simp only [skipBlanks_gap blank front]
      simp only [List.map_cons] at tail
      rw [tail]
      rfl

theorem scansText_arr (blank : gap.all isBlank = true) {items : List Json}
    (written : text (.arr items) = '[' :: joinGap gap (items.map text) ++ [']'])
    (scans : ∀ v ∈ items, ScansText hook text v) (opens : ∀ v ∈ items, Opens (text v)) :
    ScansText hook text (.arr items) := by
  intro fuel rest enough delimited
  obtain ⟨n, rfl⟩ : ∃ n, fuel = n + 1 := ⟨fuel - 1, by omega⟩
  simp only [written, List.cons_append, List.append_assoc, List.nil_append,
    List.length_cons, List.length_append] at enough ⊢
  cases items with
  | nil => rfl
  | cons v items =>
    have joined := scanItems_gap blank (List.cons_ne_nil _ _) scans opens n rest (by omega)
    have front : Opens (joinGap gap ((v :: items).map text)) :=
      (opens v List.mem_cons_self).joinGap gap _
    have apart := front.skipBlanks (']' :: rest)
    obtain ⟨c, t, shape, -, open'⟩ := front
    rw [scanValue, apart]
    split
    case h_1 eq =>
      rw [shape] at eq
      exact absurd (List.cons.inj eq).1 open'
    case h_2 => rw [joined]; rfl

theorem scanValue_obj (blank : gap.all isBlank = true)
    (law : ∀ fields, (keys fields).Nodup → hook fields = some (.obj fields))
    {fields : List (String × Json)} (distinct : (keys fields).Nodup)
    (written : text (.obj fields) = '{' :: joinGap gap (fields.map (gapField a gap text)) ++ ['}'])
    (scans : ∀ f ∈ fields, ScansText hook text f.2) (opens : ∀ f ∈ fields, Opens (text f.2)) {fuel : Nat}
    (rest : List Char) (enough : 2 * (text (.obj fields)).length < fuel) :
    scanValue hook fuel (text (.obj fields) ++ rest) = some (.obj fields, rest) := by
  obtain ⟨n, rfl⟩ : ∃ n, fuel = n + 1 := ⟨fuel - 1, by omega⟩
  have accepted := law fields distinct
  simp only [written, List.cons_append, List.append_assoc, List.nil_append,
    List.length_cons, List.length_append] at enough ⊢
  cases fields with
  | nil =>
    have skip : skipBlanks ('}' :: rest) = '}' :: rest := rfl
    simp [scanValue, joinGap, skip, accepted]
  | cons f fields =>
    have joined := scanFields_gap (a := a) blank (List.cons_ne_nil _ _) scans opens n rest (by omega)
    have front : Opens (joinGap gap ((f :: fields).map (gapField a gap text))) :=
      Opens.joinGap ⟨_, _, rfl, rfl, by decide⟩ gap _
    have apart := front.skipBlanks ('}' :: rest)
    obtain ⟨t, shape⟩ : ∃ t, joinGap gap ((f :: fields).map (gapField a gap text)) = '"' :: t := by
      cases fields <;> exact ⟨_, rfl⟩
    rw [scanValue, apart]
    split
    case h_1 eq =>
      rw [shape] at eq
      exact absurd (List.cons.inj eq).1 (by decide)
    case h_2 =>
      rw [joined]
      simp [accepted]

theorem scansText_obj (blank : gap.all isBlank = true)
    (law : ∀ fields, (keys fields).Nodup → hook fields = some (.obj fields))
    {fields : List (String × Json)} (distinct : (keys fields).Nodup)
    (written : text (.obj fields) = '{' :: joinGap gap (fields.map (gapField a gap text)) ++ ['}'])
    (scans : ∀ f ∈ fields, ScansText hook text f.2) (opens : ∀ f ∈ fields, Opens (text f.2)) :
    ScansText hook text (.obj fields) :=
  fun _ rest enough _ => scanValue_obj blank law distinct written scans opens rest enough

/-- The texts of the values that hold nothing else. -/
theorem scansText_scalar {repr : UInt64 → List Char} {v : Json} (plain : v.isHashable = true)
    (written : text v = dumps a repr v) (reads : ReadsBack repr v) : ScansText hook text v := by
  intro fuel rest enough delimited
  rw [written] at enough ⊢
  obtain ⟨m, rfl⟩ : ∃ m, fuel = m + 1 := ⟨fuel - 1, by omega⟩
  cases v with
  | null => simp [dumps, scanValue, scanWord]
  | bool b => cases b <;> simp [dumps, scanValue, scanWord]
  | int n => exact scanValue_number (scanNumber_int delimited reads) m
  | float b => exact scanValue_number (reads rest delimited) m
  | str s =>
    obtain ⟨body, quoted, text⟩ := scanString_quote a s rest
    simp [dumps, quoted, scanValue, text]
  | arr | obj => simp [isHashable] at plain

end Gap

section Dumps

variable {hook : List (String × Json) → Option Json} {a : Bool} {repr : UInt64 → List Char}

/-- The scanner returns `v` and stops where the text of `v` does. -/
def Scans (hook : List (String × Json) → Option Json) (a : Bool) (repr : UInt64 → List Char)
    (v : Json) : Prop :=
  ∀ fuel rest, 2 * (dumps a repr v).length < fuel → Delimited rest →
    scanValue hook fuel (dumps a repr v ++ rest) = some (v, rest)

theorem opens_dumps {v : Json} (h : ReadsBack repr v) : Opens (dumps a repr v) := by
  have empty : Delimited [] := by simp [Delimited]
  cases v with
  | null => exact ⟨_, _, rfl, rfl, by decide⟩
  | bool b => cases b <;> exact ⟨_, _, rfl, rfl, by decide⟩
  | int n =>
    have read := scanNumber_int empty h
    rw [List.append_nil] at read
    exact opens_number read
  | float b =>
    have read := h [] empty
    rw [List.append_nil] at read
    exact opens_number read
  | str s => exact ⟨_, _, rfl, rfl, by decide⟩
  | arr items => exact ⟨_, _, rfl, rfl, by decide⟩
  | obj fields => exact ⟨_, _, rfl, rfl, by decide⟩

/-- A key with its value. -/
def fieldText (a : Bool) (repr : UInt64 → List Char) (f : String × Json) : List Char :=
  quote a f.1 ++ ':' :: dumps a repr f.2

theorem dumps_obj {fields : List (String × Json)} (sorted : (keys fields).Pairwise (· < ·)) :
    dumps a repr (.obj fields) = '{' :: joinComma (fields.map (fieldText a repr)) ++ ['}'] := by
  have ordered : sortFields fields = fields :=
    List.Pairwise.insertionSort_eq ((List.pairwise_map.mp sorted).imp fun h => le_of_lt h)
  simp only [dumps, dumpsFields_eq, sortByKey_map, ordered, List.map_map]
  rfl

theorem joinComma_eq (texts : List (List Char)) : joinComma texts = joinGap [] texts := by
  induction texts with
  | nil => rfl
  | cons t rest ih =>
    cases rest with
    | nil => rfl
    | cons => exact congrArg (fun cs => t ++ ',' :: cs) ih

/-- What `json.dumps` wrote of a value with its keys in order, the scanner reads. -/
theorem scans_dumps (law : ∀ fields, (keys fields).Nodup → hook fields = some (.obj fields))
    {v : Json} (sorted : v.Everywhere KeysSorted) (reads : v.Everywhere (ReadsBack repr)) :
    Scans hook a repr v := by
  induction v using byParts with
  | null | bool | int | float | str => exact scansText_scalar rfl rfl reads.here
  | arr items ih =>
    rw [everywhere_arr] at sorted reads
    have written : dumps a repr (.arr items) = '[' :: joinGap [] (items.map (dumps a repr)) ++ [']'] := by
      rw [dumps, dumpsItems_eq, joinComma_eq]
    exact scansText_arr rfl written (fun v hv => ih v hv (sorted.2 v hv) (reads.2 v hv))
      fun v hv => opens_dumps (reads.2 v hv).here
  | obj fields ih =>
    rw [everywhere_obj] at sorted reads
    have written : dumps a repr (.obj fields) =
        '{' :: joinGap [] (fields.map (gapField a [] (dumps a repr))) ++ ['}'] := by
      rw [dumps_obj sorted.1, joinComma_eq]
      rfl
    exact scansText_obj rfl law (sorted.1.imp fun h => ne_of_lt h) written
      (fun f hf => ih f hf (sorted.2 f hf) (reads.2 f hf)) fun f hf => opens_dumps (reads.2 f hf).here

/-- `json.loads` of what `json.dumps` wrote: the value again, its keys in order. -/
theorem loads_dumps (law : ∀ fields, (keys fields).Nodup → hook fields = some (.obj fields))
    {v : Json} (distinct : v.Everywhere KeysDistinct) (reads : v.Everywhere (ReadsBack repr)) :
    loads hook (dumps a repr v) = some v.sorted := by
  have reads := (everywhere_sorted (fun _ => trivial) (fun _ => trivial) v).mpr reads
  have scans := scans_dumps (a := a) law (keysSorted_sorted distinct) reads
  have opens : Opens (dumps a repr v.sorted) := opens_dumps reads.here
  have skip := opens.skipBlanks []
  have scanned := scans (2 * (dumps a repr v.sorted).length + 1) [] (by omega) (by simp [Delimited])
  simp only [List.append_nil] at skip scanned
  rw [dumps_sorted] at skip scanned
  simp only [loads, skip, scanned]
  rfl

end Dumps

/-! ### What is read -/

theorem scanNumber_isNumber {cs rest : List Char} {v : Json}
    (h : scanNumber cs = some (v, rest)) : (∃ n, v = .int n) ∨ ∃ b, v = .float b := by
  unfold scanNumber at h
  dsimp only at h
  split at h
  · exact absurd h (by simp)
  split at h
  · split at h
    · obtain ⟨rfl, -⟩ := Prod.mk.inj (Option.some.inj h)
      exact Or.inl ⟨_, rfl⟩
    · exact absurd h (by simp)
  · obtain ⟨rfl, -⟩ := Prod.mk.inj (Option.some.inj h)
    exact Or.inr ⟨_, rfl⟩

theorem scanWord_value {word cs rest : List Char} {v w : Json}
    (h : scanWord word v cs = some (w, rest)) : w = v := by
  unfold scanWord at h
  split at h
  · exact (Prod.mk.inj (Option.some.inj h)).1.symm
  · exact absurd h (by simp)

section Hook

variable {hook : List (String × Json) → Option Json}

/-- A hook that refuses repeated keys leaves no dictionary with one, at any depth. -/
theorem scan_distinct
    (law : ∀ fields v, hook fields = some v → v = .obj fields ∧ (keys fields).Nodup) (fuel : Nat) :
    (∀ cs v rest, scanValue hook fuel cs = some (v, rest) → v.Everywhere KeysDistinct) ∧
    (∀ cs items rest, scanItems hook fuel cs = some (items, rest) →
      ∀ v ∈ items, v.Everywhere KeysDistinct) ∧
    ∀ cs fields rest, scanFields hook fuel cs = some (fields, rest) →
      ∀ f ∈ fields, f.2.Everywhere KeysDistinct := by
  induction fuel with
  | zero => exact ⟨by simp [scanValue], by simp [scanItems], by simp [scanFields]⟩
  | succ fuel ih =>
    obtain ⟨values, items, fields⟩ := ih
    refine ⟨?_, ?_, ?_⟩
    · intro cs v rest h
      simp only [scanValue] at h
      split at h
      case h_1 =>
        obtain ⟨p, -, eq⟩ := Option.map_eq_some_iff.mp h
        obtain ⟨rfl, -⟩ := Prod.mk.inj eq
        simp [KeysDistinct]
      case h_2 =>
        split at h
        · obtain ⟨rfl, -⟩ := Prod.mk.inj (Option.some.inj h)
          simp [KeysDistinct]
        · obtain ⟨p, scanned, eq⟩ := Option.map_eq_some_iff.mp h
          obtain ⟨rfl, -⟩ := Prod.mk.inj eq
          exact everywhere_arr.mpr ⟨trivial, items _ _ _ scanned⟩
      case h_3 =>
        split at h
        · obtain ⟨w, hooked, eq⟩ := Option.map_eq_some_iff.mp h
          obtain ⟨rfl, -⟩ := Prod.mk.inj eq
          obtain ⟨rfl, -⟩ := law _ _ hooked
          simp [KeysDistinct, keys]
        · obtain ⟨p, scanned, h⟩ := Option.bind_eq_some_iff.mp h
          obtain ⟨w, hooked, eq⟩ := Option.bind_eq_some_iff.mp h
          obtain ⟨rfl, -⟩ := Prod.mk.inj (Option.some.inj eq)
          obtain ⟨rfl, distinct⟩ := law _ _ hooked
          exact everywhere_obj.mpr ⟨distinct, fields _ _ _ scanned⟩
      case h_4 => simp [scanWord_value h, KeysDistinct]
      case h_5 => simp [scanWord_value h, KeysDistinct]
      case h_6 => simp [scanWord_value h, KeysDistinct]
      case h_7 =>
        rcases scanNumber_isNumber h with ⟨n, rfl⟩ | ⟨b, rfl⟩ <;> simp [KeysDistinct]
    · intro cs vs rest h
      simp only [scanItems] at h
      obtain ⟨p, scanned, h⟩ := Option.bind_eq_some_iff.mp h
      have head := values _ _ _ scanned
      split at h
      · obtain ⟨rfl, -⟩ := Prod.mk.inj (Option.some.inj h)
        simpa using head
      · obtain ⟨q, more, eq⟩ := Option.bind_eq_some_iff.mp h
        obtain ⟨rfl, -⟩ := Prod.mk.inj (Option.some.inj eq)
        exact List.forall_mem_cons.mpr ⟨head, items _ _ _ more⟩
      · exact absurd h (by simp)
    · intro cs fs rest h
      simp only [scanFields] at h
      split at h
      case h_2 => exact absurd h (by simp)
      obtain ⟨key, -, h⟩ := Option.bind_eq_some_iff.mp h
      split at h
      case h_2 => exact absurd h (by simp)
      obtain ⟨p, scanned, h⟩ := Option.bind_eq_some_iff.mp h
      have head := values _ _ _ scanned
      split at h
      · obtain ⟨rfl, -⟩ := Prod.mk.inj (Option.some.inj h)
        simpa using head
      · obtain ⟨q, more, eq⟩ := Option.bind_eq_some_iff.mp h
        obtain ⟨rfl, -⟩ := Prod.mk.inj (Option.some.inj eq)
        exact List.forall_mem_cons.mpr ⟨head, fields _ _ _ more⟩
      · exact absurd h (by simp)

theorem loads_distinct
    (law : ∀ fields v, hook fields = some v → v = .obj fields ∧ (keys fields).Nodup)
    {cs : List Char} {v : Json} (h : loads hook cs = some v) : v.Everywhere KeysDistinct := by
  obtain ⟨⟨w, rest⟩, scanned, h⟩ := Option.bind_eq_some_iff.mp h
  dsimp only at h
  split at h
  · obtain rfl := Option.some.inj h
    exact (scan_distinct law _).1 _ _ _ scanned
  · exact absurd h (by simp)

end Hook

end Json
