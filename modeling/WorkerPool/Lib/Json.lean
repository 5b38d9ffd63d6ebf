import WorkerPool.Lib.PyText

/-!
# JSON values as Python holds them

The values `json.loads` returns, their Python equality (which identifies
`True`, `1` and `1.0`), dictionary lookup, and the text that `json.dumps` writes
with sorted keys and compact separators.
-/

inductive Json where
  | null
  | bool (b : Bool)
  | int (n : Int)
  | float (bits : UInt64)
  | str (s : String)
  | arr (items : List Json)
  | obj (fields : List (String × Json))

namespace Json

/-- The integer that a binary64 bit pattern stands for, if it is one. -/
def floatInt? (bits : UInt64) : Option Int :=
  let negative := bits.toNat / 2 ^ 63 = 1
  let exponent := bits.toNat / 2 ^ 52 % 2 ^ 11
  let mantissa := bits.toNat % 2 ^ 52
  if exponent = 2047 then none
  else
    let scaled := if exponent = 0 then mantissa * 2 else (2 ^ 52 + mantissa) * 2 ^ exponent
    -- the value is `scaled / 2 ^ 1075`
    if scaled % 2 ^ 1075 = 0 then
      some (if negative then -(scaled / 2 ^ 1075 : Nat) else (scaled / 2 ^ 1075 : Nat))
    else none

def floatEq (a b : UInt64) : Bool :=
  let nan := fun x : UInt64 => x.toNat / 2 ^ 52 % 2 ^ 11 = 2047 ∧ x.toNat % 2 ^ 52 ≠ 0
  let zero := fun x : UInt64 => x.toNat % 2 ^ 63 = 0
  if nan a ∨ nan b then false else if zero a ∧ zero b then true else a == b

/-- A number as Python compares it: `True` is `1`, `False` is `0`. -/
def asInt? : Json → Option Int
  | .bool b => some (if b then 1 else 0)
  | .int n => some n
  | .float bits => floatInt? bits
  | _ => none

/-- Dictionary lookup; of two entries with one key the later one counts. -/
def lookup (key : String) (fields : List (String × Json)) : Option Json :=
  (fields.reverse.find? fun f => f.1 == key).map Prod.snd

/-- `value == text`, for a text. -/
def isStr (s : String) : Json → Bool
  | .str t => t == s
  | _ => false

def isNull : Json → Bool
  | .null => true
  | _ => false

/-- `value is True`. -/
def isTrue : Json → Bool
  | .bool b => b
  | _ => false

/-- `value is False`. -/
def isFalse : Json → Bool
  | .bool b => !b
  | _ => false

def str? : Json → Option String
  | .str s => some s
  | _ => none

def ofOption : Option String → Json
  | none => .null
  | some s => .str s

/-- Python equality of two values that are not containers, as far as lists and
dictionaries are concerned `false`: no caller compares those. -/
def scalarEq : Json → Json → Bool
  | .null, .null => true
  | .str s, .str t => s == t
  | .float a, .float b => floatEq a b
  | a, b =>
    match asInt? a, asInt? b with
    | some m, some n => m == n
    | _, _ => false

/-! ### Operations that only some values have -/

def isObj : Json → Bool
  | .obj _ => true
  | _ => false

/-- `type(value) is int`. -/
def int? : Json → Option Int
  | .int n => some n
  | _ => none

/-- `type(value) is list and all(type(item) is str for item in value)`. -/
def texts? : Json → Option (List String)
  | .arr items => items.mapM str?
  | _ => none

/-- `value.get(key, default)`; only a dictionary has that method. -/
def get? (value : Json) (key : String) (default : Json) : Option Json :=
  match value with
  | .obj fields => some ((lookup key fields).getD default)
  | _ => none

/-- `not value`. -/
def isFalsy : Json → Bool
  | .null | .bool false | .int 0 | .str "" | .arr [] | .obj [] => true
  | .float bits => bits.toNat % 2 ^ 63 = 0
  | _ => false

/-- `value or other`. -/
def orElse (value other : Json) : Json := if value.isFalsy then other else value

/-- `type(value) is int and value >= 1`. -/
def isPositive (value : Json) : Bool := value.int?.any (1 ≤ ·)

/-- `type(value) is str and pattern.fullmatch(value)`. -/
def isText (pattern : String → Bool) (value : Json) : Bool := value.str?.any pattern

def isHashable : Json → Bool
  | .arr _ | .obj _ => false
  | _ => true

/-- `value in {…}`, for a set of texts. -/
def inTexts? (names : List String) (value : Json) : Option Bool :=
  if value.isHashable then some (value.str?.any (· ∈ names)) else none

/-- The same elements, in any order and number. -/
def sameSet (values others : List String) : Bool :=
  values.all (· ∈ others) && others.all (· ∈ values)

/-- `set(value) == names`, for names longer than one character. -/
def sameKeys? (names : List String) : Json → Option Bool
  | .obj fields => some (sameSet (fields.map Prod.fst) names)
  | .str _ => some false
  | .arr items =>
    if items.all isHashable then some ((items.mapM str?).any fun held => sameSet held names)
    else none
  | _ => none

/-! ### Text -/

def hexChar (n : Nat) : Char :=
  if n % 16 < 10 then Char.ofNat (48 + n % 16) else Char.ofNat (87 + n % 16)

/-- A `\uXXXX` escape of one UTF-16 unit. -/
def unicodeEscape (n : Nat) : List Char :=
  '\\' :: 'u' :: [hexChar (n / 4096), hexChar (n / 256), hexChar (n / 16), hexChar n]

def escapeChar (asciiOnly : Bool) (c : Char) : List Char :=
  if c = '"' then ['\\', '"']
  else if c = '\\' then ['\\', '\\']
  else if c = '\n' then ['\\', 'n']
  else if c = '\r' then ['\\', 'r']
  else if c = '\t' then ['\\', 't']
  else if c.toNat = 8 then ['\\', 'b']
  else if c.toNat = 12 then ['\\', 'f']
  else if c.toNat < 32 ∨ (asciiOnly ∧ 127 ≤ c.toNat ∧ c.toNat < 65536) then
    unicodeEscape c.toNat
  else if asciiOnly ∧ 65536 ≤ c.toNat then
    let n := c.toNat - 65536
    unicodeEscape (0xD800 + n / 1024) ++ unicodeEscape (0xDC00 + n % 1024)
  else [c]

def quote (asciiOnly : Bool) (s : String) : List Char :=
  '"' :: s.toList.flatMap (escapeChar asciiOnly) ++ ['"']

def insertByKey (f : String × List Char) : List (String × List Char) → List (String × List Char)
  | [] => [f]
  | g :: rest => if g.1 < f.1 then g :: insertByKey f rest else f :: g :: rest

def sortByKey (fields : List (String × List Char)) : List (String × List Char) :=
  fields.foldr insertByKey []

def joinComma : List (List Char) → List Char
  | [] => []
  | [t] => t
  | t :: rest => t ++ ',' :: joinComma rest

mutual

/-- `json.dumps(value, sort_keys=True, separators=(",", ":"))`; the shortest text
of a float is the interpreter's. -/
def dumps (asciiOnly : Bool) (floatRepr : UInt64 → List Char) : Json → List Char
  | .null => ['n', 'u', 'l', 'l']
  | .bool true => ['t', 'r', 'u', 'e']
  | .bool false => ['f', 'a', 'l', 's', 'e']
  | .int n => (toString n).toList
  | .float bits => floatRepr bits
  | .str s => quote asciiOnly s
  | .arr items => '[' :: joinComma (dumpsItems asciiOnly floatRepr items) ++ [']']
  | .obj fields =>
    '{' :: joinComma ((sortByKey (dumpsFields asciiOnly floatRepr fields)).map fun f =>
      quote asciiOnly f.1 ++ ':' :: f.2) ++ ['}']

def dumpsItems (asciiOnly : Bool) (floatRepr : UInt64 → List Char) : List Json → List (List Char)
  | [] => []
  | v :: rest => dumps asciiOnly floatRepr v :: dumpsItems asciiOnly floatRepr rest

def dumpsFields (asciiOnly : Bool) (floatRepr : UInt64 → List Char) :
    List (String × Json) → List (String × List Char)
  | [] => []
  | (k, v) :: rest =>
    (k, dumps asciiOnly floatRepr v) :: dumpsFields asciiOnly floatRepr rest

end

example : String.ofList (dumps false (fun _ => []) (.obj [("b", .int (-3)), ("a", .str "x\"")])) =
    "\x7b\"a\":\"x\\\"\",\"b\":-3\x7d" := by decide +kernel

end Json
