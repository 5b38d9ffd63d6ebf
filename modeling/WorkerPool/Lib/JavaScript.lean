/-!
# JavaScript values

What a program sees of values that come from JSON: their types, `===`, their truth and their text.
Arrays and objects have an identity. The text of a number is that of the engine.
-/

/-- A value; of an object only its text is kept, if it has one. -/
inductive JsValue where
  | undefined
  | null
  | bool (b : Bool)
  | number (x : Float)
  | string (s : String)
  | array (ref : Nat) (items : List JsValue)
  | object (ref : Nat) (text : Option String)

namespace JsValue

/-- `===`. -/
def strictEquals : JsValue → JsValue → Bool
  | .undefined, .undefined => true
  | .null, .null => true
  | .bool a, .bool b => a == b
  | .number x, .number y => x == y
  | .string s, .string t => s == t
  | .array r _, .array r' _ => r == r'
  | .object r _, .object r' _ => r == r'
  | _, _ => false

/-- The comparison of `includes` and of `Set`: `===`, except that `NaN` is itself. -/
def sameValueZero : JsValue → JsValue → Bool
  | .number x, .number y => x == y || (x.isNaN && y.isNaN)
  | a, b => strictEquals a b

/-- The truth of a value. -/
def truthy : JsValue → Bool
  | .undefined => false
  | .null => false
  | .bool b => b
  | .number x => !(x == 0 || x.isNaN)
  | .string s => s ≠ ""
  | .array _ _ => true
  | .object _ _ => true

/-- `a || b`. -/
def orElse (a b : JsValue) : JsValue := if a.truthy then a else b

mutual

/-- `String(value)`, unless it raises. -/
def text (numberText : Float → String) : JsValue → Option String
  | .undefined => some "undefined"
  | .null => some "null"
  | .bool b => some (if b then "true" else "false")
  | .number x => some (numberText x)
  | .string s => some s
  | .array _ items => (joined numberText items).map (",".intercalate ·)
  | .object _ text => text

/-- The texts that `join` puts together. -/
def joined (numberText : Float → String) : List JsValue → Option (List String)
  | [] => some []
  | .undefined :: rest => (joined numberText rest).map ("" :: ·)
  | .null :: rest => (joined numberText rest).map ("" :: ·)
  | v :: rest => do
    let first ← text numberText v
    let later ← joined numberText rest
    pure (first :: later)

end

def isUndefined : JsValue → Bool
  | .undefined => true
  | _ => false

/-- `typeof value === "string" && pattern.test(value)`. -/
def isText (pattern : String → Bool) : JsValue → Bool
  | .string s => pattern s
  | _ => false

/-- The number, if `Number.isSafeInteger(value)`. -/
def safeInteger? : JsValue → Option Float
  | .number x => if x.floor == x && x.abs ≤ 9007199254740991 then some x else none
  | _ => none

/-- `new Set(items).size`. -/
def distinctCount : List JsValue → Nat
  | [] => 0
  | v :: rest => distinctCount rest + if rest.any (sameValueZero v) then 0 else 1

def includes (items : List JsValue) (v : JsValue) : Bool := items.any (sameValueZero v)

end JsValue
