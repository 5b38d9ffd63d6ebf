import WorkerPool.Manifest
import WorkerPool.Lib.JsonSame
import WorkerPool.Lib.JsonSpaced

/-!
# Tasks of the structured code worker

The bounds on the JSON values that a task holds and a candidate returns, and what a task must be.
`StructuredBlocked` is raised with one code.
-/

namespace WorkerPool

open PyText

/-- `abs(value) <= bound and math.isfinite(value)`, of a float. -/
def floatWithin (bound : Nat) (bits : UInt64) : Bool :=
  let exponent := bits.toNat / 2 ^ 52 % 2 ^ 11
  let mantissa := bits.toNat % 2 ^ 52
  -- the absolute value is `scaled / 2 ^ 1075`
  let scaled := if exponent = 0 then mantissa * 2 else (2 ^ 52 + mantissa) * 2 ^ exponent
  exponent ≠ 2047 && scaled ≤ bound * 2 ^ 1075

mutual

/-- `json_value`. -/
def jsonValue (depth : Nat) : Json → Except Raised Unit
  | .obj fields => do
    need (depth ≤ 8) "json_depth"
    need (fields.length ≤ 64 ∧ fields.all fun f => f.1.length ≤ 128) "json_object"
    jsonMembers (depth + 1) fields
  | .arr items => do
    need (depth ≤ 8) "json_depth"
    need (items.length ≤ 64) "json_array"
    jsonItems (depth + 1) items
  | .str s => do
    need (depth ≤ 8) "json_depth"
    need (s.length ≤ 4096) "json_string"
  | .int n => do
    need (depth ≤ 8) "json_depth"
    need (n.natAbs ≤ 1000000) "json_number"
  | .float bits => do
    need (depth ≤ 8) "json_depth"
    need (floatWithin 1000000 bits) "json_number"
  | .null | .bool _ => need (depth ≤ 8) "json_depth"

def jsonItems (depth : Nat) : List Json → Except Raised Unit
  | [] => .ok ()
  | v :: rest => do
    jsonValue depth v
    jsonItems depth rest

def jsonMembers (depth : Nat) : List (String × Json) → Except Raised Unit
  | [] => .ok ()
  | (_, v) :: rest => do
    jsonValue depth v
    jsonMembers depth rest

end

/-! ### What a task is -/

/-- The keys of `BUILTINS`. -/
def builtins : List String := ["isinstance", "str", "dict", "list", "len", "bool", "int", "float"]

def structuredFields : List String :=
  ["task_id", "path", "function", "parameters", "instruction", "base_sha", "before_sha256", "cases"]

def isWordChar (c : Char) : Bool := isLower c || isDigit c || c == '_'

/-- Full match of `[a-zA-Z0-9_-]{1,128}`. -/
def isStructuredId (s : String) : Bool :=
  runOf (fun c => isAsciiAlnum c || c == '_' || c == '-') 1 128 s.toList

/-- Full match of `[a-z][a-z0-9_]{0,n}`. -/
def lowerName (n : Nat) : List Char → Bool
  | [] => false
  | c :: rest => isLower c && runOf isWordChar 0 n rest

/-- Full match of `(?:app|src)/[a-z][a-z0-9_]{0,60}\.py`. -/
def isModulePath (s : String) : Bool :=
  let named (rest : List Char) := ['.', 'p', 'y'] <:+ rest && lowerName 60 (rest.take (rest.length - 3))
  match s.toList with
  | 'a' :: 'p' :: 'p' :: '/' :: rest => named rest
  | 's' :: 'r' :: 'c' :: '/' :: rest => named rest
  | _ => false

/-- Full match of `_?[a-z][a-z0-9_]{0,60}`. -/
def isFunctionName (s : String) : Bool :=
  match s.toList with
  | '_' :: rest => lowerName 60 rest
  | rest => lowerName 60 rest

/-- The pairs of `key` and `pattern` that `task_spec` goes through. -/
def structuredPatterns : List (String × (String → Bool)) := [
  ("task_id", isStructuredId), ("path", isModulePath), ("function", isFunctionName),
  ("base_sha", hexRun 40), ("before_sha256", hexRun 64)]

/-- `value[key]`, of a dictionary that has the key. -/
def member (key : String) : Json → Json
  | .obj fields => Json.field key fields
  | _ => .null

/-- The items of a list. -/
def listOf : Json → List Json
  | .arr items => items
  | _ => []

/-- `task["cases"]`. -/
def taskCases (task : Json) : List Json := listOf (member "cases" task)

/-- The texts of `task["parameters"]`. -/
def taskParameters (task : Json) : List String := (member "parameters" task).texts?.getD []

/-- What `task_spec` asks of `task["parameters"]`. -/
def parametersNamed (parameters : Json) : Bool :=
  match parameters.texts? with
  | none => false
  | some names => 1 ≤ names.length && names.length ≤ 4 && names.all (fun p => lowerName 40 p.toList) &&
      decide names.Nodup && names.all (· ∉ builtins)

/-- `type(value) is list and lo <= len(value) <= hi`. -/
def isListOf (lo hi : Nat) : Json → Bool
  | .arr items => lo ≤ items.length && items.length ≤ hi
  | _ => false

/-- The body of a loop that only checks, for one value after the other. -/
def each {α : Type} (check : α → Except Raised Unit) : List α → Except Raised Unit
  | [] => .ok ()
  | a :: rest => do
    check a
    each check rest

/-- What `task_spec` asks of one case, with so many parameters. -/
def checkCase (parameters : Nat) (case : Json) : Except Raised Unit := do
  needFields case ["args", "expected"] "task_case"
  need (isListOf parameters parameters (member "args" case)) "task_case"
  jsonValue 0 case

/-- `task_spec`. -/
def taskSpec (it : Interpreter) (task : Json) : Except Raised Json := do
  needFields task structuredFields "task_schema"
  each (fun (key, pattern) => need ((member key task).isText pattern) ("task_" ++ key)) structuredPatterns
  need (parametersNamed (member "parameters" task)) "task_parameters"
  need ((member "function" task).str?.all (· ∉ builtins)) "reserved_function"
  need ((member "instruction" task).isText fun s => 1 ≤ s.length && s.length ≤ 4000) "task_instruction"
  need (isListOf 2 100 (member "cases" task)) "task_cases"
  each (checkCase (taskParameters task).length) (taskCases task)
  need (Json.byteLength (Json.spaced true it.floatRepr task) ≤ 100000) "task_size"
  pure task

/-! ### What a check that passed has seen -/

@[simp] theorem each_eq_ok {α : Type} {check : α → Except Raised Unit} {values : List α} {u : Unit} :
    each check values = .ok u ↔ ∀ a ∈ values, check a = .ok () := by
  induction values with
  | nil => simp [each]
  | cons a rest ih =>
    simp only [each, bind_eq_ok, ih, List.forall_mem_cons]
    exact ⟨fun ⟨_, first, others⟩ => ⟨first, others⟩, fun ⟨first, others⟩ => ⟨(), first, others⟩⟩

theorem jsonItems_eq (depth : Nat) (items : List Json) : jsonItems depth items = each (jsonValue depth) items := by
  induction items with
  | nil => rfl
  | cons v rest ih => simp only [jsonItems, each, ih]

theorem jsonMembers_eq (depth : Nat) (fields : List (String × Json)) :
    jsonMembers depth fields = each (fun f => jsonValue depth f.2) fields := by
  induction fields with
  | nil => rfl
  | cons f rest ih => simp only [jsonMembers, each, ih]

theorem jsonValue_arr {depth : Nat} {items : List Json} {u : Unit} :
    jsonValue depth (.arr items) = .ok u ↔
      depth ≤ 8 ∧ items.length ≤ 64 ∧ ∀ v ∈ items, jsonValue (depth + 1) v = .ok () := by
  simp [jsonValue, jsonItems_eq, need_bind_eq_ok]

theorem jsonValue_obj {depth : Nat} {fields : List (String × Json)} {u : Unit} :
    jsonValue depth (.obj fields) = .ok u ↔ depth ≤ 8 ∧ (fields.length ≤ 64 ∧ ∀ f ∈ fields, f.1.length ≤ 128) ∧
      ∀ f ∈ fields, jsonValue (depth + 1) f.2 = .ok () := by
  simp [jsonValue, jsonMembers_eq, need_bind_eq_ok]

/-- A value that passes at some depth passes further out. -/
theorem jsonValue_shallower {depth outer : Nat} {v : Json} (le : outer ≤ depth)
    (h : jsonValue depth v = .ok ()) : jsonValue outer v = .ok () := by
  induction v using Json.byParts generalizing depth outer with
  | null | bool | int | float | str =>
    simp only [jsonValue, need_bind_eq_ok, need_eq_ok] at h ⊢
    first
    | exact ⟨by omega, h.2⟩
    | omega
  | arr items ih =>
    rw [jsonValue_arr] at h ⊢
    exact ⟨by omega, h.2.1, fun v hv => ih v hv (Nat.succ_le_succ le) (h.2.2 v hv)⟩
  | obj fields ih =>
    rw [jsonValue_obj] at h ⊢
    exact ⟨by omega, h.2.1, fun f hf => ih f hf (Nat.succ_le_succ le) (h.2.2 f hf)⟩

theorem mem_of_named {names : List String} {fields : List (String × Json)} {key : String}
    (named : Json.sameSet (Json.keys fields) names = true) (mem : key ∈ names) :
    (key, member key (.obj fields)) ∈ fields := by
  have held := Json.lookup_of_named named key
  rw [if_pos mem] at held
  exact Json.lookup_mem held

/-- Every value inside a value within the bounds passes at its depth. -/
theorem jsonValue_everywhere {depth : Nat} {v : Json} (h : jsonValue depth v = .ok ()) :
    v.Everywhere fun w => ∃ depth, jsonValue depth w = .ok () := by
  induction v using Json.byParts generalizing depth with
  | null | bool | int | float | str => simpa using ⟨depth, h⟩
  | arr items ih =>
    exact Json.everywhere_arr.mpr ⟨⟨depth, h⟩, fun v hv => ih v hv ((jsonValue_arr.mp h).2.2 v hv)⟩
  | obj fields ih =>
    exact Json.everywhere_obj.mpr ⟨⟨depth, h⟩, fun f hf => ih f hf ((jsonValue_obj.mp h).2.2 f hf)⟩

theorem notNan_of_floatWithin {bound : Nat} {bits : UInt64} (h : floatWithin bound bits = true) :
    Json.floatEq bits bits = true := by
  unfold floatWithin at h
  unfold Json.floatEq
  dsimp only at h ⊢
  rw [Bool.and_eq_true, decide_eq_true_eq] at h
  rw [if_neg (by rintro (⟨top, -⟩ | ⟨top, -⟩) <;> exact h.1 top)]
  split
  · rfl
  · exact beq_self_eq_true bits

theorem jsonValue_notNan {depth : Nat} {v : Json} (h : jsonValue depth v = .ok ()) :
    v.Everywhere Json.NotNan := by
  intro w hw
  obtain ⟨depth, held⟩ := jsonValue_everywhere h w hw
  cases w with
  | float bits =>
    simp only [jsonValue, need_bind_eq_ok, need_eq_ok] at held
    exact notNan_of_floatWithin held.2
  | _ => trivial

/-- A value within the bounds equals itself. -/
theorem pyEq_self {depth : Nat} {v : Json} (distinct : v.Everywhere Json.KeysDistinct)
    (h : jsonValue depth v = .ok ()) : v.pyEq v = true := by
  rw [← Json.sorted_pyEq]
  exact Json.pyEq_sorted distinct (jsonValue_notNan h)

theorem floatWithin_congr {a b : UInt64} {bound : Nat} (equal : Json.floatEq a b = true)
    (h : floatWithin bound b = true) : floatWithin bound a = true := by
  unfold Json.floatEq at equal
  dsimp only at equal
  split at equal
  · exact absurd equal (by simp)
  split at equal
  case isTrue zero =>
    have exponent : a.toNat / 2 ^ 52 % 2 ^ 11 = 0 := by omega
    have mantissa : a.toNat % 2 ^ 52 = 0 := by omega
    simp only [floatWithin, exponent, mantissa, if_true, Nat.zero_mul, Nat.zero_le, decide_true, Bool.and_true]
    decide
  case isFalse => exact eq_of_beq equal ▸ h

theorem le_mul_iff_of_dvd {n k bound : Nat} (positive : 0 < k) (divides : n % k = 0) :
    n ≤ bound * k ↔ n / k ≤ bound := by
  obtain ⟨m, rfl⟩ := Nat.dvd_of_mod_eq_zero divides
  rw [Nat.mul_div_cancel_left m positive, Nat.mul_comm]
  exact Nat.mul_le_mul_right_iff positive

/-- A float that is an integer is within the bound if the integer is. -/
theorem floatWithin_iff {bits : UInt64} {n : Int} {bound : Nat} (h : Json.floatInt? bits = some n) :
    floatWithin bound bits = true ↔ n.natAbs ≤ bound := by
  unfold Json.floatInt? at h
  unfold floatWithin
  dsimp only at h ⊢
  generalize (if bits.toNat / 2 ^ 52 % 2 ^ 11 = 0 then bits.toNat % 2 ^ 52 * 2
    else (2 ^ 52 + bits.toNat % 2 ^ 52) * 2 ^ (bits.toNat / 2 ^ 52 % 2 ^ 11)) = scaled at h ⊢
  generalize 1075 = e at h ⊢
  have positive := Nat.two_pow_pos e
  generalize 2 ^ e = k at h positive ⊢
  split at h
  · cases h
  case isFalse finite =>
    split at h
    case isFalse => cases h
    case isTrue divides =>
      have abs : n.natAbs = scaled / k := by
        obtain rfl := Option.some.inj h
        split
        · rw [Int.natAbs_neg, Int.natAbs_natCast]
        · rw [Int.natAbs_natCast]
      rw [abs, ← le_mul_iff_of_dvd positive divides]
      rw [Bool.and_eq_true, decide_eq_true_eq, decide_eq_true_eq]
      exact ⟨And.right, fun le => ⟨finite, le⟩⟩

theorem jsonValue_number {depth : Nat} {v : Json} {n : Int} (h : v.asInt? = some n) :
    jsonValue depth v = .ok () ↔ depth ≤ 8 ∧ n.natAbs ≤ 1000000 := by
  cases v with
  | bool b =>
    obtain rfl := Option.some.inj h
    cases b <;> simp [jsonValue]
  | int m =>
    obtain rfl := Option.some.inj h
    simp [jsonValue, need_bind_eq_ok]
  | float bits => simp only [jsonValue, need_bind_eq_ok, need_eq_ok, floatWithin_iff h]
  | _ => exact absurd h (by simp [Json.asInt?])

/-- What is equal to a scalar within the bounds is within them. -/
theorem jsonValue_scalarEq {depth : Nat} {v w : Json} (equal : v.scalarEq w = true)
    (h : jsonValue depth w = .ok ()) : jsonValue depth v = .ok () := by
  rcases Json.scalarEq_cases equal with rfl | ⟨a, b, rfl, rfl, equal⟩ | ⟨n, number, number'⟩
  · exact h
  · simp only [jsonValue, need_bind_eq_ok, need_eq_ok] at h ⊢
    exact ⟨h.1, floatWithin_congr equal h.2⟩
  · exact (jsonValue_number number).mpr ((jsonValue_number number').mp h)

/-- A value that is equal to one within the bounds is within them. -/
theorem jsonValue_pyEq {depth : Nat} {v w : Json} (equal : v.pyEq w = true)
    (h : jsonValue depth w = .ok ()) : jsonValue depth v = .ok () := by
  induction v using Json.byParts generalizing depth w with
  | null | bool | int | float | str =>
    rw [(Json.pyEq_scalar w rfl).1] at equal
    exact jsonValue_scalarEq equal h
  | arr items ih =>
    cases w with
    | arr others =>
      rw [jsonValue_arr] at h ⊢
      obtain ⟨size, each⟩ := Json.pyEq_arr equal
      refine ⟨h.1, size ▸ h.2.1, fun v hv => ?_⟩
      obtain ⟨w, hw, equal⟩ := each v hv
      exact ih v hv equal (h.2.2 w hw)
    | _ => simp [Json.pyEq, Json.scalarEq, Json.asInt?] at equal
  | obj fields ih =>
    cases w with
    | obj others =>
      rw [jsonValue_obj] at h ⊢
      obtain ⟨size, each⟩ := Json.pyEq_obj.mp equal
      refine ⟨h.1, ⟨size ▸ h.2.1.1, fun f hf => ?_⟩, fun f hf => ?_⟩
      · obtain ⟨w, held, -⟩ := each f hf
        exact h.2.1.2 (f.1, w) (Json.lookup_mem held)
      · obtain ⟨w, held, equal⟩ := each f hf
        exact ih f hf equal (h.2.2 (f.1, w) (Json.lookup_mem held))
    | _ => simp [Json.pyEq, Json.scalarEq, Json.asInt?] at equal

/-! ### Accepted tasks -/

/-- What the checks of an accepted task say about its cases. -/
structure CasesOk (task : Json) : Prop where
  count : 2 ≤ (taskCases task).length ∧ (taskCases task).length ≤ 100
  each : ∀ case ∈ taskCases task, checkCase (taskParameters task).length case = .ok ()

theorem casesOk {it : Interpreter} {task task' : Json} (h : taskSpec it task = .ok task') : CasesOk task := by
  simp only [taskSpec, bind_eq_ok, need_eq_ok, each_eq_ok] at h
  obtain ⟨-, -, -, -, -, -, -, -, -, -, -, count, -, cases, -⟩ := h
  refine ⟨?_, cases⟩
  unfold taskCases
  cases held : member "cases" task with
  | arr items => simpa [isListOf, held, listOf] using count
  | _ => simp [isListOf, held] at count

theorem taskSpec_same {it : Interpreter} {task task' : Json} (h : taskSpec it task = .ok task') : task' = task := by
  simp only [taskSpec, bind_eq_ok] at h
  obtain ⟨-, -, -, -, -, -, -, -, -, -, -, -, -, -, -, -, h⟩ := h
  exact (Except.ok.inj h).symm

theorem taskSpec_of {it : Interpreter} {task : Json} (h : (taskSpec it task).toOption.isSome = true) :
    taskSpec it task = .ok task := by
  cases checked : taskSpec it task with
  | error e => rw [checked] at h; cases h
  | ok task' => rw [taskSpec_same checked]

/-- The expected value of a case is within the bounds. -/
theorem expected_within {parameters : Nat} {case : Json} (h : checkCase parameters case = .ok ()) :
    jsonValue 1 (member "expected" case) = .ok () := by
  simp only [checkCase, bind_eq_ok, need_eq_ok] at h
  obtain ⟨_, named, _, -, within⟩ := h
  obtain ⟨fields, rfl⟩ := isObj_of_needFields named
  rw [needFields_obj, need_eq_ok] at named
  exact (jsonValue_obj.mp within).2.2 _ (mem_of_named named (by simp))

end WorkerPool
