import WorkerPool.Lib.JsonDict
import WorkerPool.Store

/-!
# Manifests, adapters and artifacts of the one-shot executor

The values that `native_one_shot.py` checks before it asks anything of the pool: the
boundary of a run, the descriptor of an adapter, the manifest of a task, the reference to
a durable artifact and the result of an adapter.
-/

namespace WorkerPool

open PyText

/-- What Python code raises: `NativeExecutorBlocked` with its arguments, any other
`Exception`, or what is no `Exception`, such as `KeyboardInterrupt`. -/
inductive Raised where
  | blocked (args : List Json)
  | error
  | fatal

/-- `_need`. -/
def need (condition : Prop) [Decidable condition] (code : String) : Except Raised Unit :=
  if condition then .ok () else .error (.blocked [.str code])

/-- What `datetime.fromisoformat` reads: with a UTC offset, a moment. -/
inductive Expiry where
  | naive
  | aware (micros : Int)

/-- The interpreter of the executor: also how `json.dumps` writes a float, and how
`datetime.fromisoformat` reads a text. -/
structure Interpreter extends Runtime where
  floatRepr : UInt64 → List Char
  fromIso : String → Option Expiry

/-- `_digest`. -/
def digest (it : Interpreter) (value : Json) : String :=
  it.sha256 (String.ofList (value.dumps true it.floatRepr))

/-! ### Patterns -/

def isSha256 (s : String) : Bool := hexRun 64 s

def isLower (c : Char) : Bool := 'a' ≤ c && c ≤ 'z'

def isDigit (c : Char) : Bool := '0' ≤ c && c ≤ '9'

/-- `NAME.fullmatch`. -/
def isName (s : String) : Bool :=
  headedRun isLower (fun c => isLower c || isDigit c || c == '_' || c == '.' || c == '-') 2 127 s

/-- `CORRELATION.fullmatch`. -/
def isCorrelation (s : String) : Bool :=
  headedRun (fun c => isLower c || isDigit c) (fun c => isLower c || isDigit c || c == '-') 7 127 s

/-- `FENCE_ID.fullmatch`: the pattern of `SAFE_ID`. -/
def isFenceId (s : String) : Bool := isSafeId s

def runOf (isMember : Char → Bool) (lo hi : Nat) (s : List Char) : Bool :=
  lo ≤ s.length && s.length ≤ hi && s.all isMember

/-- Full match of `[A-Za-z0-9._-]{3,64}`. -/
def isSessionId (s : String) : Bool :=
  runOf (fun c => isAsciiAlnum c || c == '.' || c == '_' || c == '-') 3 64 s.toList

/-- Full match of `[A-Za-z0-9_.-]{1,100}/[A-Za-z0-9_.-]{1,100}`. -/
def isRepositoryName (s : String) : Bool :=
  let part := runOf (fun c => isAsciiAlnum c || c == '_' || c == '.' || c == '-') 1 100
  match s.toList.splitOn '/' with
  | [owner, name] => part owner && part name
  | _ => false

/-! ### Paths -/

/-- `PurePosixPath(value).parts`, of a relative path. -/
def pathParts (value : String) : List String :=
  ((value.toList.splitOn '/').map String.ofList).filter fun part => part ≠ "" && part ≠ "."

/-- `_safe_path`. -/
def safePath (value : String) : Except Raised String := do
  need (1 ≤ value.length ∧ value.length ≤ 240) "manifest_path"
  let parts := pathParts value
  need (value.toList.head? ≠ some '/' ∧ '\\' ∉ value.toList ∧ ".." ∉ parts)
    "manifest_path_traversal"
  need (∀ part ∈ parts, part.toList.head? ≠ some '.') "manifest_path_hidden"
  -- `as_posix` of a path without parts
  pure (if parts = [] then "." else "/".intercalate parts)

/-! ### The boundary and the adapter -/

structure ExecutionBoundary where
  sessionId : String
  correlationId : String
  expectedHead : String
  stateValidated : Bool
  gatewayVerified : Bool

def ExecutionBoundary.validate (b : ExecutionBoundary) : Except Raised Unit := do
  need (isSessionId b.sessionId) "session_invalid"
  need (isCorrelation b.correlationId) "correlation_invalid"
  need (isSha40 b.expectedHead) "boundary_head_invalid"
  need (b.stateValidated ∧ b.gatewayVerified) "governed_boundary_unproved"

structure AdapterDescriptor where
  adapterId : String
  allowedPaths : List String
  builderCommands : List String
  validatorCommands : List String
  roles : List String

def texts (values : List String) : Json := .arr (values.map .str)

/-- The list is `tuple(sorted(set(values)))` of itself. -/
def Ordered (values : List String) : Prop := values.Pairwise (· < ·)

instance (values : List String) : Decidable (Ordered values) :=
  inferInstanceAs (Decidable (values.Pairwise _))

def AdapterDescriptor.normalized (d : AdapterDescriptor) : Except Raised Json := do
  need (isName d.adapterId) "adapter_id"
  let paths ← d.allowedPaths.mapM safePath
  need (Ordered paths ∧ paths ≠ []) "adapter_paths"
  need (Ordered d.builderCommands ∧ d.builderCommands.all isName) "adapter_commands"
  need (Ordered d.validatorCommands ∧ d.validatorCommands.all isName) "adapter_commands"
  need (d.roles ⊆ ["builder", "validator"] ∧ d.roles ≠ []) "adapter_roles"
  need (("builder" ∈ d.roles → d.builderCommands ≠ []) ∧
    ("validator" ∈ d.roles → d.validatorCommands ≠ [])) "adapter_role_commands"
  pure (.obj [
    ("adapter_id", .str d.adapterId),
    ("allowed_paths", texts paths),
    ("builder_commands", texts d.builderCommands),
    ("validator_commands", texts d.validatorCommands),
    ("roles", texts d.roles)])

def AdapterDescriptor.commandKeys (d : AdapterDescriptor) : List String :=
  (d.builderCommands ++ d.validatorCommands).foldr insertName []

def AdapterDescriptor.commandsFor (d : AdapterDescriptor) (role : Role) :
    Except Raised (List String) := do
  need (role.text ∈ d.roles) "adapter_role_unsupported"
  pure (match role with
    | .builder => d.builderCommands
    | .validator => d.validatorCommands)

def AdapterDescriptor.contractSha256 (it : Interpreter) (d : AdapterDescriptor) :
    Except Raised String := do
  let contract ← d.normalized
  pure (digest it contract)

/-! ### Values received as JSON -/

/-- An `AttributeError` or a `TypeError` where a value is not of the kind expected. -/
def orError {α : Type} : Option α → Except Raised α
  | some a => .ok a
  | none => .error .error

/-- `value.get(key, default)`. -/
def get (value : Json) (key : String) (default : Json := .null) : Except Raised Json :=
  orError (value.get? key default)

/-- `type(value) is str and bool(pattern.fullmatch(value))`. -/
def needText (value : Json) (pattern : String → Bool) (code : String) : Except Raised String :=
  match value with
  | .str s => if pattern s then .ok s else .error (.blocked [.str code])
  | _ => .error (.blocked [.str code])

/-- `pattern.fullmatch(value)`, which only takes a text. -/
def needMatch (value : Json) (pattern : String → Bool) (code : String) : Except Raised String := do
  let s ← orError value.str?
  need (pattern s) code
  pure s

/-- `type(value) is dict and set(value) == names`. -/
def needFields (value : Json) (names : List String) (code : String) : Except Raised Unit := do
  need value.isObj code
  let same ← orError (value.sameKeys? names)
  need same code

/-! ### What a check that passed has seen -/

theorem bind_eq_ok {α β : Type} {x : Except Raised α} {f : α → Except Raised β} {b : β} :
    (x >>= f) = .ok b ↔ ∃ a, x = .ok a ∧ f a = .ok b := by
  cases x with
  | error e => simp [bind, Except.bind]
  | ok a => simp [bind, Except.bind]

@[simp] theorem need_eq_ok {c : Prop} [Decidable c] {code : String} {u : Unit} :
    need c code = .ok u ↔ c := by
  unfold need
  split <;> simp_all

@[simp] theorem orError_eq_ok {α : Type} {o : Option α} {a : α} :
    orError o = .ok a ↔ o = some a := by
  cases o <;> simp [orError]

@[simp] theorem needText_eq_ok {value : Json} {pattern : String → Bool} {code s : String} :
    needText value pattern code = .ok s ↔ value = .str s ∧ pattern s = true := by
  unfold needText
  cases value with
  | str t =>
    by_cases h : pattern t = true <;> simp [h]
    · rintro rfl
      exact h
    · rintro rfl
      exact Bool.eq_false_iff.mpr h
  | _ => simp

theorem need_bind_eq_ok {α : Type} {c : Prop} [Decidable c] {code : String}
    {f : Unit → Except Raised α} {a : α} : (need c code >>= f) = .ok a ↔ c ∧ f () = .ok a := by
  by_cases h : c <;> simp [need, h, bind, Except.bind]

theorem ok_bind {α β : Type} (a : α) (f : α → Except Raised β) : (Except.ok a >>= f) = f a := rfl

theorem get_obj (fields : List (String × Json)) (key : String) :
    get (.obj fields) key = .ok (Json.field key fields) := rfl

theorem needFields_obj (fields : List (String × Json)) (names : List String) (code : String) :
    needFields (.obj fields) names code =
      need (Json.sameSet (Json.keys fields) names = true) code := rfl

theorem isObj_of_needFields {value : Json} {names : List String} {code : String} {u : Unit}
    (h : needFields value names code = .ok u) : ∃ fields, value = .obj fields := by
  cases value with
  | obj fields => exact ⟨fields, rfl⟩
  | _ => exact absurd h (by simp [needFields, Json.isObj, bind_eq_ok])

/-- `fields[key] = value`. -/
def assign {β : Type} (fields : List (String × β)) (key : String) (value : β) :
    List (String × β) :=
  if fields.any fun f => f.1 == key then
    fields.map fun f => if f.1 = key then (key, value) else f
  else fields ++ [(key, value)]

structure TaskManifest where
  schemaVersion : Json
  taskId : String
  repository : String
  baseSha : String
  workspaceSha : String
  adapterId : String
  adapterContractSha256 : String
  beforeSha256 : List (String × String)

def TaskManifest.fields : List String :=
  ["schema_version", "task_id", "repository", "base_sha", "workspace_sha", "adapter_id",
    "adapter_contract_sha256", "before_sha256"]

/-- One round of the loop over `before_sha256`. -/
def readHash (normalized : List (String × String)) (entry : String × Json) :
    Except Raised (List (String × String)) := do
  let safe ← safePath entry.1
  let sha ← needText entry.2 isSha256 "manifest_hash"
  pure (assign normalized safe sha)

/-- `TaskManifest.parse`. -/
def TaskManifest.parse (raw : Json) : Except Raised TaskManifest := do
  needFields raw TaskManifest.fields "manifest_schema"
  match ← get raw "before_sha256" with
  | .obj before =>
    need (1 ≤ before.length ∧ before.length ≤ 32) "manifest_hashes"
    let normalized ← before.foldlM readHash []
    let version ← get raw "schema_version"
    need (version.scalarEq (.int 1)) "manifest_version"
    let taskId ← needText (← get raw "task_id") isTaskId "manifest_task_id"
    let repository ← needText (← get raw "repository") isRepositoryName "manifest_repository"
    let baseSha ← needText (← get raw "base_sha") isSha40 "manifest_base_sha"
    let workspaceSha ← needText (← get raw "workspace_sha") isSha40 "manifest_workspace_sha"
    let adapterId ← needText (← get raw "adapter_id") isName "manifest_adapter"
    let contract ← needText (← get raw "adapter_contract_sha256") isSha256
      "manifest_adapter_contract"
    pure ⟨version, taskId, repository, baseSha, workspaceSha, adapterId, contract, normalized⟩
  | _ => throw (.blocked [.str "manifest_hashes"])

/-! ### Results and artifacts -/

structure AdapterResult where
  producedSha : String
  changedPaths : List String
  invokedCommands : List String
  evidenceSha256 : String

structure DurableArtifact where
  artifactKind : String
  artifactRef : String
  artifactSha256 : String
  deriving DecidableEq

namespace DurableArtifact

def checkpointFields (a : DurableArtifact) : List (String × Json) :=
  [("artifact_kind", .str a.artifactKind), ("artifact_ref", .str a.artifactRef),
    ("artifact_sha256", .str a.artifactSha256)]

/-- A reference of one line. -/
def isRef (s : String) : Bool :=
  1 ≤ s.length && s.length ≤ 2048 && s.toList.all fun c => c ≠ '\n' && c ≠ '\r'

/-- `DurableArtifact.parse`. -/
def parse (raw : Json) : Except Raised DurableArtifact := do
  needFields raw ["artifact_kind", "artifact_ref", "artifact_sha256"] "durable_artifact_invalid"
  let kind ← needMatch (← get raw "artifact_kind") isName "durable_artifact_invalid"
  let ref ← needText (← get raw "artifact_ref") isRef "durable_artifact_invalid"
  let sha ← needMatch (← get raw "artifact_sha256") isSha256 "durable_artifact_invalid"
  pure ⟨kind, ref, sha⟩

end DurableArtifact

end WorkerPool
