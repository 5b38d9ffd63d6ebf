import WorkerPool.Manifest

/-!
# What the executor checks of a claim

The fence of a lease, the recovery context that a fenced claim returns, and the results of
adapters and transports.
-/

namespace WorkerPool

open PyText

/-- `_fencing_required`. -/
def fencingRequired (task : Json) : Except Raised Bool := do
  match ← get task "fencing_required" (.bool false) with
  | .bool value => pure value
  | .int value =>
    need (value = 0 ∨ value = 1) "task_fencing_invalid"
    pure (value = 1)
  | _ => throw (.blocked [.str "task_fencing_invalid"])

/-- `_artifact_from_checkpoint`. -/
def artifactFromCheckpoint (checkpoint : Json) : Except Raised DurableArtifact := do
  let kind ← get checkpoint "artifact_kind"
  let ref ← get checkpoint "artifact_ref"
  let sha ← get checkpoint "artifact_sha256"
  DurableArtifact.parse
    (.obj [("artifact_kind", kind), ("artifact_ref", ref), ("artifact_sha256", sha)])

/-- The length of a text that `next_action`, a result and a readback keep to. -/
def isBounded (s : String) : Bool := 1 ≤ s.length && s.length ≤ 2048

/-- The effect of a checkpoint: absent, under way, or with its result. -/
def effectShape (effectId effectState effectResultRef : Json) : Bool :=
  if effectState.isStr "none" then effectId.isNull && effectResultRef.isNull
  else effectId.isText isFenceId &&
    if effectState.isStr "pending" || effectState.isStr "unknown" then effectResultRef.isNull
    else effectResultRef.isText isBounded

/-- `_validate_checkpoint_shape`. -/
def validateCheckpointShape (checkpoint : Json) (taskId : String) : Except Raised Unit := do
  let field := fun key => get checkpoint key
  need ((← field "task_id").isStr taskId && (← field "lease_generation").isPositive &&
    (← field "attempt_id").isText isFenceId && (← field "checkpoint_id").isText isFenceId &&
    (← field "sequence").isPositive && (← field "stage").isText isFenceId &&
    (← field "next_action").isText isBounded) "recovery_context_invalid"
  let kind ← field "artifact_kind"
  let ref ← field "artifact_ref"
  let sha ← field "artifact_sha256"
  need ((kind.isNull && ref.isNull && sha.isNull) ||
    (!kind.isNull && !ref.isNull && !sha.isNull)) "recovery_context_invalid"
  if kind.isNull then pure () else
    let _ ← artifactFromCheckpoint checkpoint
  let state ← field "effect_state"
  let known ← orError (state.inTexts? ["none", "pending", "unknown", "confirmed", "not_applied"])
  need (known && effectShape (← field "effect_id") state (← field "effect_result_ref"))
    "recovery_context_invalid"

/-- `checkpoint["lease_generation"] < current_generation`. -/
def precedes (checkpoint : Json) (currentGeneration : Int) : Except Raised Bool := do
  let generation ← get checkpoint "lease_generation"
  pure (generation.int?.any (· < currentGeneration))

/-- One round of the loop over the effects, with the effect ids seen so far. -/
def readEffect (taskId : String) (currentGeneration : Int) (effectIds : List String) (item : Json) :
    Except Raised (List String) := do
  validateCheckpointShape item taskId
  let effectId ← needText (← get item "effect_id") (fun s => s ∉ effectIds)
    "recovery_context_invalid"
  let state ← get item "effect_state"
  let outcome ← get item "reconciliation_outcome"
  let readbackRef ← get item "reconciliation_readback_ref"
  let earlier ← precedes item currentGeneration
  need earlier "recovery_context_invalid"
  let declared ← orError (state.inTexts? ["pending", "unknown", "confirmed", "not_applied"])
  need declared "recovery_context_invalid"
  let decided ← if outcome.isNull then pure true
    else orError (outcome.inTexts? ["confirmed", "not_applied"])
  need (decided && (outcome.isNull ||
    ((state.isStr "pending" || state.isStr "unknown") && readbackRef.isText isBounded)))
    "recovery_context_invalid"
  pure (effectId :: effectIds)

/-- The columns that the latest checkpoint and the effect it declares agree on. -/
def comparedFields : List String :=
  ["checkpoint_id", "lease_generation", "attempt_id", "sequence", "stage", "artifact_kind",
    "artifact_ref", "artifact_sha256", "next_action", "effect_id", "effect_state",
    "effect_result_ref"]

/-- `left.get(key) == right.get(key)`, of values that are no containers. -/
def agreeOn (left right : Json) (key : String) : Bool :=
  match left.get? key .null, right.get? key .null with
  | some a, some b => a.scalarEq b
  | _, _ => false

/-- `_recovery_context`. -/
def recoveryContext (raw : Json) (taskId : String) (currentGeneration : Int) :
    Except Raised (Option Json × List Json) := do
  needFields raw ["latest_checkpoint", "effects"] "recovery_context_invalid"
  let value ← get raw "latest_checkpoint"
  need (value.isNull || value.isObj) "recovery_context_invalid"
  let latest := if value.isNull then none else some value
  match ← get raw "effects" with
  | .arr effects =>
    need (effects.length ≤ 64 && effects.all Json.isObj) "recovery_context_invalid"
    match latest with
    | none => pure ()
    | some checkpoint =>
      validateCheckpointShape checkpoint taskId
      need (← precedes checkpoint currentGeneration) "recovery_context_invalid"
    let _ ← effects.foldlM (readEffect taskId currentGeneration) []
    match latest with
    | none => pure ()
    | some checkpoint =>
      if (← get checkpoint "effect_id").isNull then pure () else
        need ((effects.find? fun item => agreeOn item checkpoint "effect_id").any fun item =>
          comparedFields.all (agreeOn item checkpoint)) "recovery_context_invalid"
    pure (latest, effects)
  | _ => throw (.blocked [.str "recovery_context_invalid"])

/-- `latest.get(key) == text`, of a checkpoint. -/
def fieldIs (checkpoint : Json) (key text : String) : Bool :=
  (checkpoint.get? key .null).any fun value => value.isStr text

/-- The check that either role makes of the checkpoint it goes on from. -/
def resumable (checkpoint : Json) : Bool :=
  fieldIs checkpoint "stage" "builder_result" && fieldIs checkpoint "next_action" "submit_validation"

/-- One round of `_validate_recovery_effects`. -/
def validateRecoveryEffect (latest : Option Json) (item : Json) : Except Raised Unit := do
  let outcome ← get item "reconciliation_outcome"
  let state ← get item "effect_state"
  let effective := outcome.orElse state
  if effective.isStr "not_applied" then
    need (latest.all fun checkpoint => !agreeOn item checkpoint "effect_id")
      "recovery_effect_not_resumable"
  else
    match latest with
    | none => throw (.blocked [.str "recovery_effect_unsafe"])
    | some checkpoint =>
      need (effective.isStr "confirmed" && agreeOn item checkpoint "effect_id" &&
        fieldIs checkpoint "effect_state" "confirmed" && resumable checkpoint)
        "recovery_effect_unsafe"
      let _ ← artifactFromCheckpoint checkpoint

/-- `_validate_recovery_effects`. -/
def validateRecoveryEffects (latest : Option Json) (effects : List Json) : Except Raised Unit :=
  effects.forM (validateRecoveryEffect latest)

/-- The generation and the attempt that every mutation of a fenced task names. -/
structure Fence where
  generation : Int
  attemptId : String
  deriving DecidableEq

/-- `_lease_fence` and `_mutation_fence`. -/
def leaseFence (fenced : Bool) (lease claimedTask : Json) : Except Raised (Option Fence) := do
  let generation ← get lease "lease_generation"
  let attemptId ← get lease "attempt_id"
  if fenced then
    match generation, attemptId with
    | .int g, .str a =>
      need (1 ≤ g && isFenceId a && (← get claimedTask "lease_generation").scalarEq (.int g) &&
        (← get claimedTask "attempt_id").isStr a) "lease_fence_invalid"
      pure (some ⟨g, a⟩)
    | _, _ => throw (.blocked [.str "lease_fence_invalid"])
  else pure none

/-- `_checkpoint_id`. -/
def checkpointIdOf (it : Interpreter) (attemptId : String) (role : Role) (stage : String) : String :=
  "native-" ++ role.text ++ "-" ++ stage ++ "-" ++
    prefixOf 32 (it.sha256 (attemptId ++ ":" ++ role.text ++ ":" ++ stage))

/-- `_artifact_effect_id`. -/
def artifactEffectId (it : Interpreter) (taskId producedSha : String) : String :=
  "native-artifact-" ++ prefixOf 32 (it.sha256 (taskId ++ ":" ++ producedSha))

/-- The paths of a result, as both checks of a result want them. -/
def validatePaths (result : AdapterResult) (descriptor : AdapterDescriptor) (code : String) :
    Except Raised Unit := do
  let paths ← result.changedPaths.mapM safePath
  need (paths ≠ [] ∧ Ordered paths ∧ ∀ path ∈ paths, path ∈ descriptor.allowedPaths) code

/-- `_validate_recovered_result`; a value that is no `AdapterResult` is `none`. -/
def validateRecoveredResult (value : Option AdapterResult) (descriptor : AdapterDescriptor) :
    Except Raised AdapterResult := do
  let result ← (match value with
    | some result => pure result
    | none => throw (.blocked [.str "artifact_result_sha"]))
  need (isSha40 result.producedSha) "artifact_result_sha"
  validatePaths result descriptor "artifact_result_paths"
  let expected ← descriptor.commandsFor .builder
  need (result.invokedCommands.length = expected.length ∧
    Json.sameSet result.invokedCommands expected) "artifact_result_commands"
  need (isSha256 result.evidenceSha256) "artifact_result_evidence"
  pure result

/-- `_validate_result`, with the commands that the adapter has invoked. -/
def validateResult (value : Option AdapterResult) (invoked : List String)
    (descriptor : AdapterDescriptor) (role : Role) : Except Raised AdapterResult := do
  let result ← (match value with
    | some result => pure result
    | none => throw (.blocked [.str "adapter_result_sha"]))
  need (isSha40 result.producedSha) "adapter_result_sha"
  validatePaths result descriptor "adapter_result_paths"
  let commands ← descriptor.commandsFor role
  need (result.invokedCommands = invoked ∧ ∀ key ∈ result.invokedCommands, key ∈ commands)
    "adapter_result_commands"
  need (isSha256 result.evidenceSha256) "adapter_result_evidence"
  pure result

end WorkerPool
