import WorkerPool.Checkpoints
import WorkerPool.Lib.Program
import WorkerPool.Recovery

/-!
# The one-shot executor

`NativeOneShotExecutor.run` as a program that makes requests of its ports: the worker API,
the adapter, the artifact transport, the worktree and the receipts. Each port may answer or
raise whatever it likes.
-/

namespace WorkerPool

open PyText

/-! ### Requests -/

inductive Request where
  | acquire (taskId : String) (role : Role)
  | release (taskId : String) (role : Role)
  | receiptExists (taskId : String) (role : Role)
  | receiptIsFile (taskId : String) (role : Role)
  | readReceipt (taskId : String) (role : Role)
  | writeReceipt (taskId : String) (role : Role) (receipt : Json)
  | validateBeforeClaim (manifest : TaskManifest) (descriptor : AdapterDescriptor)
  | validateReplay (producedSha : String)
  | head
  | status
  | changedPaths (baseSha producedSha : String)
  | now
  | build
  | validate (producedSha : String)
  | preflight
  | publish (manifest : TaskManifest) (fence : Fence) (effectId : String) (result : AdapterResult)
  | materialize (manifest : TaskManifest) (artifact : DurableArtifact)
  | verify (manifest : TaskManifest) (producedSha : String) (artifact : DurableArtifact)
  | getTask (taskId : String)
  | getLatestCheckpoint (taskId : String)
  | claimExact (workerId taskId correlationId : String)
  | claimFencedExact (workerId taskId correlationId : String)
  | start (p : Credential) (correlationId : String)
  | submitValidation (p : Credential) (producedSha correlationId : String)
  | complete (p : Credential) (correlationId : String)
  | fail (p : Credential) (correlationId reason : String)
  | block (p : Credential) (correlationId reason : String)
  | recordCheckpoint (a : RecordCheckpoint)

/-- What `publish` returns: a `DurableArtifact`, or any other value. -/
inductive Published where
  | artifact (a : DurableArtifact)
  | other (raw : Json)

/-- What an adapter returns, if it is an `AdapterResult`, and the commands it has invoked. -/
structure AdapterReply where
  result : Option AdapterResult
  invoked : List String

def Request.Reply : Request → Type
  | .receiptExists .. | .receiptIsFile .. => Bool
  | .readReceipt .. | .getTask _ | .getLatestCheckpoint _ | .claimExact .. | .claimFencedExact .. => Json
  | .head | .status => String
  | .changedPaths .. => List String
  | .now => Int
  | .build | .validate _ => AdapterReply
  | .publish .. => Published
  | .materialize .. => Option AdapterResult
  | _ => Unit

abbrev ExecutorProgram (α : Type) : Type := Program Raised Request Request.Reply α

def ask (q : Request) : ExecutorProgram q.Reply := .request q

/-- `try … except Exception`. -/
def onException {α : Type} (p : ExecutorProgram α) (h : Raised → ExecutorProgram α) :
    ExecutorProgram α :=
  p.handle fun e => match e with
    | .fatal => .raise .fatal
    | e => h e

/-- `try … except Exception: pass`. -/
def attempt (p : ExecutorProgram Unit) : ExecutorProgram Unit := onException p fun _ => pure ()

/-! ### The executor and its input -/

structure Executor where
  boundary : ExecutionBoundary
  workspaceRoot : String
  adapters : List (String × AdapterDescriptor)
  commandRegistries : String → List String
  fencedAdapterIds : List String
  /-- `artifact_transport is not None`, and whether it has the method `preflight`. -/
  hasTransport : Bool
  preflights : Bool
  /-- The methods that the worker API has beyond those of an unfenced task. -/
  readsCheckpoints : Bool
  mutatesFenced : Bool
  attested : ∀ id ∈ fencedAdapterIds, isName id = true ∧ ∃ d, (id, d) ∈ adapters

structure Input where
  raw : Json
  role : Role
  workerId : String
  manifest : TaskManifest
  descriptor : AdapterDescriptor

/-- The checks of `run` before it takes the lock of the task. -/
def Executor.readInput (it : Interpreter) (x : Executor) (raw : Json) (role workerId : String) :
    Except Raised Input := do
  let role ← (match Role.ofText role with
    | some role => pure role
    | none => throw (.blocked [.str "role_invalid"]))
  need (isName workerId) "worker_id_invalid"
  x.boundary.validate
  let manifest ← TaskManifest.parse raw
  need (manifest.workspaceSha = x.boundary.expectedHead) "boundary_manifest_drift"
  need (role = .builder → manifest.workspaceSha = manifest.baseSha) "builder_workspace_not_base"
  let descriptor ← (match x.adapters.lookup manifest.adapterId with
    | some descriptor => pure descriptor
    | none => throw (.blocked [.str "adapter_unavailable"]))
  need (descriptor.adapterId = manifest.adapterId) "adapter_contract_mismatch"
  let contract ← descriptor.contractSha256 it
  need (contract = manifest.adapterContractSha256) "adapter_contract_mismatch"
  need (role.text ∈ descriptor.roles) "adapter_role_unsupported"
  pure ⟨raw, role, workerId, manifest, descriptor⟩

variable (it : Interpreter) (x : Executor) (i : Input)

def Executor.workspaceId : String := it.sha256 x.workspaceRoot

/-- The local checks before a claim; they end with the adapter's context. -/
def Executor.prepare : ExecutorProgram Unit := do
  ask (.validateBeforeClaim i.manifest i.descriptor)
  if i.role = .validator then
    let built : Bool ← ask (.receiptExists i.manifest.taskId .builder)
    if built then
      let prior ← ask (.readReceipt i.manifest.taskId .builder)
      let workspace ← get prior "workspace_id"
      need (¬ workspace.isStr (x.workspaceId it)) "validator_workspace_not_distinct"
  let _ ← i.descriptor.commandsFor i.role
  need (Json.sameSet (x.commandRegistries i.manifest.adapterId) i.descriptor.commandKeys)
    "local_command_registry"

/-- The canonical task, and whether it is fenced. -/
def Executor.readTask : ExecutorProgram (Json × Bool) := do
  let task ← ask (.getTask i.manifest.taskId)
  need ((← get task "task_id").isStr i.manifest.taskId &&
    (← get task "repository").isStr i.manifest.repository &&
    (← get task "base_sha").isStr i.manifest.baseSha) "task_identity_drift"
  let fenced ← fencingRequired task
  if fenced then
    need (i.manifest.adapterId ∈ x.fencedAdapterIds) "fenced_adapter_not_attested"
    need x.hasTransport "durable_artifact_transport_required"
    need x.readsCheckpoints "fenced_worker_api_unsupported"
  pure (task, fenced)

/-! ### Replay of a receipt -/

def receiptFields (fenced : Bool) : List String :=
  ["schema_version", "result", "task_id", "role", "worker_id", "manifest_sha256",
    "adapter_contract_sha256", "produced_sha", "evidence_sha256", "changed_paths",
    "invoked_commands", "session_id", "correlation_id", "gateway_verified", "workspace_id",
    "replayed"] ++
  if fenced then ["fencing_required", "lease_generation", "attempt_id", "artifact_kind",
    "artifact_ref", "artifact_sha256"] else []

def Role.result : Role → String
  | .builder => "NATIVE_ONE_SHOT_BUILT"
  | .validator => "NATIVE_ONE_SHOT_VALIDATED"

/-- What a receipt must say of the run that replays it; its paths and the revision. -/
def Executor.checkReceipt (previous : Json) (fenced : Bool) :
    Except Raised (List String × String) := do
  let same ← orError (previous.sameKeys? (receiptFields fenced))
  need same "receipt_mismatch"
  let field := fun key => get previous key
  let contract ← i.descriptor.contractSha256 it
  need ((← field "schema_version").scalarEq (.int (if fenced then 2 else 1)) &&
    (← field "manifest_sha256").isStr (digest it i.raw) &&
    (← field "task_id").isStr i.manifest.taskId && (← field "role").isStr i.role.text &&
    (← field "worker_id").isStr i.workerId && (← field "adapter_contract_sha256").isStr contract &&
    (← field "result").isStr i.role.result && (← field "workspace_id").isStr (x.workspaceId it) &&
    (← field "session_id").isStr x.boundary.sessionId &&
    (← field "correlation_id").isStr x.boundary.correlationId &&
    (← field "gateway_verified").isTrue && (← field "replayed").isFalse &&
    (← field "evidence_sha256").isText isSha256) "receipt_mismatch"
  let paths ← (match (← field "changed_paths").texts? with
    | some paths => pure paths
    | none => throw (.blocked [.str "receipt_mismatch"]))
  let invoked ← (match (← field "invoked_commands").texts? with
    | some invoked => pure invoked
    | none => throw (.blocked [.str "receipt_mismatch"]))
  let commands ← i.descriptor.commandsFor i.role
  need ((∀ path ∈ paths, path ∈ i.descriptor.allowedPaths) ∧ paths.Nodup ∧
    Json.sameSet invoked commands ∧ invoked.length = commands.length) "receipt_mismatch"
  let produced ← needText (← field "produced_sha") isSha40 "receipt_produced_sha"
  pure (paths, produced)

/-- The state of the task that a receipt is replayed in. -/
def Executor.checkCanonical (task : Json) (produced : String) : Except Raised Unit := do
  let expected := match i.role with
    | .validator => ["completed"]
    | .builder => ["validating", "completed"]
  let inState ← orError ((← get task "state").inTexts? expected)
  need (inState && (← get task "produced_sha").isStr produced) "receipt_canonical_state"

/-- The fence and the artifact of a receipt of a fenced task. -/
def Executor.checkFencedReceipt (previous task : Json) :
    Except Raised (Int × String × DurableArtifact) := do
  need (← get previous "fencing_required").isTrue "receipt_lease_stale"
  match ← get previous "lease_generation", ← get previous "attempt_id" with
  | .int generation, .str attemptId =>
    need (1 ≤ generation && (← get task "lease_generation").scalarEq (.int generation))
      "receipt_lease_stale"
    let artifact ← artifactFromCheckpoint previous
    pure (generation, attemptId, artifact)
  | _, _ => throw (.blocked [.str "receipt_lease_stale"])

/-- The checkpoint that a receipt of a fenced task was written after. -/
def Executor.checkReceiptCheckpoint (checkpoint : Json) (generation : Int) (attemptId : String)
    (artifact : DurableArtifact) (produced : String) : Except Raised Unit := do
  need checkpoint.isObj "receipt_checkpoint_missing"
  validateCheckpointShape checkpoint i.manifest.taskId
  let (stage, next) := match i.role with
    | .builder => ("builder_result", "submit_validation")
    | .validator => ("validator_result", "complete")
  let ours := match i.role with
    | .builder => fieldIs checkpoint "effect_state" "confirmed" &&
      fieldIs checkpoint "effect_id" (artifactEffectId it i.manifest.taskId produced) &&
      fieldIs checkpoint "effect_result_ref" artifact.artifactRef
    | .validator => fieldIs checkpoint "effect_state" "none"
  need ((← get checkpoint "lease_generation").scalarEq (.int generation) &&
    fieldIs checkpoint "attempt_id" attemptId && fieldIs checkpoint "stage" stage &&
    fieldIs checkpoint "next_action" next &&
    fieldIs checkpoint "artifact_kind" artifact.artifactKind &&
    fieldIs checkpoint "artifact_ref" artifact.artifactRef &&
    fieldIs checkpoint "artifact_sha256" artifact.artifactSha256 && ours) "receipt_checkpoint_drift"

/-- The branch of `run` for a task that has a receipt. -/
def Executor.replay (task : Json) (fenced : Bool) : ExecutorProgram Json := do
  let isFile : Bool ← ask (.receiptIsFile i.manifest.taskId i.role)
  need isFile "receipt_invalid"
  let previous ← ask (.readReceipt i.manifest.taskId i.role)
  let (paths, produced) ← x.checkReceipt it i previous fenced
  Executor.checkCanonical i task produced
  let held ← (if fenced then some <$> Executor.checkFencedReceipt previous task else pure none)
  ask (.validateReplay produced)
  let changed : List String ← ask (.changedPaths i.manifest.baseSha produced)
  need (paths = changed) "receipt_mismatch"
  match held with
  | none => pure ()
  | some (generation, attemptId, artifact) =>
    let checkpoint ← ask (.getLatestCheckpoint i.manifest.taskId)
    Executor.checkReceiptCheckpoint it i checkpoint generation attemptId artifact produced
    ask (.verify i.manifest produced artifact)
  match previous with
  | .obj fields => pure (.obj (assign fields "replayed" (.bool true)))
  | _ => .raise .error

/-! ### The claim -/

/-- The claim that the kind of the task calls for. -/
def Executor.claim (fenced : Bool) : ExecutorProgram Json :=
  if fenced then do
    need x.mutatesFenced "fenced_worker_api_unsupported"
    need x.preflights "durable_artifact_transport_invalid"
    onException (ask .preflight) fun _ =>
      .raise (.blocked [.str "durable_artifact_preflight_failed"])
    ask (.claimFencedExact i.workerId i.manifest.taskId x.boundary.correlationId)
  else ask (.claimExact i.workerId i.manifest.taskId x.boundary.correlationId)

/-- A lease that has passed the checks of `run`. -/
structure Held where
  claimedTask : Json
  token : String
  fence : Option Fence

/-- `expires.tzinfo is not None and expires > datetime.now(UTC)`. -/
def unexpired (expiresAt : Json) (now : Int) : Bool :=
  (expiresAt.str?.bind it.fromIso).any fun expires => match expires with
    | .naive => false
    | .aware micros => now < micros

/-- The checks on the reply to a claim. -/
def Input.readLease (fenced : Bool) (claim : Json) (now : Int) : Except Raised Held := do
  need (← get claim "claimed").isTrue "claim_unavailable"
  let claimedTask := (← get claim "task").orElse (.obj [])
  let lease := (← get claim "lease").orElse (.obj [])
  let token ← needText (← get lease "lease_token") (fun s => 16 ≤ s.length && s.length ≤ 128)
    "lease_invalid"
  need ((← get lease "task_id").isStr i.manifest.taskId &&
    (← get lease "worker_id").isStr i.workerId && (← get lease "role").isStr i.role.text &&
    unexpired it (← get lease "lease_expires_at") now) "lease_invalid"
  let claimedFenced ← fencingRequired claimedTask
  need (claimedFenced = fenced) "claimed_task_fencing_drift"
  let fence ← leaseFence fenced lease claimedTask
  pure ⟨claimedTask, token, fence⟩

/-- What a mutation of the claimed task presents. -/
def Input.credential (h : Held) : Credential :=
  ⟨i.manifest.taskId, i.workerId, h.token, h.fence.map Fence.generation, h.fence.map Fence.attemptId⟩

/-- The recovery context of a fenced claim. An unsafe one blocks the task. -/
def Executor.readRecovery (h : Held) (claim : Json) : ExecutorProgram (Option Json) :=
  match h.fence with
  | none => pure none
  | some fence =>
    onException (do
      let (latest, effects) ← recoveryContext (← get claim "recovery_context") i.manifest.taskId
        fence.generation
      validateRecoveryEffects latest effects
      pure latest) fun e => do
        attempt (ask (.block (i.credential h) x.boundary.correlationId "unsafe_recovery_context"))
        .raise e

/-- The task as the claim returns it is the task that was asked for. -/
def Input.sameTask (h : Held) : Except Raised Bool := do
  pure ((← get h.claimedTask "task_id").isStr i.manifest.taskId &&
    (← get h.claimedTask "repository").isStr i.manifest.repository &&
    (← get h.claimedTask "base_sha").isStr i.manifest.baseSha &&
    (← get h.claimedTask "state").isStr (match i.role with
      | .builder => "leased"
      | .validator => "validating") &&
    (← get h.claimedTask "leased_by").isStr i.workerId)

/-! ### The builder -/

/-- A checkpoint of this run, with no artifact and no effect. -/
def Executor.checkpoint (h : Held) (f : Fence) (checkpointId : String) (sequence : Int)
    (stage nextAction : String) : RecordCheckpoint where
  taskId := i.manifest.taskId
  workerId := i.workerId
  leaseToken := h.token
  leaseGeneration := f.generation
  attemptId := f.attemptId
  checkpointId := checkpointId
  sequence := sequence
  stage := stage
  nextAction := nextAction
  correlationId := x.boundary.correlationId
  artifactKind := none
  artifactRef := none
  artifactSha256 := none
  effectId := none
  effectState := "none"
  effectResultRef := none

def RecordCheckpoint.withArtifact (a : RecordCheckpoint) (artifact : DurableArtifact) :
    RecordCheckpoint :=
  { a with
    artifactKind := some artifact.artifactKind, artifactRef := some artifact.artifactRef
    artifactSha256 := some artifact.artifactSha256 }

/-- The checkpoint that announces the publication of the artifact. -/
def Executor.pendingCheckpoint (h : Held) (f : Fence) (effectId : String) : RecordCheckpoint :=
  { x.checkpoint i h f (checkpointIdOf it f.attemptId .builder "artifact-pending") 1
      "artifact_publish" "publish_artifact" with
    effectId := some effectId, effectState := "pending" }

/-- The checkpoint of a publication that may have happened. -/
def Executor.unknownCheckpoint (h : Held) (f : Fence) (effectId : String) : RecordCheckpoint :=
  { x.checkpoint i h f (checkpointIdOf it f.attemptId .builder "artifact-unknown") 2
      "artifact_publish" "reconcile_artifact" with
    effectId := some effectId, effectState := "unknown" }

/-- The checkpoint of a published artifact. -/
def Executor.builtCheckpoint (h : Held) (f : Fence) (resumed : Bool) (effectId : String)
    (artifact : DurableArtifact) : RecordCheckpoint :=
  { (x.checkpoint i h f (checkpointIdOf it f.attemptId .builder "result")
      (if resumed then 1 else 2) "builder_result" "submit_validation").withArtifact artifact with
    effectId := some effectId, effectState := "confirmed"
    effectResultRef := some artifact.artifactRef }

/-- The checkpoint of a validated artifact. -/
def Executor.validatedCheckpoint (h : Held) (f : Fence) (artifact : DurableArtifact) :
    RecordCheckpoint :=
  (x.checkpoint i h f (checkpointIdOf it f.attemptId .validator "result") 1
    "validator_result" "complete").withArtifact artifact

/-- The publication between its two checkpoints. A failure on the way leaves it unknown:
it is neither tried again nor reported as failed. -/
def Executor.publishArtifact (h : Held) (f : Fence) (effectId : String) (result : AdapterResult) :
    ExecutorProgram DurableArtifact := do
  ask (.recordCheckpoint (x.pendingCheckpoint it i h f effectId))
  onException (do
    let published : Published ← ask (.publish i.manifest f effectId result)
    let artifact ← DurableArtifact.parse (match published with
      | .artifact a => .obj a.checkpointFields
      | .other raw => raw)
    ask (.verify i.manifest result.producedSha artifact)
    pure artifact) fun _ => do
      attempt (ask (.recordCheckpoint (x.unknownCheckpoint it i h f effectId)))
      attempt (ask (.block (i.credential h) x.boundary.correlationId "artifact_publish_ambiguous"))
      .raise (.blocked [.str "artifact_publish_ambiguous"])

/-- The result of the builder: recovered from the artifact of an earlier attempt, or built
with the commands of the adapter. -/
def Executor.produce (latest : Option Json) :
    ExecutorProgram (AdapterResult × List String × Option DurableArtifact) :=
  match latest with
  | some checkpoint => do
    need (resumable checkpoint) "fenced_resume_checkpoint_unsupported"
    let artifact ← artifactFromCheckpoint checkpoint
    let recovered : Option AdapterResult ← ask (.materialize i.manifest artifact)
    let result ← validateRecoveredResult recovered i.descriptor
    pure (result, [], some artifact)
  | none => do
    let reply : AdapterReply ← ask .build
    let result ← validateResult reply.result reply.invoked i.descriptor i.role
    pure (result, reply.invoked, none)

/-- The worktree holds what the result says, and every command was invoked. -/
def Executor.inspect (latest : Option Json) (result : AdapterResult) (invoked : List String) :
    ExecutorProgram Unit := do
  let head : String ← ask .head
  need (head = result.producedSha) "builder_produced_sha_drift"
  let status : String ← ask .status
  need (status = "") "builder_workspace_dirty"
  let changed : List String ← ask (.changedPaths i.manifest.baseSha result.producedSha)
  need (changed = result.changedPaths) "builder_diff_mismatch"
  if latest.isNone then
    let commands ← i.descriptor.commandsFor i.role
    need (Json.sameSet invoked commands) "required_command_missing"

/-- The checkpoints and the publication of a fenced builder. -/
def Executor.secureArtifact (h : Held) (f : Fence) (latest : Option Json) (result : AdapterResult)
    (recovered : Option DurableArtifact) : ExecutorProgram DurableArtifact := do
  let effectId := artifactEffectId it i.manifest.taskId result.producedSha
  need (latest.all fun checkpoint => fieldIs checkpoint "effect_id" effectId)
    "artifact_effect_identity_drift"
  let artifact ← match recovered with
    | none => x.publishArtifact it i h f effectId result
    | some artifact => do
      ask (.verify i.manifest result.producedSha artifact)
      pure artifact
  ask (.recordCheckpoint (x.builtCheckpoint it i h f latest.isSome effectId artifact))
  pure artifact

/-- The builder branch of `run`. -/
def Executor.buildTask (h : Held) (latest : Option Json) :
    ExecutorProgram (AdapterResult × Option DurableArtifact) := do
  ask (.start (i.credential h) x.boundary.correlationId)
  let (result, invoked, recovered) ← Executor.produce i latest
  Executor.inspect i latest result invoked
  let artifact ← match h.fence with
    | none => pure none
    | some f => some <$> x.secureArtifact it i h f latest result recovered
  ask (.submitValidation (i.credential h) result.producedSha x.boundary.correlationId)
  pure (result, artifact)

/-! ### The validator -/

/-- The artifact that a fenced validator verifies. -/
def Executor.verifyArtifact (latest : Option Json) (produced : String) :
    ExecutorProgram DurableArtifact :=
  match latest with
  | none => .raise (.blocked [.str "validator_artifact_checkpoint_missing"])
  | some checkpoint => do
    need (resumable checkpoint) "validator_artifact_checkpoint_missing"
    let artifact ← artifactFromCheckpoint checkpoint
    ask (.verify i.manifest produced artifact)
    pure artifact

/-- The validator branch of `run`. -/
def Executor.validateTask (h : Held) (latest : Option Json) :
    ExecutorProgram (AdapterResult × Option DurableArtifact) := do
  let produced ← needText (← get h.claimedTask "produced_sha") isSha40 "validation_sha_missing"
  need (i.manifest.workspaceSha = produced) "validator_workspace_sha_drift"
  let artifact ← (if h.fence.isSome then some <$> Executor.verifyArtifact i latest produced
    else pure none)
  let beforeHead : String ← ask .head
  let beforeStatus : String ← ask .status
  let reply : AdapterReply ← ask (.validate produced)
  let result ← validateResult reply.result reply.invoked i.descriptor i.role
  let head : String ← ask .head
  let status : String ← ask .status
  need (result.producedSha = produced ∧ head = beforeHead ∧ beforeHead = produced ∧
    status = beforeStatus ∧ beforeStatus = "") "validator_sha_drift"
  let commands ← i.descriptor.commandsFor i.role
  need (Json.sameSet reply.invoked commands) "required_command_missing"
  match h.fence, artifact with
  | some f, some artifact =>
    ask (.recordCheckpoint (x.validatedCheckpoint it i h f artifact))
  | _, _ => pure ()
  ask (.complete (i.credential h) x.boundary.correlationId)
  pure (result, artifact)

/-! ### Failures -/

/-- The closed codes that a failure reports. -/
def closedCodes : List String :=
  ["adapter_result_sha", "adapter_result_paths", "adapter_result_commands",
    "adapter_result_evidence", "builder_produced_sha_drift", "builder_workspace_dirty",
    "builder_diff_mismatch", "required_command_missing", "validation_sha_missing",
    "validator_workspace_sha_drift", "validator_sha_drift", "command_not_allowlisted",
    "artifact_publish_ambiguous"]

/-- `exc.args[0] if isinstance(exc, NativeExecutorBlocked) else None`. -/
def Raised.candidate : Raised → Except Raised Json
  | .blocked (code :: _) => .ok code
  | .blocked [] => .error .error
  | _ => .ok .null

/-- The handler of the two branches. It reports the failure, unless a publication may have
happened. -/
def Executor.reportFailure {α : Type} (h : Held) (e : Raised) : ExecutorProgram α := do
  let candidate ← e.candidate
  let closed ← orError (candidate.inTexts? closedCodes)
  let reason := match candidate with
    | .str code => if closed then code else "adapter_failed"
    | _ => "adapter_failed"
  let failRejected ← (if candidate.isStr "artifact_publish_ambiguous" then pure false
    else onException (do
      ask (.fail (i.credential h) x.boundary.correlationId reason)
      pure false) fun _ => pure true)
  if failRejected && !candidate.isNull then .raise e
  else if closed then .raise e
  else .raise (.blocked [.str "adapter_failed"])

/-! ### The run -/

/-- The receipt of a finished run. -/
def Executor.receipt (h : Held) (contract : String) (result : AdapterResult)
    (artifact : Option DurableArtifact) : Json :=
  .obj ([
    ("schema_version", .int (if h.fence.isSome then 2 else 1)),
    ("result", .str i.role.result),
    ("task_id", .str i.manifest.taskId),
    ("role", .str i.role.text),
    ("worker_id", .str i.workerId),
    ("manifest_sha256", .str (digest it i.raw)),
    ("adapter_contract_sha256", .str contract),
    ("produced_sha", .str result.producedSha),
    ("evidence_sha256", .str result.evidenceSha256),
    ("changed_paths", texts result.changedPaths),
    ("invoked_commands", texts result.invokedCommands),
    ("session_id", .str x.boundary.sessionId),
    ("correlation_id", .str x.boundary.correlationId),
    ("gateway_verified", .bool true),
    ("replayed", .bool false),
    ("workspace_id", .str (x.workspaceId it))] ++
  match h.fence, artifact with
    | some f, some artifact => [
        ("fencing_required", .bool true),
        ("lease_generation", .int f.generation),
        ("attempt_id", .str f.attemptId)] ++ artifact.checkpointFields
    | _, _ => [])

/-- The branch of `run` for a task without a receipt. -/
def Executor.execute (fenced : Bool) : ExecutorProgram Json := do
  let claim ← x.claim i fenced
  let now : Int ← ask .now
  let h ← i.readLease it fenced claim now
  let latest ← x.readRecovery i h claim
  let same ← i.sameTask h
  if same then
    let (result, artifact) ← onException (match i.role with
      | .builder => x.buildTask it i h latest
      | .validator => x.validateTask it i h latest) fun e => x.reportFailure i h e
    let contract ← i.descriptor.contractSha256 it
    let receipt := x.receipt it i h contract result artifact
    ask (.writeReceipt i.manifest.taskId i.role receipt)
    pure receipt
  else do
    attempt (ask (.fail (i.credential h) x.boundary.correlationId "claimed_task_drift"))
    .raise (.blocked [.str "claimed_task_drift"])

/-- What `run` does while it has the lock of the task. -/
def Executor.locked : ExecutorProgram Json := do
  let hasReceipt : Bool ← ask (.receiptExists i.manifest.taskId i.role)
  if hasReceipt then pure () else x.prepare it i
  let (task, fenced) ← x.readTask i
  if hasReceipt then x.replay it i task fenced else x.execute it i fenced

/-- `NativeOneShotExecutor.run`. -/
def Executor.run (raw : Json) (role workerId : String) : ExecutorProgram Json := do
  let i ← x.readInput it raw role workerId
  ask (.acquire i.manifest.taskId i.role)
  (x.locked it i).andFinally (ask (.release i.manifest.taskId i.role))

end WorkerPool
