import WorkerPool.Effects
import WorkerPool.Naming

/-!
# The operations of `WorkerPoolStore`

Each operation is the text of its method: the checks before the transaction, the
transaction with its statements in order, and the row read back afterwards. The
unique indexes and triggers of the database are part of the statements.
-/

namespace WorkerPool

open Calendar PyText Transaction Transaction.Tx
open Table (first)

/-! ### Statements -/

/-- The trigger `guard_fenced_claim`. -/
def guardFencedClaim (old new : Task) : Bool :=
  old.fencingRequired && old.leasedBy.isNone && new.leasedBy.isSome &&
    (new.leaseGeneration != old.leaseGeneration + 1 || new.attemptId.isNone ||
      new.attemptId == some (old.attemptId.getD ""))

/-- The partial unique index `idx_worker_active`. -/
def Db.workerTaken (db : Db) (t : Task) : Bool :=
  t.leasedBy.isSome && t.state.active &&
    db.tasks.rows.any fun o => o.taskId != t.taskId && o.leasedBy == t.leasedBy && o.state.active

/-- The partial unique index `idx_workspace_active`. -/
def Db.workspaceTaken (db : Db) (t : Task) : Bool :=
  t.state.active &&
    db.tasks.rows.any fun o => o.taskId != t.taskId && o.repository == t.repository &&
      o.workspaceKey == t.workspaceKey && o.state.active

def Db.modifyTask (db : Db) (taskId : String) (f : Task → Task)
    (keeps : ∀ t, (f t).taskId = t.taskId := by intro; rfl) : Db :=
  { db with tasks := db.tasks.modify taskId f keeps }

/-- `UPDATE tasks SET … WHERE task_id=?`, with the trigger and the unique indexes. -/
def updateTask (taskId : String) (f : Task → Task)
    (keeps : ∀ t, (f t).taskId = t.taskId := by intro; rfl) : Body Unit := do
  let db ← read id
  let touched := (db.tasks.find? taskId).toList
  require (∀ old ∈ touched, guardFencedClaim old (f old) = false)
    (.integrity "fenced_claim_requires_generation_and_attempt")
  require (∀ old ∈ touched, db.workerTaken (f old) = false)
    (.integrity "UNIQUE constraint failed: index 'idx_worker_active'")
  require (∀ old ∈ touched, db.workspaceTaken (f old) = false)
    (.integrity "UNIQUE constraint failed: index 'idx_workspace_active'")
  write fun db => db.modifyTask taskId f keeps

def Db.modifyAttempt (db : Db) (attemptId : String) (f : Attempt → Attempt)
    (keeps : ∀ a, (f a).attemptId = a.attemptId := by intro; rfl) : Db :=
  { db with attempts := db.attempts.modify attemptId f keeps }

def Db.modifyLane (db : Db) (repository : String) (f : Lane → Lane)
    (keeps : ∀ l, (f l).repository = l.repository) : Db :=
  { db with lanes := db.lanes.modify repository f keeps }

/-- `INSERT INTO tasks`, with the trigger `guard_fenced_task_admission`. -/
def insertTask (t : Task) : Body Unit := do
  let db ← read id
  require (t.fencingRequired → db.cutover.enabled) (.integrity "fenced_cutover_not_enabled")
  require (∀ o ∈ db.tasks.rows, o.idempotencyKey ≠ t.idempotencyKey)
    (.integrity "UNIQUE constraint failed: tasks.idempotency_key")
  let tasks ← unwrap (db.tasks.insert? t)
    (.integrity "UNIQUE constraint failed: tasks.task_id")
  write fun db => { db with tasks := tasks }

def insertAttempt (a : Attempt) : Body Unit := do
  let db ← read id
  require (∀ o ∈ db.attempts.rows, ¬ (o.taskId = a.taskId ∧ o.leaseGeneration = a.leaseGeneration))
    (.integrity "UNIQUE constraint failed: task_attempts.task_id, task_attempts.lease_generation")
  let attempts ← unwrap (db.attempts.insert? a)
    (.integrity "UNIQUE constraint failed: task_attempts.attempt_id")
  write fun db => { db with attempts := attempts }

def insertCheckpoint (c : Checkpoint) : Body Unit := do
  let db ← read id
  require (1 ≤ c.leaseGeneration ∧ 1 ≤ c.sequence)
    (.integrity "CHECK constraint failed: task_checkpoints")
  require (db.attempts.find? c.attemptId ≠ none) (.integrity "FOREIGN KEY constraint failed")
  require (∀ o ∈ db.checkpoints.rows, ¬ (o.taskId = c.taskId ∧
      o.leaseGeneration = c.leaseGeneration ∧ o.sequence = c.sequence))
    (.integrity "UNIQUE constraint failed: task_checkpoints.sequence")
  let checkpoints ← unwrap (db.checkpoints.insert? c)
    (.integrity "UNIQUE constraint failed: task_checkpoints.checkpoint_id")
  write fun db => { db with checkpoints := checkpoints }

def insertReconciliation (r : Reconciliation) : Body Unit := do
  let db ← read id
  require (1 ≤ r.leaseGeneration) (.integrity "CHECK constraint failed: effect_reconciliations")
  let reconciliations ← unwrap (db.reconciliations.insert? r)
    (.integrity "UNIQUE constraint failed: effect_reconciliations")
  write fun db => { db with reconciliations := reconciliations }

/-- `_ensure_repository_lane`. -/
def ensureRepositoryLane (c : Call) (repository : String) : Body Unit :=
  write fun db => { db with
    lanes := db.lanes.insertOrIgnore {
      repository := repository, enabled := true, maxInFlight := 1, positive := by decide
      builderClaimCount := 0, validatorClaimCount := 0
      lastBuilderClaimedAt := none, lastValidatorClaimedAt := none
      updatedAt := c.iso (.lane repository) } }

def shift (t : Instant) (seconds : Int) : Body Instant := unwrap (t.shift? seconds) .overflow

def parseStamp (text : String) : Body Instant :=
  unwrap (parseIso text) (.value "Invalid isoformat string")

def ofExcept {α : Type} (e : Except PoolError α) : Body α :=
  match e with
  | .ok a => pure a
  | .error e => raise e

/-! ### Workers and lanes -/

def getWorker (workerId : String) : Body Worker := do
  let found ← read fun db => db.workers.find? workerId
  unwrap found (.notFound "registro não encontrado")

def getTask (taskId : String) : Body Task := do
  let found ← read fun db => db.tasks.find? taskId
  unwrap found (.notFound "registro não encontrado")

structure RegisterWorker where
  workerId : String
  host : String
  role : String
  correlationId : String
  profile : String
  capacityScore : Int
  controllerVersion : Option String
  rulesSha : Option String
  gatewayOk : Bool
  stateValidated : Bool
  worktreeRoot : Option String

def registerWorker (rt : Runtime) (c : Call) (a : RegisterWorker) : Body Worker := do
  require (strip a.workerId ≠ "" ∧ strip a.host ≠ "" ∧ strip a.correlationId ≠ "")
    (.value "worker_id, host e correlation_id são obrigatórios")
  let role ← unwrap (Role.ofText (rt.lower a.role)) (.value "role/profile inválido")
  let profile ← unwrap (Profile.ofText (rt.upper a.profile)) (.value "role/profile inválido")
  let rulesSha := orNone (rt.lower (strip (a.rulesSha.getD "")))
  require (∀ sha ∈ rulesSha, isSha40 sha = true) (.value "rules_sha inválido")
  atomically do
    write fun db => { db with
      workers := db.workers.upsert {
          workerId := strip a.workerId, host := strip a.host, role := role, profile := profile
          capacityScore := a.capacityScore, controllerVersion := a.controllerVersion
          rulesSha := rulesSha, gatewayOk := a.gatewayOk, stateValidated := a.stateValidated
          worktreeRoot := a.worktreeRoot, registeredAt := c.iso .stamp
          lastHeartbeatAt := c.iso .stamp, correlationId := strip a.correlationId }
        fun w => { w with
          host := strip a.host, role := role, profile := profile
          capacityScore := a.capacityScore, controllerVersion := a.controllerVersion
          rulesSha := rulesSha, gatewayOk := a.gatewayOk, stateValidated := a.stateValidated
          worktreeRoot := a.worktreeRoot, lastHeartbeatAt := c.iso .stamp
          correlationId := strip a.correlationId } }
  getWorker a.workerId

structure Heartbeat where
  workerId : String
  correlationId : String
  profile : Option String
  gatewayOk : Option Bool
  stateValidated : Option Bool

/-- `(profile or current["profile"]).upper()`. -/
def heartbeatProfile (rt : Runtime) (requested : Option String) (current : Profile) :
    Option Profile :=
  match requested.bind orNone with
  | some text => Profile.ofText (rt.upper text)
  | none => some current

/-- The transaction of `heartbeat_worker`, on the worker row read before it. -/
def writeHeartbeat (c : Call) (a : Heartbeat) (current : Worker) (profile : Profile) : Body Unit :=
  write fun db => { db with
    workers := db.workers.modify a.workerId fun w => { w with
      profile := profile, lastHeartbeatAt := c.iso .stamp
      gatewayOk := a.gatewayOk.getD current.gatewayOk
      stateValidated := a.stateValidated.getD current.stateValidated
      correlationId := a.correlationId } }

def heartbeatWorker (rt : Runtime) (c : Call) (a : Heartbeat) : Body Worker := do
  let current ← getWorker a.workerId
  let profile ← unwrap (heartbeatProfile rt a.profile current.profile) (.value "profile inválido")
  atomically (writeHeartbeat c a current profile)
  getWorker a.workerId

def getRepository (repository : String) : Body Lane := do
  let repository ← ofExcept (validateRepository repository)
  let found ← read fun db => db.lanes.find? repository
  unwrap found (.notFound "registro não encontrado")

def configureRepository (c : Call) (repository : String) (enabled : Bool) (maxInFlight : Int) :
    Body Lane := do
  let repository ← ofExcept (validateRepository repository)
  if h : maxInFlight < 1 ∨ 100 < maxInFlight then raise (.value "max_in_flight inválido")
  else
    have positive : 1 ≤ maxInFlight.toNat := by omega
    atomically do
      write fun db => { db with
        lanes := db.lanes.upsert {
            repository := repository, enabled := enabled, maxInFlight := maxInFlight.toNat
            positive := positive, builderClaimCount := 0, validatorClaimCount := 0
            lastBuilderClaimedAt := none, lastValidatorClaimedAt := none
            updatedAt := c.iso .stamp }
          fun l => { l with
            enabled := enabled, maxInFlight := maxInFlight.toNat, positive := positive
            updatedAt := c.iso .stamp } }
    getRepository repository

/-- `sorted({…})`: the distinct names in order. -/
def insertName (name : String) : List String → List String
  | [] => [name]
  | q :: rest => if q = name then q :: rest else if q < name then q :: insertName name rest
    else name :: q :: rest

def replaceWorkerAffinities (c : Call) (workerId : String) (repositories : List String) :
    Body (List String) := do
  let _ ← getWorker workerId
  let valid ← ofExcept (repositories.mapM validateRepository)
  let normalized := valid.foldr insertName []
  atomically do
    write fun db => { db with affinities := db.affinities.filter fun a => a.workerId ≠ workerId }
    forEach normalized () fun _ repository => do
      ensureRepositoryLane c repository
      write fun db => { db with affinities := db.affinities ++ [⟨workerId, repository⟩] }
  pure normalized

def enableFencedCutover (c : Call) (correlationId : String)
    (legacyClaimersDrained sharedQueueExclusive : Bool) : Body Cutover := do
  require (strip correlationId ≠ "") (.value "correlation_id obrigatório")
  require (legacyClaimersDrained ∧ sharedQueueExclusive)
    (.value "cutover cercado exige fila exclusiva e claimers antigos drenados")
  atomically do
    write fun db => { db with cutover := {
      enabled := true
      enabledAt := db.cutover.enabledAt.or (some (c.iso .stamp))
      enabledByCorrelationId := db.cutover.enabledByCorrelationId.or (some (strip correlationId)) } }
  read (·.cutover)

/-! ### Admission -/

structure EnqueueTask where
  repository : String
  issueNumber : Int
  requestId : String
  correlationId : String
  priority : Int
  baseSha : Option String
  maxAttempts : Option Int
  targetBranch : Option String
  fencingRequired : Bool

/-- `value or default` for a count. -/
def orDefault (value : Option Int) (default : Nat) : Int :=
  match value with
  | some n => if n = 0 then default else n
  | none => default

/-- `task_branch` of `enqueue_task`. -/
def taskBranch (rt : Runtime) (a : EnqueueTask) : Except PoolError String :=
  match a.targetBranch with
  | some target => validateTargetBranch target
  | none => .ok (branchOf rt a.issueNumber a.requestId)

/-- The row that `enqueue_task` inserts. -/
def enqueuedRow (rt : Runtime) (a : EnqueueTask) (key branch : String) (baseSha : Option String)
    (attempts : Int) (stamp : String) : Task where
  taskId := taskIdOf key
  repository := strip a.repository
  issueNumber := a.issueNumber
  requestId := strip a.requestId
  idempotencyKey := key
  state := .queued
  priority := a.priority
  branch := branch
  workspaceKey := workspaceOf rt a.repository (taskIdOf key)
  baseSha := baseSha
  producedSha := none
  builderWorkerId := none
  validatorWorkerId := none
  leasedBy := none
  leaseToken := none
  leaseExpiresAt := none
  leaseGeneration := 0
  attemptId := none
  fencingRequired := a.fencingRequired
  attemptCount := 0
  maxAttempts := attempts.toNat
  blockedReason := none
  lastError := none
  correlationId := strip a.correlationId
  createdAt := stamp
  updatedAt := stamp
  lastMaterialProgressAt := stamp
  completedAt := none

def enqueueTask (rt : Runtime) (c : Call) (a : EnqueueTask) : Body (Task × Bool) := do
  require ('/' ∈ a.repository.toList ∧ 1 ≤ a.issueNumber ∧ strip a.requestId ≠ "" ∧
    strip a.correlationId ≠ "") (.value "identidade da task inválida")
  let baseSha := (a.baseSha.bind orNone).map rt.lower
  require (∀ sha ∈ baseSha, isSha40 sha = true) (.value "base_sha inválido")
  let branch ← ofExcept (taskBranch rt a)
  let key := identity rt a.repository a.issueNumber a.requestId
  let attempts := orDefault a.maxAttempts c.store.defaultMaxAttempts
  require (1 ≤ attempts) (.value "max_attempts inválido")
  let stamp := c.iso .stamp
  atomically do
    let enabled ← read fun db => db.cutover.enabled
    require (a.fencingRequired → enabled) (.conflict "fenced_cutover_not_enabled")
    ensureRepositoryLane c (strip a.repository)
    let found ← read fun db => db.tasks.rows.find? fun t => t.idempotencyKey = key
    match found with
    | some row =>
      require (a.targetBranch ≠ none → row.branch = branch)
        (.conflict "target_branch divergente no replay")
      require (row.fencingRequired = a.fencingRequired)
        (.conflict "fencing_required divergente no replay")
      pure (row, false)
    | none =>
      insertTask (enqueuedRow rt a key branch baseSha attempts stamp)
      let row ← getTask (taskIdOf key)
      pure (row, true)

end WorkerPool
