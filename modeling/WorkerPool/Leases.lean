import WorkerPool.Lib.Float64
import WorkerPool.Store

/-!
# Claims, leases and recovery

`claim_task` with the recovery passes it may run first, and the calls that a
worker makes under its lease.
-/

namespace WorkerPool

open Calendar PyText Transaction Transaction.Tx
open Table (first)

/-! ### Recovery -/

/-- `_quarantine`. -/
def quarantineRow (rt : Runtime) (row : Task) (reason stamp : String) : Body Unit :=
  write fun db => { db with
    quarantine := db.quarantine ++ [{
      taskId := row.taskId, idempotencyKey := row.idempotencyKey
      correlationId := row.correlationId, attemptCount := row.attemptCount
      reason := sanitize rt reason, quarantinedAt := stamp }] }

/-- `_end_attempt`: the first end and its reason stay. -/
def endAttempt (row : Task) (stamp reason : String) : Body Unit :=
  if truthy row.attemptId then
    write fun db => db.modifyAttempt (row.attemptId.getD "") fun a => { a with
      endedAt := a.endedAt.or (some stamp), endReason := a.endReason.or (some reason) }
  else pure ()

/-- Where a recovery pass sends a task, and why. -/
structure Verdict where
  state : TaskState
  blockedReason : Option String
  lastError : String

def effectReconciliationRequired : String := "effect_reconciliation_required"

def Verdict.unresolved : Verdict :=
  ⟨.blocked, some effectReconciliationRequired, effectReconciliationRequired⟩

/-- `"validating" if row["produced_sha"] else "queued"`. -/
def Task.resumeState (row : Task) : TaskState :=
  if truthy row.producedSha then .validating else .queued

/-- The statements both recovery passes end with. -/
def settle (row : Task) (stamp : String) (v : Verdict) : Body Unit := do
  endAttempt row stamp v.lastError
  updateTask row.taskId fun t => { t with
    state := v.state, leasedBy := none, leaseToken := none, leaseExpiresAt := none
    attemptId := none, blockedReason := v.blockedReason, lastError := some v.lastError
    updatedAt := stamp }

def recoverRow (rt : Runtime) (stamp : String) (row : Task) : Body Unit := do
  let unresolved ← read fun db => db.hasUnresolvedEffect row.taskId
  let verdict ←
    if row.fencingRequired && unresolved then pure Verdict.unresolved
    else if row.maxAttempts ≤ row.attemptCount then do
      quarantineRow rt row "lease_expired_max_attempts" stamp
      pure ⟨.failed, none, "lease_expired_max_attempts"⟩
    else pure ⟨row.resumeState, none, "lease_expired_recovered"⟩
  settle row stamp verdict

def Db.expiredRows (db : Db) (stamp : String) : List Task :=
  db.tasks.rows.filter fun t => t.state.active && t.leaseExpiresAt.any fun at_ => at_ ≤ stamp

/-- `_recover`. -/
def recover (rt : Runtime) (c : Call) : Body Nat := do
  let stamp := c.iso .recover
  let expired ← read fun db => db.expiredRows stamp
  let rows := c.rowOrder.arrange expired
  forEach rows () fun _ row => recoverRow rt stamp row
  pure rows.length

/-- `(later - earlier).total_seconds()` as a binary64 number, zero where it is negative. -/
def totalSeconds (earlier later : Instant) : Nat :=
  Float64.nearest (later.micros - earlier.micros) microsPerSecond

/-- `(self.clock() - parse_iso(…)).total_seconds() > self.heartbeat_ttl_seconds`. -/
def heartbeatStale (c : Call) (now : Instant) (heartbeat : Instant) : Bool :=
  c.store.heartbeatTtlSeconds * Float64.unit < totalSeconds heartbeat now

def Db.workerBusy (db : Db) (workerId : String) : Bool :=
  db.tasks.rows.any fun t => t.leasedBy == some workerId && t.state.active

/-- The affinity clause: no affinity at all, or one for this repository. -/
def Db.affine (db : Db) (workerId repository : String) : Bool :=
  (db.affinities.all fun a => a.workerId != workerId) ||
    db.affinities.any fun a => a.workerId == workerId && a.repository == repository

def workerIsAlternative (c : Call) (row : Task) (worker : Worker) : Body Bool := do
  let role := if truthy row.producedSha then Role.validator else Role.builder
  if some worker.workerId = row.leasedBy then pure false
  else if worker.role ≠ role ∨ worker.profile ≠ .normal then pure false
  else if ¬ worker.gatewayOk ∨ ¬ worker.stateValidated then pure false
  else if c.store.expectedRulesSha ≠ none ∧ worker.rulesSha ≠ c.store.expectedRulesSha then
    pure false
  else do
    let heartbeat ← parseStamp worker.lastHeartbeatAt
    if heartbeatStale c (c.clock (.alternative row.taskId worker.workerId)) heartbeat then
      pure false
    else do
      let busy ← read fun db => db.workerBusy worker.workerId
      let affine ← read fun db => db.affine worker.workerId row.repository
      pure (!busy && affine)

structure Stalled where
  rerouted : Nat
  blocked : Nat
  failed : Nat
  deriving DecidableEq

/-- The body of the loop of `_recover_stalled`. -/
def recoverStalledRow (rt : Runtime) (c : Call) (stamp : String) (workers : List Worker)
    (result : Stalled) (row : Task) : Body Stalled := do
  let unresolved ← read fun db => db.hasUnresolvedEffect row.taskId
  let (verdict, result) ←
    if row.fencingRequired && unresolved then
      pure (Verdict.unresolved, { result with blocked := result.blocked + 1 })
    else if row.maxAttempts ≤ row.attemptCount then do
      quarantineRow rt row "material_progress_timeout_max_attempts" stamp
      pure (⟨.failed, none, "material_progress_timeout_max_attempts"⟩,
        { result with failed := result.failed + 1 })
    else do
      let alternative ← forEach workers false fun found worker =>
        if found then pure true else workerIsAlternative c row worker
      if alternative then
        pure (⟨row.resumeState, none, "material_progress_timeout_rerouted"⟩,
          { result with rerouted := result.rerouted + 1 })
      else
        pure (⟨.blocked, some "material_progress_timeout_no_alternative",
          "material_progress_timeout_no_alternative"⟩,
          { result with blocked := result.blocked + 1 })
  settle row stamp verdict
  pure result

def Db.stalledRows (db : Db) (cutoff : String) : List Task :=
  db.tasks.rows.filter fun t => t.state.active && t.lastMaterialProgressAt ≤ cutoff

/-- `_recover_stalled`. -/
def recoverStalled (rt : Runtime) (c : Call) : Body Stalled := do
  let now := c.clock .stalled
  let cutoff ← shift now (-c.store.progressStallSeconds)
  let stalled ← read fun db => db.stalledRows (Calendar.iso cutoff)
  let workers ← read fun db => db.workers.rows
  forEach (c.rowOrder.arrange stalled) ⟨0, 0, 0⟩ fun result row =>
    recoverStalledRow rt c (Calendar.iso now) workers result row

def recoverExpiredLeases (rt : Runtime) (c : Call) : Body Nat := atomically (recover rt c)

def recoverStalledTasks (rt : Runtime) (c : Call) : Body Stalled := atomically (recoverStalled rt c)

/-- One lease and watchdog cycle in one transaction. -/
def reconcile (rt : Runtime) (c : Call) : Body (Nat × Stalled) :=
  atomically do
    let expired ← recover rt c
    let stalled ← recoverStalled rt c
    pure (expired, stalled)

/-! ### Claims -/

/-- `_ready`. -/
def ready (c : Call) (workerId : String) (role : Role) : Body Worker := do
  let found ← read fun db => db.workers.find? workerId
  let w ← unwrap found (.notFound ("worker não encontrado: " ++ workerId))
  require (w.role = role)
    (.conflict ("worker " ++ workerId ++ " não possui role " ++ role.text))
  require (w.profile = .normal)
    (.conflict ("worker " ++ workerId ++ " está em profile " ++ w.profile.text))
  require (w.gatewayOk ∧ w.stateValidated) (.conflict "worker não está governado/pronto")
  require (c.store.expectedRulesSha ≠ none → w.rulesSha = c.store.expectedRulesSha)
    (.conflict "worker rules_sha divergente")
  let heartbeat ← parseStamp w.lastHeartbeatAt
  require (heartbeatStale c (c.clock .ready) heartbeat = false)
    (.conflict "worker está offline/stale")
  let busy ← read fun db => db.workerBusy workerId
  require (busy = false) (.conflict "worker já possui task ativa")
  pure w

structure ClaimTask where
  workerId : String
  role : String
  correlationId : String
  leaseSeconds : Option Int
  onlyTaskId : Option String
  fencingRequired : Bool

structure Lease where
  taskId : String
  leaseToken : String
  workerId : String
  role : Role
  leaseExpiresAt : String
  leaseGeneration : Nat
  attemptId : String
  deriving DecidableEq

/-- `SELECT COUNT(*) … state IN ('leased','running','validating')` of a repository. -/
def Db.inFlight (db : Db) (repository : String) : Nat :=
  db.tasks.rows.countP fun t => t.repository = repository && t.state.active

/-- `tasks t JOIN repository_lanes r ON r.repository=t.repository`. -/
def Db.joinLanes (db : Db) : List (Task × Lane) :=
  db.tasks.rows.filterMap fun t => (db.lanes.find? t.repository).map fun r => (t, r)

def Db.builderEligible (db : Db) (a : ClaimTask) (tr : Task × Lane) : Bool :=
  tr.1.state == .queued && tr.1.fencingRequired == a.fencingRequired && tr.2.enabled &&
    db.affine a.workerId tr.1.repository && db.inFlight tr.1.repository < tr.2.maxInFlight &&
    (a.onlyTaskId.isNone || a.onlyTaskId == some tr.1.taskId)

def Db.validatorEligible (db : Db) (a : ClaimTask) (tr : Task × Lane) : Bool :=
  tr.1.state == .validating && tr.1.fencingRequired == a.fencingRequired &&
    tr.1.leasedBy.isNone && tr.1.producedSha.isSome &&
    (tr.1.builderWorkerId.isNone || tr.1.builderWorkerId != some a.workerId) &&
    db.affine a.workerId tr.1.repository &&
    (a.onlyTaskId.isNone || a.onlyTaskId == some tr.1.taskId)

/-- A `NULL` timestamp counts before every other. -/
def compareClaimed (a b : Option String) : Ordering :=
  (compare a.isSome.toNat b.isSome.toNat).then (compare (a.getD "") (b.getD ""))

/-- The `ORDER BY` of the builder's selection; ties fall to the older row. -/
def builderBefore (a b : Task × Lane) : Bool :=
  ((compare a.2.builderClaimCount b.2.builderClaimCount).then <|
    (compareClaimed a.2.lastBuilderClaimedAt b.2.lastBuilderClaimedAt).then <|
    (compare a.2.repository b.2.repository).then <|
    (compare a.1.priority b.1.priority).then (compare a.1.createdAt b.1.createdAt)) == .lt

/-- The `ORDER BY` of the validator's selection. -/
def validatorBefore (a b : Task × Lane) : Bool :=
  ((compare a.2.validatorClaimCount b.2.validatorClaimCount).then <|
    (compareClaimed a.2.lastValidatorClaimedAt b.2.lastValidatorClaimedAt).then <|
    (compare a.2.repository b.2.repository).then <|
    (compare a.1.priority b.1.priority).then (compare a.1.updatedAt b.1.updatedAt)) == .lt

def Db.selectForClaim (db : Db) (a : ClaimTask) : Role → Option Task
  | .builder => (first builderBefore (db.joinLanes.filter (db.builderEligible a))).map Prod.fst
  | .validator =>
    (first validatorBefore (db.joinLanes.filter (db.validatorEligible a))).map Prod.fst

/-- `wanted` and `next_state`. -/
def Role.wanted : Role → TaskState
  | .builder => .queued
  | .validator => .validating

def Role.nextState : Role → TaskState
  | .builder => .leased
  | .validator => .validating

def countClaim (role : Role) (stamp : String) (l : Lane) : Lane :=
  match role with
  | .builder => { l with
      lastBuilderClaimedAt := some stamp, builderClaimCount := l.builderClaimCount + 1
      updatedAt := stamp }
  | .validator => { l with
      lastValidatorClaimedAt := some stamp, validatorClaimCount := l.validatorClaimCount + 1
      updatedAt := stamp }

theorem countClaim_repository (role : Role) (stamp : String) (l : Lane) :
    (countClaim role stamp l).repository = l.repository := by
  cases role <;> rfl

/-- The statements of `claim_task` once a row is selected. -/
def grant (c : Call) (a : ClaimTask) (role : Role) (ttl : Int) (token attemptId : Uuid)
    (row : Task) : Body (Task × Lease) := do
  let stamp := c.iso .stamp
  let until_ ← shift (c.clock .now) ttl
  let expires := Calendar.iso until_
  let current ← read fun db => db.tasks.find? row.taskId
  require (current.any fun t => t.state == role.wanted && t.leasedBy.isNone)
    (.conflict "task adquirida concorrentemente")
  updateTask row.taskId fun t => { t with
    state := role.nextState, leasedBy := some a.workerId, leaseToken := some token.hex
    leaseExpiresAt := some expires, attemptCount := t.attemptCount + 1
    validatorWorkerId := if role = .validator then some a.workerId else row.validatorWorkerId
    leaseGeneration := t.leaseGeneration + 1, attemptId := some attemptId.hex
    correlationId := a.correlationId, updatedAt := stamp, lastMaterialProgressAt := stamp }
  write fun db => db.modifyLane row.repository (countClaim role stamp)
    (countClaim_repository role stamp)
  let claimed ← getTask row.taskId
  insertAttempt {
    attemptId := attemptId.hex, taskId := claimed.taskId
    leaseGeneration := claimed.leaseGeneration, workerId := a.workerId, role := role
    leaseStartedAt := stamp, leaseExpiresAt := expires, endedAt := none, endReason := none }
  pure (claimed, {
    taskId := claimed.taskId, leaseToken := token.hex, workerId := a.workerId, role := role
    leaseExpiresAt := expires, leaseGeneration := claimed.leaseGeneration
    attemptId := attemptId.hex })

/-- The recovery that only the general claim runs first. -/
def claimRecovery (rt : Runtime) (c : Call) (a : ClaimTask) : Body Unit :=
  if a.onlyTaskId.isNone then do
    let _ ← recover rt c
    let _ ← recoverStalled rt c
    pure ()
  else pure ()

def claimTask (rt : Runtime) (c : Call) (a : ClaimTask) (token attemptId : Uuid) :
    Body (Option (Task × Lease)) := do
  let ttl := orDefault a.leaseSeconds c.store.defaultLeaseSeconds
  let role ← unwrap (Role.ofText (rt.lower a.role)) (.value "role/lease inválido")
  require (1 ≤ ttl) (.value "role/lease inválido")
  require (∀ id ∈ a.onlyTaskId, isTaskId id = true) (.value "exact_task_id inválido")
  atomically do
    claimRecovery rt c a
    let _ ← ready c a.workerId role
    let selected ← read fun db => db.selectForClaim a role
    match selected with
    | none => pure none
    | some row => do
      let granted ← grant c a role ttl token attemptId row
      pure (some granted)

/-! ### Calls under a lease -/

/-- What a worker presents with a call on its task. -/
structure Credential where
  taskId : String
  workerId : String
  leaseToken : String
  leaseGeneration : Option Int
  attemptId : Option String
  deriving DecidableEq

/-- `_lease`. -/
def lease (c : Call) (p : Credential) (allowed : List TaskState) : Body Task := do
  let found ← read fun db => db.tasks.find? p.taskId
  let row ← unwrap found (.notFound ("task não encontrada: " ++ p.taskId))
  require (row.state ∈ allowed) (.conflict ("estado inválido: " ++ row.state.text))
  require (row.leasedBy = some p.workerId ∧ row.leaseToken = some p.leaseToken)
    (.conflict "lease inválido")
  require (row.fencingRequired → p.leaseGeneration ≠ none ∧ p.attemptId ≠ none)
    (.conflict "fence obrigatório")
  require (∀ g ∈ p.leaseGeneration, (row.leaseGeneration : Int) = g)
    (.conflict "lease_generation inválida")
  require (∀ a ∈ p.attemptId, row.attemptId = some a) (.conflict "attempt_id inválido")
  require (truthy row.leaseExpiresAt) (.conflict "lease expirado")
  let until_ ← parseStamp (row.leaseExpiresAt.getD "")
  require (c.clock .lease < until_) (.conflict "lease expirado")
  pure row

/-- `_require_resolved_effects`. -/
def requireResolvedEffects (row : Task) : Body Unit := do
  let unresolved ← read fun db => db.hasUnresolvedEffect row.taskId
  require (¬ (row.fencingRequired ∧ unresolved))
    (.conflict "efeito requer reconciliação antes da transição")

def renewLease (c : Call) (p : Credential) (correlationId : String) (leaseSeconds : Option Int) :
    Body Task := do
  atomically do
    let row ← lease c p TaskState.allActive
    let until_ ← shift (c.clock .renewed) (orDefault leaseSeconds c.store.defaultLeaseSeconds)
    let expires := Calendar.iso until_
    updateTask p.taskId fun t => { t with
      leaseExpiresAt := some expires, correlationId := correlationId, updatedAt := c.iso .stamp }
    if truthy row.attemptId then
      write fun db => db.modifyAttempt (row.attemptId.getD "") fun a => { a with
        leaseExpiresAt := expires }
    else pure ()
  getTask p.taskId

def startTask (c : Call) (p : Credential) (correlationId : String) : Body Task := do
  atomically do
    let _ ← lease c p [.leased]
    let worker ← getWorker p.workerId
    require (worker.role = .builder) (.conflict "somente Builder pode iniciar task")
    let stamp := c.iso .stamp
    updateTask p.taskId fun t => { t with
      state := .running, builderWorkerId := some p.workerId, correlationId := correlationId
      updatedAt := stamp, lastMaterialProgressAt := stamp }
  getTask p.taskId

def submitForValidation (rt : Runtime) (c : Call) (p : Credential) (producedSha : String)
    (correlationId : String) : Body Task := do
  let producedSha := rt.lower producedSha
  require (isSha40 producedSha) (.value "produced_sha inválido")
  atomically do
    let row ← lease c p [.running]
    require (row.builderWorkerId = some p.workerId) (.conflict "builder divergente")
    requireResolvedEffects row
    let stamp := c.iso .stamp
    endAttempt row stamp "validation_handoff"
    updateTask p.taskId fun t => { t with
      state := .validating, producedSha := some producedSha, leasedBy := none
      leaseToken := none, leaseExpiresAt := none, attemptId := none
      correlationId := correlationId, updatedAt := stamp, lastMaterialProgressAt := stamp }
  getTask p.taskId

def completeTask (c : Call) (p : Credential) (correlationId : String) : Body Task := do
  atomically do
    let row ← lease c p [.validating]
    let worker ← getWorker p.workerId
    require (worker.role = .validator ∧ row.builderWorkerId ≠ some p.workerId)
      (.conflict "Validator independente obrigatório")
    require (truthy row.producedSha) (.conflict "task sem produced_sha")
    requireResolvedEffects row
    let stamp := c.iso .stamp
    endAttempt row stamp "completed"
    updateTask p.taskId fun t => { t with
      state := .completed, leasedBy := none, leaseToken := none, leaseExpiresAt := none
      attemptId := none, correlationId := correlationId, updatedAt := stamp
      completedAt := some stamp, lastMaterialProgressAt := stamp }
  getTask p.taskId

/-- `sanitize(reason.strip()) or "worker_failure"`. -/
def failureReason (rt : Runtime) (reason : String) : String :=
  (orNone (sanitize rt (strip reason))).getD "worker_failure"

def failTask (rt : Runtime) (c : Call) (p : Credential) (correlationId reason : String) :
    Body Task := do
  let reason := failureReason rt reason
  let stamp := c.iso .stamp
  atomically do
    let row ← lease c p TaskState.allActive
    requireResolvedEffects row
    let state ← if row.maxAttempts ≤ row.attemptCount then do
        quarantineRow rt row reason stamp
        pure TaskState.failed
      else pure row.resumeState
    endAttempt row stamp "failed_attempt"
    updateTask p.taskId fun t => { t with
      state := state, leasedBy := none, leaseToken := none, leaseExpiresAt := none
      attemptId := none, lastError := some reason, correlationId := correlationId
      updatedAt := stamp }
  getTask p.taskId

def blockTask (rt : Runtime) (c : Call) (p : Credential) (correlationId reason : String) :
    Body Task := do
  let reason := sanitize rt (strip reason)
  require (reason ≠ "") (.value "reason obrigatório")
  atomically do
    let row ← lease c p TaskState.allActive
    let unresolved ← read fun db => db.hasUnresolvedEffect p.taskId
    let reason := if row.fencingRequired && unresolved then effectReconciliationRequired else reason
    let stamp := c.iso .stamp
    endAttempt row stamp "blocked"
    updateTask p.taskId fun t => { t with
      state := .blocked, leasedBy := none, leaseToken := none, leaseExpiresAt := none
      attemptId := none, blockedReason := some reason, correlationId := correlationId
      updatedAt := stamp, lastMaterialProgressAt := stamp }
  getTask p.taskId

end WorkerPool
