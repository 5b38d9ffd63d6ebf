import WorkerPool.Leases

/-!
# Checkpoints and the reconciliation of effects

`record_checkpoint`, the reads of a recovery, `reconcile_effect` and
`requeue_blocked`.
-/

namespace WorkerPool

open Calendar PyText Transaction Transaction.Tx

structure RecordCheckpoint where
  taskId : String
  workerId : String
  leaseToken : String
  leaseGeneration : Int
  attemptId : String
  checkpointId : String
  sequence : Int
  stage : String
  nextAction : String
  correlationId : String
  artifactKind : Option String
  artifactRef : Option String
  artifactSha256 : Option String
  effectId : Option String
  effectState : String
  effectResultRef : Option String

def RecordCheckpoint.credential (a : RecordCheckpoint) : Credential :=
  ⟨a.taskId, a.workerId, a.leaseToken, some a.leaseGeneration, some a.attemptId⟩

/-- `sanitize(value.strip()) if value else None`. -/
def sanitizeOptional (rt : Runtime) (value : Option String) : Option String :=
  (value.bind orNone).map fun s => sanitize rt (strip s)

/-- The checks of `record_checkpoint` before its transaction, and the content and
correlation id that they leave. -/
def checkpointContent (rt : Runtime) (a : RecordCheckpoint) :
    Except PoolError (CheckpointContent × String) := do
  if isSafeId a.checkpointId ≠ true then throw (.value "checkpoint_id inválido")
  if isSafeId a.stage ≠ true then throw (.value "stage inválido")
  if ¬ ∀ kind ∈ a.artifactKind, isSafeId kind = true then throw (.value "artifact_kind inválido")
  if ¬ ∀ id ∈ a.effectId, isSafeId id = true then throw (.value "effect_id inválido")
  let effectState ← match EffectState.ofText a.effectState with
    | some s => pure s
    | none => throw (.value "effect_state inválido")
  if (effectState = .none) ≠ (a.effectId = none) then
    throw (.value "effect_id incompatível com effect_state")
  if a.sequence < 1 then throw (.value "sequence inválida")
  let artifactSha256 := a.artifactSha256.map fun s => rt.lower (strip s)
  if ¬ ∀ sha ∈ artifactSha256, hexRun 64 sha = true then throw (.value "artifact_sha256 inválido")
  let content : CheckpointContent := {
    checkpointId := a.checkpointId, sequence := a.sequence, stage := strip a.stage
    artifactKind := a.artifactKind, artifactRef := sanitizeOptional rt a.artifactRef
    artifactSha256 := artifactSha256, nextAction := sanitize rt (strip a.nextAction)
    effectId := a.effectId, effectState := effectState
    effectResultRef := sanitizeOptional rt a.effectResultRef }
  if content.nextAction = "" ∨ strip a.correlationId = "" then
    throw (.value "checkpoint incompleto")
  if (effectState = .confirmed ∨ effectState = .notApplied) ∧
      truthy content.effectResultRef = false then
    throw (.value "effect_result_ref obrigatório para efeito resolvido")
  if effectState = .none ∧ content.effectResultRef ≠ none then
    throw (.value "effect_result_ref exige effect_id")
  pure (content, strip a.correlationId)

/-- The row that `record_checkpoint` inserts. -/
def checkpointRow (a : RecordCheckpoint) (content : CheckpointContent)
    (digest correlationId stamp : String) : Checkpoint where
  taskId := a.taskId
  checkpointId := content.checkpointId
  leaseGeneration := a.leaseGeneration.toNat
  attemptId := a.attemptId
  sequence := content.sequence.toNat
  stage := content.stage
  artifactKind := content.artifactKind
  artifactRef := content.artifactRef
  artifactSha256 := content.artifactSha256
  nextAction := content.nextAction
  effectId := content.effectId
  effectState := content.effectState
  effectResultRef := content.effectResultRef
  contentDigest := digest
  correlationId := correlationId
  createdAt := stamp

/-- The branch of `record_checkpoint` for a new checkpoint. -/
def appendCheckpoint (c : Call) (a : RecordCheckpoint) (content : CheckpointContent)
    (digest correlationId : String) : Body (Checkpoint × Bool) := do
  let inDoubt ← read fun db => a.effectId.any fun effectId =>
    db.hasUnresolvedUnknown a.taskId effectId
  require (inDoubt = false) (.conflict "efeito unknown exige reconciliação independente")
  let last ← read fun db => db.lastSequence a.taskId a.leaseGeneration
  require (a.sequence = last + 1) (.conflict "sequence de checkpoint inválida")
  let stamp := c.iso .stamp
  insertCheckpoint (checkpointRow a content digest correlationId stamp)
  updateTask a.taskId fun t => { t with
    lastMaterialProgressAt := stamp, correlationId := correlationId, updatedAt := stamp }
  let found ← read fun db => db.checkpoints.find? (a.taskId, content.checkpointId)
  let created ← unwrap found (.notFound "registro não encontrado")
  pure (created, true)

def recordCheckpoint (rt : Runtime) (c : Call) (a : RecordCheckpoint) :
    Body (Checkpoint × Bool) := do
  let (content, correlationId) ← ofExcept (checkpointContent rt a)
  let digest := contentDigest rt content.semantic
  atomically do
    let row ← lease c a.credential TaskState.allActive
    require row.fencingRequired (.conflict "checkpoint exige task cercada")
    let existing ← read fun db => db.checkpoints.find? (a.taskId, content.checkpointId)
    match existing with
    | some stored =>
      require (stored.contentDigest = digest) (.conflict "checkpoint divergente no replay")
      pure (stored, false)
    | none => appendCheckpoint c a content digest correlationId

/-- `get_latest_checkpoint`. -/
def getLatestCheckpoint (taskId : String) : Body (Option RecoveryRow) := do
  let found ← read fun db => db.tasks.find? taskId
  let _ ← unwrap found (.notFound ("task não encontrada: " ++ taskId))
  read fun db => (db.latestCheckpoint taskId).map db.recoveryRow

/-- `get_recovery_context`. -/
def getRecoveryContext (taskId : String) : Body RecoveryContext := do
  let _ ← getLatestCheckpoint taskId
  read fun db => db.recoveryContext taskId

structure ReconcileEffect where
  taskId : String
  effectId : String
  leaseGeneration : Int
  outcome : String
  readbackRef : String
  correlationId : String

/-- The branch of `reconcile_effect` for a new reconciliation. -/
def appendReconciliation (c : Call) (a : ReconcileEffect) (outcome : Outcome)
    (readbackRef digest : String) (task : Task) : Body (Reconciliation × Bool) := do
  require task.fencingRequired (.conflict "reconciliação exige task cercada")
  require (task.state = .blocked ∧ task.blockedReason = some effectReconciliationRequired)
    (.conflict "task não aguarda reconciliação de efeito")
  let latest ← read fun db => db.latestOfEffect a.taskId a.effectId
  let current ← unwrap (latest.filter fun c => c.effectState.undecided)
    (.conflict "efeito não está pendente de reconciliação")
  require ((current.leaseGeneration : Int) = a.leaseGeneration)
    (.conflict "lease_generation da reconciliação divergente")
  insertReconciliation {
    taskId := a.taskId, effectId := a.effectId, leaseGeneration := a.leaseGeneration.toNat
    outcome := outcome, readbackRef := readbackRef, contentDigest := digest
    correlationId := strip a.correlationId, createdAt := c.iso .stamp }
  let found ← read fun db =>
    db.reconciliations.find? (a.taskId, a.effectId, a.leaseGeneration.toNat)
  let created ← unwrap found (.notFound "registro não encontrado")
  pure (created, true)

def reconcileEffect (rt : Runtime) (c : Call) (a : ReconcileEffect) :
    Body (Reconciliation × Bool) := do
  require (isSafeId a.effectId) (.value "effect_id inválido")
  require (1 ≤ a.leaseGeneration) (.value "lease_generation inválida")
  let outcome ← unwrap (Outcome.ofText a.outcome) (.value "outcome de reconciliação inválido")
  let readbackRef := sanitize rt (strip a.readbackRef)
  require (readbackRef ≠ "" ∧ strip a.correlationId ≠ "") (.value "reconciliação incompleta")
  let digest := contentDigest rt
    (reconciliationSemantic a.effectId a.leaseGeneration outcome readbackRef)
  atomically do
    let found ← read fun db => db.tasks.find? a.taskId
    let task ← unwrap found (.notFound ("task não encontrada: " ++ a.taskId))
    let existing ← read fun db =>
      db.reconciliations.find? (a.taskId, a.effectId, a.leaseGeneration.toNat)
    match existing with
    | some stored =>
      require (stored.contentDigest = digest) (.conflict "reconciliação divergente no replay")
      pure (stored, false)
    | none => appendReconciliation c a outcome readbackRef digest task

def requeueBlocked (c : Call) (taskId correlationId : String) : Body Task := do
  atomically do
    let found ← read fun db => db.tasks.find? taskId
    let row ← unwrap found (.notFound ("task não encontrada: " ++ taskId))
    require (row.state = .blocked) (.conflict "somente task bloqueada pode ser reenfileirada")
    let unresolved ← read fun db => db.hasUnresolvedEffect taskId
    require (¬ (row.fencingRequired ∧ unresolved)) (.conflict "efeito requer reconciliação")
    let stamp := c.iso .stamp
    updateTask taskId fun t => { t with
      state := row.resumeState, blockedReason := none, correlationId := correlationId
      updatedAt := stamp, lastMaterialProgressAt := stamp }
  getTask taskId

end WorkerPool
