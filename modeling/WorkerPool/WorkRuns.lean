import WorkerPool.Lib.Threads
import WorkerPool.System

/-!
# Work runs

The facade of `WorkOrchestrator` over the pool: the table `work_runs` and its methods. Each
method reads and writes in several transactions, so each is a program that requests them one
by one.
-/

namespace WorkerPool

open Calendar PyText Transaction Transaction.Tx

inductive EvidenceState where
  | pending | verified
  deriving DecidableEq, Repr

inductive MergeState where
  | pending | ready | blocked | merged
  deriving DecidableEq, Repr

structure WorkRun where
  workId : String
  taskId : String
  mergePolicy : String
  evidenceState : EvidenceState
  mergeState : MergeState
  validationRunId : Option String
  validationSha : Option String
  evidenceReference : Option String
  independentReadback : Bool
  positiveControl : Bool
  negativeControl : Bool
  expectedHeadSha : Option String
  mergeCommitSha : Option String
  mergeReason : Option String
  correlationId : String
  createdAt : String
  updatedAt : String
  mergedAt : Option String
  deriving DecidableEq

/-- The database of the pool with the table `work_runs`. -/
structure WorkDb where
  pool : Pool
  runs : Table String WorkRun WorkRun.workId

/-! ### Transactions -/

/-- One transaction, or one `SELECT`, of a method. -/
inductive WorkRequest where
  | row (workId : String)
  | task (taskId : String)
  | enqueue (c : Call) (a : EnqueueTask)
  | create (workId taskId mergePolicy correlationId stamp : String)
  | verify (workId validationRunId validationSha evidenceReference correlationId stamp : String)
  | setMerge (workId : String) (state : MergeState) (mergeCommitSha mergeReason : Option String)
      (correlationId stamp : String) (mergedAt : Option String)

def WorkRequest.Reply : WorkRequest → Type
  | .row _ => Option WorkRun
  | .task _ => Task
  | .enqueue .. => Task × Bool
  | .create .. => Bool
  | .verify .. => Unit
  | .setMerge .. => Unit

/-- A transaction of the pool. -/
def onPool {α : Type} (m : Body α) : Tx WorkDb PoolError α := fun s =>
  ((m s.pool.db).1, { s with pool := { s.pool with db := (m s.pool.db).2 } })

/-- A row as `create_work` inserts it. -/
def createdRow (workId taskId mergePolicy correlationId stamp : String) : WorkRun where
  workId := workId
  taskId := taskId
  mergePolicy := mergePolicy
  evidenceState := .pending
  mergeState := .pending
  validationRunId := none
  validationSha := none
  evidenceReference := none
  independentReadback := false
  positiveControl := false
  negativeControl := false
  expectedHeadSha := none
  mergeCommitSha := none
  mergeReason := none
  correlationId := correlationId
  createdAt := stamp
  updatedAt := stamp
  mergedAt := none

/-- The transaction of `create_work`, with the unique index on `task_id`. -/
def createRow (workId taskId mergePolicy correlationId stamp : String) :
    Tx WorkDb PoolError Bool := atomically do
  let existing ← read fun s => s.runs.find? workId
  match existing with
  | some row =>
    require (row.taskId = taskId ∧ row.mergePolicy = mergePolicy)
      (.conflict "work divergente no replay")
    pure false
  | none =>
    let s ← read id
    require (∀ row ∈ s.runs.rows, row.taskId ≠ taskId)
      (.integrity "UNIQUE constraint failed: work_runs.task_id")
    let runs ← unwrap (s.runs.insert? (createdRow workId taskId mergePolicy correlationId stamp))
      (.integrity "UNIQUE constraint failed: work_runs.work_id")
    write fun s => { s with runs := runs }
    pure true

/-- `UPDATE work_runs SET … WHERE work_id=?`. -/
def updateRow (workId : String) (f : WorkRun → WorkRun)
    (keeps : ∀ r, (f r).workId = r.workId := by intro; rfl) : Tx WorkDb PoolError Unit :=
  write fun s => { s with runs := s.runs.modify workId f keeps }

/-- The columns that `record_evidence` sets, `WHERE … AND evidence_state='pending'`. -/
def WorkRun.verified (validationRunId validationSha evidenceReference correlationId stamp : String)
    (row : WorkRun) : WorkRun :=
  if row.evidenceState = .pending then { row with
    evidenceState := .verified, mergeState := .ready, validationRunId := some validationRunId
    validationSha := some validationSha, evidenceReference := some evidenceReference
    independentReadback := true, positiveControl := true, negativeControl := true
    expectedHeadSha := some validationSha, correlationId := correlationId, updatedAt := stamp }
  else row

theorem WorkRun.verified_workId (v s e c t : String) (row : WorkRun) :
    (row.verified v s e c t).workId = row.workId := by
  unfold WorkRun.verified
  split <;> rfl

/-- The columns that `record_merge_result` sets. -/
def WorkRun.withMerge (state : MergeState) (mergeCommitSha mergeReason : Option String)
    (correlationId stamp : String) (mergedAt : Option String) (row : WorkRun) : WorkRun :=
  { row with
    mergeState := state, mergeCommitSha := mergeCommitSha, mergeReason := mergeReason
    correlationId := correlationId, updatedAt := stamp, mergedAt := mergedAt }

def WorkRequest.run (rt : Runtime) : (q : WorkRequest) → Tx WorkDb PoolError q.Reply
  | .row workId => read fun s => s.runs.find? workId
  | .task taskId => onPool (getTask taskId)
  | .enqueue c a => onPool (enqueueTask rt c a)
  | .create workId taskId mergePolicy correlationId stamp =>
    createRow workId taskId mergePolicy correlationId stamp
  | .verify workId runId sha reference correlationId stamp =>
    updateRow workId (WorkRun.verified runId sha reference correlationId stamp)
      (WorkRun.verified_workId _ _ _ _ _)
  | .setMerge workId state commit reason correlationId stamp mergedAt =>
    updateRow workId (WorkRun.withMerge state commit reason correlationId stamp mergedAt)

/-! ### Methods -/

abbrev WorkProgram (α : Type) := Program PoolError WorkRequest WorkRequest.Reply α

namespace WorkProgram

open Program

def selectRow (workId : String) : WorkProgram (Option WorkRun) := request (WorkRequest.row workId)

def getTask (taskId : String) : WorkProgram Task := request (WorkRequest.task taskId)

def enqueueTask (c : Call) (a : EnqueueTask) : WorkProgram (Task × Bool) :=
  request (WorkRequest.enqueue c a)

def createRow (workId taskId mergePolicy correlationId stamp : String) : WorkProgram Bool :=
  request (WorkRequest.create workId taskId mergePolicy correlationId stamp)

def verify (workId validationRunId validationSha evidenceReference correlationId stamp : String) :
    WorkProgram Unit :=
  request (WorkRequest.verify workId validationRunId validationSha evidenceReference correlationId
    stamp)

def setMerge (workId : String) (state : MergeState) (mergeCommitSha mergeReason : Option String)
    (correlationId stamp : String) (mergedAt : Option String) : WorkProgram Unit :=
  request (WorkRequest.setMerge workId state mergeCommitSha mergeReason correlationId stamp mergedAt)

/-- `_row`. -/
def row (workId : String) : WorkProgram WorkRun := do
  match ← selectRow workId with
  | some row => pure row
  | none => raise (.notFound ("work não encontrado: " ++ workId))

end WorkProgram

/-- `_work_id`. -/
def workIdOf (t : Task) : String := "work-" ++ prefixOf 24 t.idempotencyKey

/-- `_public_task`: all but the lease token. -/
def Task.public (t : Task) : Task := { t with leaseToken := none }

/-- `_phase`. -/
def workPhase (t : Task) (row : WorkRun) : String :=
  if row.mergeState = .merged then "merged"
  else if row.mergeState = .blocked then "merge_blocked"
  else if row.evidenceState = .verified then "merge"
  else match t.state with
    | .queued => "queue"
    | .leased | .running => "worker"
    | .validating => "validator"
    | .completed => "evidence"
    | other => other.text

/-- `_view`. -/
structure WorkView where
  row : WorkRun
  task : Task
  phase : String
  deriving DecidableEq

def WorkProgram.view (row : WorkRun) : WorkProgram WorkView := do
  let task ← WorkProgram.getTask row.taskId
  pure ⟨row, task.public, workPhase task row⟩

def getWork (workId : String) : WorkProgram WorkView := do
  let row ← WorkProgram.row workId
  WorkProgram.view row

structure CreateWork where
  task : EnqueueTask
  mergePolicy : String

def createWork (c : Call) (a : CreateWork) : WorkProgram WorkView := do
  Program.need (a.mergePolicy = "governed") (.value "merge_policy inválida")
  let (task, _) ← WorkProgram.enqueueTask c a.task
  let workId := workIdOf task
  let _ ← WorkProgram.createRow workId task.taskId a.mergePolicy a.task.correlationId (c.iso .stamp)
  getWork workId

structure RecordEvidence where
  workId : String
  validationRunId : String
  validationSha : String
  evidenceReference : String
  independentReadback : Bool
  positiveControl : Bool
  negativeControl : Bool
  correlationId : String

def recordEvidence (rt : Runtime) (c : Call) (a : RecordEvidence) : WorkProgram WorkView := do
  let validationSha := rt.lower (strip a.validationSha)
  Program.need (isSha40 validationSha) (.value "validation_sha inválido")
  Program.need (strip a.validationRunId ≠ "" ∧ strip a.evidenceReference ≠ "")
    (.value "identidade da evidência inválida")
  Program.need (a.independentReadback ∧ a.positiveControl ∧ a.negativeControl)
    (.conflict "controles de evidência incompletos")
  let row ← WorkProgram.row a.workId
  let task ← WorkProgram.getTask row.taskId
  Program.need (task.state = .completed ∧ truthy task.producedSha)
    (.conflict "task ainda não está validada")
  Program.need (validationSha = rt.lower (task.producedSha.getD ""))
    (.conflict "validation_sha divergente do produced_sha")
  if row.evidenceState = .verified then do
    Program.need (row.validationRunId = some (strip a.validationRunId) ∧
        row.validationSha = some validationSha ∧
        row.evidenceReference = some (strip a.evidenceReference) ∧
        row.independentReadback = a.independentReadback ∧
        row.positiveControl = a.positiveControl ∧ row.negativeControl = a.negativeControl)
      (.conflict "evidência divergente no replay")
    WorkProgram.view row
  else do
    WorkProgram.verify a.workId (strip a.validationRunId) validationSha
      (strip a.evidenceReference) (strip a.correlationId) (c.iso .stamp)
    getWork a.workId

structure RecordMergeResult where
  workId : String
  expectedHeadSha : String
  merged : Bool
  correlationId : String
  mergeCommitSha : Option String
  reason : Option String

namespace RecordMergeResult

/-- `normalized_commit`. -/
def commit (rt : Runtime) (a : RecordMergeResult) : Option String :=
  orNone (rt.lower (strip (a.mergeCommitSha.getD "")))

/-- `normalized_reason`. -/
def normalizedReason (rt : Runtime) (a : RecordMergeResult) : Option String :=
  orNone (sanitize rt (strip (a.reason.getD "")))

/-- `next_state`. -/
def nextState (rt : Runtime) (a : RecordMergeResult) : Except PoolError MergeState :=
  if a.merged then
    if (a.commit rt).any isSha40 then .ok .merged
    else .error (.value "merge_commit_sha obrigatório e válido quando merged=true")
  else if a.commit rt ≠ none then
    .error (.value "merge_commit_sha deve ser omitido quando merged=false")
  else if a.normalizedReason rt = none then
    .error (.value "reason obrigatório quando merged=false")
  else .ok .blocked

end RecordMergeResult

def recordMergeResult (rt : Runtime) (c : Call) (a : RecordMergeResult) :
    WorkProgram WorkView := do
  let expectedHeadSha := rt.lower (strip a.expectedHeadSha)
  Program.need (isSha40 expectedHeadSha) (.value "expected_head_sha inválido")
  let row ← WorkProgram.row a.workId
  let task ← WorkProgram.getTask row.taskId
  let producedSha := rt.lower (task.producedSha.getD "")
  Program.need (row.evidenceState = .verified ∧ row.mergeState ≠ .pending)
    (.conflict "evidência verificada obrigatória antes do merge")
  Program.need (expectedHeadSha = producedSha ∧ row.expectedHeadSha = some expectedHeadSha)
    (.conflict "expected_head_sha divergente da evidência")
  let nextState ← Program.ofExcept (a.nextState rt)
  if row.mergeState = .merged then do
    Program.need (a.merged ∧ row.mergeCommitSha = a.commit rt)
      (.conflict "resultado de merge divergente no replay")
    WorkProgram.view row
  else if row.mergeState = .blocked ∧ ¬ a.merged then do
    Program.need (row.mergeReason = a.normalizedReason rt)
      (.conflict "bloqueio de merge divergente no replay")
    WorkProgram.view row
  else do
    let stamp := c.iso .stamp
    WorkProgram.setMerge a.workId nextState (a.commit rt) (a.normalizedReason rt)
      (strip a.correlationId) stamp (if a.merged then some stamp else none)
    getWork a.workId

/-! ### Calls in flight -/

inductive WorkOp where
  | createWork (c : Call) (a : CreateWork)
  | getWork (workId : String)
  | recordEvidence (c : Call) (a : RecordEvidence)
  | recordMergeResult (c : Call) (a : RecordMergeResult)

def WorkOp.body (rt : Runtime) : WorkOp → WorkProgram WorkView
  | .createWork c a => WorkerPool.createWork c a
  | .getWork workId => WorkerPool.getWork workId
  | .recordEvidence c a => WorkerPool.recordEvidence rt c a
  | .recordMergeResult c a => WorkerPool.recordMergeResult rt c a

/-- The calls in flight over the database. -/
abbrev WorkWorld := Threads.World WorkDb PoolError WorkRequest WorkRequest.Reply WorkView WorkOp

abbrev WorkLabel := Threads.Label WorkOp (Call × Op)

/-- Any calls on work items, interleaved between their transactions with each other and with
every call of the pool. -/
def workSystem (rt : Runtime) : Transition.System WorkWorld WorkLabel :=
  Threads.system (fun s => s = ⟨.empty, .empty⟩) (WorkRequest.run rt) (WorkOp.body rt)
    fun s l t => (pool rt).step s.pool l t.pool ∧ t.runs = s.runs

end WorkerPool
