import WorkerPool.Schema

/-!
# Queries of the effect ledger

`_has_unresolved_effect` and the queries that pick the current checkpoint of a task
or of an effect, as the SQL states them over whole tables.
-/

namespace WorkerPool

open Table (first)

/-- `lease_generation DESC, sequence DESC`. -/
def Checkpoint.later (c d : Checkpoint) : Bool :=
  d.leaseGeneration < c.leaseGeneration ||
    (c.leaseGeneration == d.leaseGeneration && d.sequence < c.sequence)

/-- The join of a checkpoint with the reconciliation of its effect and generation. -/
def Reconciliation.settles (r : Reconciliation) (c : Checkpoint) : Bool :=
  r.taskId == c.taskId && some r.effectId == c.effectId &&
    r.leaseGeneration == c.leaseGeneration

/-- The `WHERE` clause of `_has_unresolved_effect`, for the row `current`. -/
def unresolvedAt (checkpoints : List Checkpoint) (reconciliations : List Reconciliation)
    (current : Checkpoint) : Bool :=
  current.effectId.isSome &&
    ((current.effectState == .unknown && !reconciliations.any fun r => r.settles current) ||
      (current.effectState == .pending && (!reconciliations.any fun r => r.settles current) &&
        !checkpoints.any fun later => later.taskId == current.taskId &&
          later.effectId == current.effectId && later.later current))

def Db.hasUnresolvedEffect (db : Db) (taskId : String) : Bool :=
  db.checkpoints.rows.any fun current =>
    current.taskId == taskId &&
      unresolvedAt db.checkpoints.rows db.reconciliations.rows current

/-- The guard of `record_checkpoint` against an effect left in doubt. -/
def Db.hasUnresolvedUnknown (db : Db) (taskId effectId : String) : Bool :=
  db.checkpoints.rows.any fun c =>
    c.taskId == taskId && c.effectId == some effectId && c.effectState == .unknown &&
      !db.reconciliations.rows.any fun r => r.settles c

def Db.latestCheckpoint (db : Db) (taskId : String) : Option Checkpoint :=
  first Checkpoint.later (db.checkpoints.rows.filter fun c => c.taskId = taskId)

def Db.latestOfEffect (db : Db) (taskId effectId : String) : Option Checkpoint :=
  first Checkpoint.later (db.checkpoints.rows.filter fun c =>
    c.taskId = taskId && c.effectId = some effectId)

/-- `MAX(sequence)` over one generation, with `or 0`. -/
def Db.lastSequence (db : Db) (taskId : String) (leaseGeneration : Int) : Nat :=
  ((db.checkpoints.rows.filter fun c =>
    c.taskId = taskId && (c.leaseGeneration : Int) = leaseGeneration).map
      Checkpoint.sequence).foldl max 0

/-- A checkpoint left joined with its reconciliation. -/
structure RecoveryRow where
  checkpoint : Checkpoint
  reconciliation : Option Reconciliation
  deriving DecidableEq

def Db.recoveryRow (db : Db) (c : Checkpoint) : RecoveryRow :=
  ⟨c, db.reconciliations.rows.find? fun r => r.settles c⟩

/-- The effects of `get_recovery_context`: for each effect its latest checkpoint. -/
def Db.recoveryEffects (db : Db) (taskId : String) : List RecoveryRow :=
  (db.checkpoints.rows.filter fun c =>
    c.taskId = taskId && c.effectId.isSome &&
      !db.checkpoints.rows.any fun later => later.taskId == c.taskId &&
        later.effectId == c.effectId && later.later c).map db.recoveryRow

structure RecoveryContext where
  latestCheckpoint : Option RecoveryRow
  effects : List RecoveryRow
  deriving DecidableEq

/-- The insertion of a row by the effect it belongs to. -/
def insertByEffect (row : RecoveryRow) : List RecoveryRow → List RecoveryRow
  | [] => [row]
  | q :: rest =>
    if q.checkpoint.effectId.getD "" < row.checkpoint.effectId.getD "" then
      q :: insertByEffect row rest
    else row :: q :: rest

/-- `get_recovery_context` on a task that exists; the effects come `ORDER BY effect_id`. -/
def Db.recoveryContext (db : Db) (taskId : String) : RecoveryContext where
  latestCheckpoint := (db.latestCheckpoint taskId).map db.recoveryRow
  effects := (db.recoveryEffects taskId).foldr insertByEffect []

end WorkerPool
