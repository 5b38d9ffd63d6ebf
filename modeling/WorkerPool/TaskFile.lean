import WorkerPool.Checkpoints

/-!
# The file of one task

What the database holds on one task: its row, its attempts, its checkpoints and
reconciliations, and its quarantine records. Each query of the effect ledger reads
one file only, and each statement writes one file only.
-/

namespace WorkerPool

open Transaction Transaction.Tx
open Table (first)

@[ext]
structure TaskFile where
  task : Option Task
  attempts : List Attempt
  checkpoints : List Checkpoint
  reconciliations : List Reconciliation
  quarantine : List Quarantine

def TaskFile.empty : TaskFile := ⟨none, [], [], [], []⟩

def Db.file (db : Db) (taskId : String) : TaskFile where
  task := db.tasks.find? taskId
  attempts := db.attempts.rows.filter fun a => a.taskId = taskId
  checkpoints := db.checkpoints.rows.filter fun c => c.taskId = taskId
  reconciliations := db.reconciliations.rows.filter fun r => r.taskId = taskId
  quarantine := db.quarantine.filter fun q => q.taskId = taskId

@[simp] theorem Db.file_empty (taskId : String) : Db.empty.file taskId = .empty := rfl

namespace TaskFile

/-- `_has_unresolved_effect`, on the rows of the task alone. -/
def unresolved (f : TaskFile) : Bool :=
  f.checkpoints.any fun c => unresolvedAt f.checkpoints f.reconciliations c

def unresolvedUnknown (f : TaskFile) (effectId : String) : Bool :=
  f.checkpoints.any fun c => c.effectId == some effectId && c.effectState == .unknown &&
    !f.reconciliations.any fun r => r.settles c

def latestOfEffect (f : TaskFile) (effectId : String) : Option Checkpoint :=
  first Checkpoint.later (f.checkpoints.filter fun c => c.effectId = some effectId)

def lastSequence (f : TaskFile) (leaseGeneration : Int) : Nat :=
  ((f.checkpoints.filter fun c => (c.leaseGeneration : Int) = leaseGeneration).map
    Checkpoint.sequence).foldl max 0

/-- The row of the task names an attempt of the task. -/
def Owned (f : TaskFile) : Prop :=
  ∀ t ∈ f.task, ∀ id ∈ t.attemptId, id ≠ "" ∧ ∃ a ∈ f.attempts, a.attemptId = id

end TaskFile

/-! ### Queries -/

/-- Reconciliations of other tasks settle nothing of this one. -/
theorem any_settles_file {rows : List Reconciliation} {taskId : String} {c : Checkpoint}
    (h : c.taskId = taskId) :
    ((rows.filter fun r => r.taskId = taskId).any fun r => r.settles c) =
      rows.any fun r => r.settles c := by
  rw [List.any_filter]
  refine congrArg rows.any (funext fun r => ?_)
  by_cases hr : r.taskId = taskId
  · simp [hr]
  · simp [Reconciliation.settles, h, hr]

theorem unresolvedAt_file {checkpoints : List Checkpoint} {rows : List Reconciliation}
    {taskId : String} {c : Checkpoint} (h : c.taskId = taskId) :
    unresolvedAt (checkpoints.filter fun d => d.taskId = taskId)
        (rows.filter fun r => r.taskId = taskId) c =
      unresolvedAt checkpoints rows c := by
  have later : ((checkpoints.filter fun d => d.taskId = taskId).any fun d =>
      d.taskId == c.taskId && d.effectId == c.effectId && d.later c) =
      checkpoints.any fun d => d.taskId == c.taskId && d.effectId == c.effectId && d.later c := by
    rw [List.any_filter]
    refine congrArg checkpoints.any (funext fun d => ?_)
    by_cases hd : d.taskId = taskId
    · simp [hd]
    · simp [h, hd]
  unfold unresolvedAt
  rw [any_settles_file h, later]

theorem Db.hasUnresolvedEffect_file (db : Db) (taskId : String) :
    db.hasUnresolvedEffect taskId = (db.file taskId).unresolved := by
  unfold Db.hasUnresolvedEffect TaskFile.unresolved Db.file
  rw [List.any_filter]
  refine congrArg db.checkpoints.rows.any (funext fun c => ?_)
  by_cases hc : c.taskId = taskId
  · simp [hc, unresolvedAt_file hc]
  · simp [hc]

theorem Db.hasUnresolvedUnknown_file (db : Db) (taskId effectId : String) :
    db.hasUnresolvedUnknown taskId effectId = (db.file taskId).unresolvedUnknown effectId := by
  unfold Db.hasUnresolvedUnknown TaskFile.unresolvedUnknown Db.file
  rw [List.any_filter]
  refine congrArg db.checkpoints.rows.any (funext fun c => ?_)
  by_cases hc : c.taskId = taskId
  · simp [hc, any_settles_file hc]
  · simp [hc]

theorem Db.latestOfEffect_file (db : Db) (taskId effectId : String) :
    db.latestOfEffect taskId effectId = (db.file taskId).latestOfEffect effectId := by
  unfold Db.latestOfEffect TaskFile.latestOfEffect Db.file
  rw [List.filter_filter]
  exact congrArg _ (List.filter_congr fun c _ => Bool.and_comm _ _)

theorem Db.lastSequence_file (db : Db) (taskId : String) (leaseGeneration : Int) :
    db.lastSequence taskId leaseGeneration = (db.file taskId).lastSequence leaseGeneration := by
  unfold Db.lastSequence TaskFile.lastSequence Db.file
  rw [List.filter_filter]
  congr 2
  exact List.filter_congr fun c _ => Bool.and_comm _ _

/-! ### Writes -/

section Writes

variable (db : Db) (taskId other : String)

theorem Db.file_modifyTask (f : Task → Task) (keeps : ∀ t, (f t).taskId = t.taskId) :
    (db.modifyTask taskId f keeps).file other =
      if other = taskId then { db.file other with task := (db.file other).task.map f }
      else db.file other := by
  have row := Table.find?_modify db.tasks taskId other f keeps
  by_cases h : other = taskId
  · simp only [h, ↓reduceIte] at row ⊢
    exact TaskFile.ext row rfl rfl rfl rfl
  · simp only [h, ↓reduceIte] at row ⊢
    exact TaskFile.ext row rfl rfl rfl rfl

theorem Db.file_modifyAttempt (attemptId : String) (f : Attempt → Attempt)
    (keeps : ∀ a, (f a).attemptId = a.attemptId) (sameTask : ∀ a, (f a).taskId = a.taskId) :
    (db.modifyAttempt attemptId f keeps).file other = { db.file other with
      attempts := (db.file other).attempts.map fun a => if a.attemptId = attemptId then f a else a } := by
  refine TaskFile.ext rfl ?_ rfl rfl rfl
  exact Table.filter_modify db.attempts attemptId f keeps _ fun a => by simp [sameTask]

theorem Db.file_quarantine (q : Quarantine) (h : q.taskId = taskId) :
    ({ db with quarantine := db.quarantine ++ [q] } : Db).file other =
      if other = taskId then { db.file other with quarantine := (db.file other).quarantine ++ [q] }
      else db.file other := by
  by_cases e : other = taskId
  · simp [Db.file, List.filter_append, h, e]
  · have e' : ¬ taskId = other := fun s => e s.symm
    simp [Db.file, List.filter_append, h, e, e']

theorem Db.file_insertTask {tasks} {t : Task} (h : db.tasks.insert? t = some tasks) :
    ({ db with tasks := tasks } : Db).file other =
      if other = t.taskId then { db.file other with task := some t } else db.file other := by
  have row := Table.find?_insert h other
  by_cases e : other = t.taskId
  · simp only [e, ↓reduceIte] at row ⊢
    exact TaskFile.ext row rfl rfl rfl rfl
  · simp only [e, ↓reduceIte] at row ⊢
    exact TaskFile.ext row rfl rfl rfl rfl

theorem Db.file_insertAttempt {attempts} {a : Attempt}
    (h : db.attempts.insert? a = some attempts) :
    ({ db with attempts := attempts } : Db).file other =
      if other = a.taskId then { db.file other with attempts := (db.file other).attempts ++ [a] }
      else db.file other := by
  obtain ⟨-, rows⟩ := Table.insert?_eq_some_iff.mp h
  by_cases e : other = a.taskId
  · simp [Db.file, rows, List.filter_append, e]
  · have e' : ¬ a.taskId = other := fun s => e s.symm
    simp [Db.file, rows, List.filter_append, e, e']

theorem Db.file_insertCheckpoint {checkpoints} {c : Checkpoint}
    (h : db.checkpoints.insert? c = some checkpoints) :
    ({ db with checkpoints := checkpoints } : Db).file other =
      if other = c.taskId then
        { db.file other with checkpoints := (db.file other).checkpoints ++ [c] }
      else db.file other := by
  obtain ⟨-, rows⟩ := Table.insert?_eq_some_iff.mp h
  by_cases e : other = c.taskId
  · simp [Db.file, rows, List.filter_append, e]
  · have e' : ¬ c.taskId = other := fun s => e s.symm
    simp [Db.file, rows, List.filter_append, e, e']

theorem Db.file_insertReconciliation {reconciliations} {r : Reconciliation}
    (h : db.reconciliations.insert? r = some reconciliations) :
    ({ db with reconciliations := reconciliations } : Db).file other =
      if other = r.taskId then
        { db.file other with reconciliations := (db.file other).reconciliations ++ [r] }
      else db.file other := by
  obtain ⟨-, rows⟩ := Table.insert?_eq_some_iff.mp h
  by_cases e : other = r.taskId
  · simp [Db.file, rows, List.filter_append, e]
  · have e' : ¬ r.taskId = other := fun s => e s.symm
    simp [Db.file, rows, List.filter_append, e, e']

end Writes

end WorkerPool
