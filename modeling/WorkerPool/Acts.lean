import WorkerPool.TaskFile

/-!
# What can happen to a task

The acts on the file of one task, each with its guard: admission, the grant of a
lease, the calls under it, its release by the caller or by a recovery pass, the
reconciliation of an effect and the return of a blocked task to the queue. Every
statement about a task is proved act by act.
-/

namespace WorkerPool

open PyText

/-- A lease as `claim_task` grants it. -/
structure Grant where
  role : Role
  workerId : String
  leaseToken : String
  attemptId : String
  leaseExpiresAt : String
  correlationId : String
  stamp : String

/-- The columns that record a change without deciding any later one. -/
structure Trail where
  lastError : Option String
  correlationId : String
  updatedAt : String
  lastMaterialProgressAt : String
  completedAt : Option String

/-- What sets a release off. -/
inductive Cause where
  | caller (p : Credential)
  | expiry
  | watchdog

/-- What a release makes of the task. -/
inductive Ending where
  | handoff (producedSha : String)
  | completion
  | retry
  | failure
  | block (reason : String)

inductive Act where
  | enqueue (t : Task)
  | grant (g : Grant)
  | renew (p : Credential)
  | start (p : Credential)
  | release (cause : Cause) (e : Ending)
  | checkpoint (p : Credential) (c : Checkpoint)
  | reconcile (r : Reconciliation)
  | requeue

namespace Task

def marked (t : Task) (m : Trail) : Task := { t with
  lastError := m.lastError, correlationId := m.correlationId, updatedAt := m.updatedAt
  lastMaterialProgressAt := m.lastMaterialProgressAt, completedAt := m.completedAt }

/-- The lease is the one presented. -/
structure Presented (t : Task) (p : Credential) : Prop where
  worker : t.leasedBy = some p.workerId
  token : t.leaseToken = some p.leaseToken
  fence : t.fencingRequired = true → p.leaseGeneration ≠ none ∧ p.attemptId ≠ none
  generation : ∀ g ∈ p.leaseGeneration, (t.leaseGeneration : Int) = g
  attempt : ∀ a ∈ p.attemptId, t.attemptId = some a

/-- A task as `enqueue_task` admits it. -/
structure Admitted (t : Task) : Prop where
  state : t.state = .queued
  produced : t.producedSha = none
  builder : t.builderWorkerId = none
  validator : t.validatorWorkerId = none
  worker : t.leasedBy = none
  token : t.leaseToken = none
  expires : t.leaseExpiresAt = none
  attempt : t.attemptId = none
  reason : t.blockedReason = none
  generation : t.leaseGeneration = 0
  attempts : t.attemptCount = 0
  maxAttempts : 1 ≤ t.maxAttempts

end Task

def Grant.row (g : Grant) (t : Task) : Task := { t with
  state := g.role.nextState, leasedBy := some g.workerId, leaseToken := some g.leaseToken
  leaseExpiresAt := some g.leaseExpiresAt, attemptCount := t.attemptCount + 1
  validatorWorkerId := if g.role = .validator then some g.workerId else t.validatorWorkerId
  leaseGeneration := t.leaseGeneration + 1, attemptId := some g.attemptId
  correlationId := g.correlationId, updatedAt := g.stamp, lastMaterialProgressAt := g.stamp }

def Grant.attempt (g : Grant) (t : Task) : Attempt where
  attemptId := g.attemptId
  taskId := t.taskId
  leaseGeneration := t.leaseGeneration + 1
  workerId := g.workerId
  role := g.role
  leaseStartedAt := g.stamp
  leaseExpiresAt := g.leaseExpiresAt
  endedAt := none
  endReason := none

namespace Ending

def state (t : Task) : Ending → TaskState
  | .handoff _ => .validating
  | .completion => .completed
  | .retry => t.resumeState
  | .failure => .failed
  | .block _ => .blocked

def producedSha (t : Task) : Ending → Option String
  | .handoff sha => some sha
  | _ => t.producedSha

/-- A recovery pass writes the column in every case, a caller only to block. -/
def blockedReason (t : Task) : Cause → Ending → Option String
  | _, .block reason => some reason
  | .caller _, _ => t.blockedReason
  | _, _ => none

/-- The number of quarantine records. -/
def records : Ending → Nat
  | .failure => 1
  | _ => 0

end Ending

/-- The row of a task whose lease is given up. -/
def Task.released (t : Task) (cause : Cause) (e : Ending) (m : Trail) : Task :=
  ({ t with
    state := e.state t, producedSha := e.producedSha t, leasedBy := none, leaseToken := none
    leaseExpiresAt := none, attemptId := none
    blockedReason := e.blockedReason t cause } : Task).marked m

/-- `_end_attempt` on the attempts of one task. -/
def Attempt.closedBy (attemptId : Option String) (stamp reason : String) (a : Attempt) : Attempt :=
  if some a.attemptId = attemptId then { a with
    endedAt := a.endedAt.or (some stamp), endReason := a.endReason.or (some reason) }
  else a

/-- The second statement of `renew_lease` on the attempts of one task. -/
def Attempt.renewedTo (attemptId : Option String) (expires : String) (a : Attempt) : Attempt :=
  if some a.attemptId = attemptId then { a with leaseExpiresAt := expires } else a

def Cause.Fits (t : Task) : Cause → Prop
  | .caller p => t.Presented p
  | .expiry => t.leaseExpiresAt ≠ none
  | .watchdog => True

/-- A fenced task with an unresolved effect. -/
def TaskFile.InDoubt (f : TaskFile) (t : Task) : Prop :=
  t.fencingRequired = true ∧ f.unresolved = true

/-- The guards of each ending. -/
inductive Ends (f : TaskFile) (t : Task) : Cause → Ending → Prop
  | handoff {p sha} (running : t.state = .running) (builder : t.builderWorkerId = some p.workerId)
      (shape : isSha40 sha = true) (settled : ¬ f.InDoubt t) : Ends f t (.caller p) (.handoff sha)
  | completion {p} (validating : t.state = .validating)
      (independent : t.builderWorkerId ≠ some p.workerId)
      (produced : truthy t.producedSha = true) (settled : ¬ f.InDoubt t) :
      Ends f t (.caller p) .completion
  | retry {cause} (left : t.attemptCount < t.maxAttempts) (settled : ¬ f.InDoubt t) :
      Ends f t cause .retry
  | failure {cause} (exhausted : t.maxAttempts ≤ t.attemptCount) (settled : ¬ f.InDoubt t) :
      Ends f t cause .failure
  | block {cause reason} (named : f.InDoubt t → reason = effectReconciliationRequired) :
      Ends f t cause (.block reason)

/-- One act on the file of a task. -/
inductive Does : TaskFile → Act → TaskFile → Prop
  | enqueue {f t} (absent : f.task = none) (admitted : t.Admitted) :
      Does f (.enqueue t) { f with task := some t }
  | grant {f t g} (current : f.task = some t) (wanted : t.state = g.role.wanted)
      (free : t.leasedBy = none) (named : g.attemptId ≠ "")
      (validates : g.role = .validator →
        t.producedSha ≠ none ∧ t.builderWorkerId ≠ some g.workerId) :
      Does f (.grant g)
        { f with task := some (g.row t), attempts := f.attempts ++ [g.attempt t] }
  | renew {f t p} (expires : String) (m : Trail) (current : f.task = some t) (active : t.state.active = true)
      (presented : t.Presented p) :
      Does f (.renew p) { f with
        task := some (({ t with leaseExpiresAt := some expires } : Task).marked m)
        attempts := f.attempts.map (Attempt.renewedTo t.attemptId expires) }
  | start {f t p} (m : Trail) (current : f.task = some t) (leased : t.state = .leased)
      (presented : t.Presented p) :
      Does f (.start p) { f with
        task := some (({ t with
          state := .running, builderWorkerId := some p.workerId } : Task).marked m) }
  | release {f t cause e} (m : Trail) (stamp reason : String) (q : List Quarantine)
      (current : f.task = some t) (active : t.state.active = true) (fits : cause.Fits t)
      (ends : Ends f t cause e) (recorded : q.length = e.records) :
      Does f (.release cause e) { f with
        task := some (t.released cause e m)
        attempts := f.attempts.map (Attempt.closedBy t.attemptId stamp reason)
        quarantine := f.quarantine ++ q }
  | checkpoint {f t p} (c : Checkpoint) (m : Trail) (current : f.task = some t) (active : t.state.active = true)
      (presented : t.Presented p) (fenced : t.fencingRequired = true)
      (task : c.taskId = t.taskId) (generation : c.leaseGeneration = t.leaseGeneration)
      (attempt : t.attemptId = some c.attemptId)
      (sequence : c.sequence = f.lastSequence t.leaseGeneration + 1)
      (positive : 1 ≤ c.leaseGeneration) (effect : c.effectId = none ↔ c.effectState = .none)
      (safe : ∀ id ∈ c.effectId, isSafeId id = true)
      (certain : ∀ id ∈ c.effectId, f.unresolvedUnknown id = false)
      (new : ∀ d ∈ f.checkpoints, d.checkpointId ≠ c.checkpointId) :
      Does f (.checkpoint p c) { f with
        task := some (t.marked m), checkpoints := f.checkpoints ++ [c] }
  | reconcile {f t d} (r : Reconciliation) (current : f.task = some t) (fenced : t.fencingRequired = true)
      (blocked : t.state = .blocked)
      (reason : t.blockedReason = some effectReconciliationRequired)
      (latest : f.latestOfEffect r.effectId = some d) (undecided : d.effectState.undecided = true)
      (generation : d.leaseGeneration = r.leaseGeneration) (task : r.taskId = t.taskId) :
      Does f (.reconcile r) { f with reconciliations := f.reconciliations ++ [r] }
  | requeue {f t} (m : Trail) (current : f.task = some t) (blocked : t.state = .blocked)
      (settled : ¬ f.InDoubt t) :
      Does f .requeue { f with
        task := some (({ t with state := t.resumeState, blockedReason := none } : Task).marked m) }

theorem Attempt.closedBy_attemptId (attemptId : Option String) (stamp reason : String)
    (a : Attempt) : (a.closedBy attemptId stamp reason).attemptId = a.attemptId := by
  unfold Attempt.closedBy
  split <;> rfl

theorem Attempt.renewedTo_attemptId (attemptId : Option String) (expires : String)
    (a : Attempt) : (a.renewedTo attemptId expires).attemptId = a.attemptId := by
  unfold Attempt.renewedTo
  split <;> rfl

namespace TaskFile

theorem Owned.empty : TaskFile.empty.Owned := by simp [Owned, TaskFile.empty]

theorem Owned.carry {f g : TaskFile} {t t' : Task} (owned : f.Owned) (ht : f.task = some t)
    (ht' : g.task = some t') (same : t'.attemptId = t.attemptId)
    (names : ∀ a ∈ f.attempts, ∃ b ∈ g.attempts, b.attemptId = a.attemptId) : g.Owned := by
  intro u hu id hid
  cases ht'.symm.trans hu
  obtain ⟨name, a, ha, rfl⟩ := owned t ht id (same ▸ hid)
  exact ⟨name, names a ha⟩

end TaskFile

/-- No act leaves the row with a name that none of its attempts has. -/
theorem Does.owned {f f' : TaskFile} {act : Act} (h : Does f act f') (owned : f.Owned) :
    f'.Owned := by
  cases h with
  | enqueue absent admitted =>
    rintro u ⟨⟩ id hid
    rw [admitted.attempt] at hid
    cases hid
  | grant current wanted free named validates =>
    rintro u ⟨⟩ id ⟨⟩
    exact ⟨named, _, List.mem_append_right _ (List.mem_singleton.mpr rfl), rfl⟩
  | renew expires m current active presented =>
    refine owned.carry current rfl rfl fun a ha => ⟨_, List.mem_map_of_mem ha, ?_⟩
    exact a.renewedTo_attemptId _ _
  | start m current leased presented => exact owned.carry current rfl rfl fun a ha => ⟨a, ha, rfl⟩
  | release m stamp reason q current active fits ends recorded =>
    rintro u ⟨⟩ id hid
    cases hid
  | checkpoint c m current => exact owned.carry current rfl rfl fun a ha => ⟨a, ha, rfl⟩
  | reconcile r current => exact owned
  | requeue m current => exact owned.carry current rfl rfl fun a ha => ⟨a, ha, rfl⟩

end WorkerPool
