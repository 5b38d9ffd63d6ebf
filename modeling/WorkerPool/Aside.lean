import WorkerPool.Passes

/-!
# The tables beside the tasks

The calls on tasks and the recovery passes write no row of a worker, of an affinity or of a
lane; a claim writes one lane. They are made of few statements, and what each of these keeps
every call keeps.
-/

namespace WorkerPool

open PyText Transaction Transaction.Tx

/-- The tables that describe workers and lanes are as they were. -/
structure Db.Aside (db db' : Db) : Prop where
  workers : db'.workers = db.workers
  lanes : db'.lanes = db.lanes
  affinities : db'.affinities = db.affinities
  cutover : db'.cutover = db.cutover

instance : Std.Refl Db.Aside := ⟨fun _ => ⟨rfl, rfl, rfl, rfl⟩⟩

instance : IsTrans Db Db.Aside where
  trans _ _ _ h h' := ⟨h'.workers.trans h.workers, h'.lanes.trans h.lanes,
    h'.affinities.trans h.affinities, h'.cutover.trans h.cutover⟩

section Reads

variable {c : Call}

theorem getTask_reads (taskId : String) : (getTask taskId).Within Eq :=
  (Within.read _).bind fun _ => .unwrap _ _

theorem ofExcept_reads {α : Type} (e : Except PoolError α) : (ofExcept e).Within Eq := by
  cases e with
  | ok a => exact .pure a
  | error e => exact .raise e

theorem lease_reads (p : Credential) (allowed : List TaskState) :
    (lease c p allowed).Within Eq := by
  refine (Within.read _).bind fun _ => (Within.unwrap _ _).bind fun _ => ?_
  refine (Within.require _ _).bind fun _ => (Within.require _ _).bind fun _ => ?_
  refine (Within.require _ _).bind fun _ => (Within.require _ _).bind fun _ => ?_
  refine (Within.require _ _).bind fun _ => (Within.require _ _).bind fun _ => ?_
  exact (Within.unwrap _ _).bind fun _ => (Within.require _ _).bind fun _ => .pure _

theorem requireResolvedEffects_reads (row : Task) : (requireResolvedEffects row).Within Eq :=
  (Within.read _).bind fun _ => .require _ _

end Reads

/-! ### Statements -/

/-- Only attempts, checkpoints, reconciliations and the quarantine have changed. -/
structure Db.Recorded (db db' : Db) : Prop extends Db.Aside db db' where
  tasks : db'.tasks = db.tasks

def Task.SameWorkspace (t t' : Task) : Prop :=
  t'.repository = t.repository ∧ t'.workspaceKey = t.workspaceKey

/-- A relation that the statements on tasks keep. -/
structure Statements (R : Db → Db → Prop) : Prop where
  recorded : ∀ {db db'}, db.Recorded db' → R db db'
  updateTask : ∀ taskId f keeps, (∀ t : Task, t.SameWorkspace (f t)) →
    (updateTask taskId f keeps).Within R

theorem updateTask_aside (taskId : String) (f : Task → Task) (keeps) :
    (updateTask taskId f keeps).Within Db.Aside := by
  refine (Within.read _).bind fun _ => (Within.require _ _).bind fun _ => ?_
  refine (Within.require _ _).bind fun _ => (Within.require _ _).bind fun _ => ?_
  exact .write fun _ => ⟨rfl, rfl, rfl, rfl⟩

theorem insertTask_aside (t : Task) : (insertTask t).Within Db.Aside := by
  refine (Within.read _).bind fun _ => (Within.require _ _).bind fun _ => ?_
  refine (Within.require _ _).bind fun _ => (Within.unwrap _ _).bind fun _ => ?_
  exact .write fun _ => ⟨rfl, rfl, rfl, rfl⟩

/-- The tables beside the tasks are such a relation. -/
theorem Statements.aside : Statements Db.Aside :=
  ⟨fun h => h.toAside, fun taskId f keeps _ => updateTask_aside taskId f keeps⟩

section Statements

variable {R : Db → Db → Prop} [Std.Refl R] [IsTrans Db R] (st : Statements R)

include st

omit [Std.Refl R] [IsTrans Db R] in
theorem Statements.record {f : Db → Db} (h : ∀ db, Db.Recorded db (f db)) : (write f : Body Unit).Within R :=
  .write fun db => st.recorded (h db)

omit [IsTrans Db R] in
theorem endAttempt_within (row : Task) (stamp reason : String) :
    (endAttempt row stamp reason).Within R :=
  .ite (st.record fun _ => ⟨⟨rfl, rfl, rfl, rfl⟩, rfl⟩) (.pure _)

omit [Std.Refl R] [IsTrans Db R] in
theorem quarantineRow_within (rt : Runtime) (row : Task) (reason stamp : String) :
    (quarantineRow rt row reason stamp).Within R := st.record fun _ => ⟨⟨rfl, rfl, rfl, rfl⟩, rfl⟩

theorem insertAttempt_within (a : Attempt) : (insertAttempt a).Within R := by
  refine (Within.read _).bind fun _ => (Within.require _ _).bind fun _ => ?_
  exact (Within.unwrap _ _).bind fun _ => st.record fun _ => ⟨⟨rfl, rfl, rfl, rfl⟩, rfl⟩

theorem insertCheckpoint_within (row : Checkpoint) : (insertCheckpoint row).Within R := by
  refine (Within.read _).bind fun _ => (Within.require _ _).bind fun _ => ?_
  refine (Within.require _ _).bind fun _ => (Within.require _ _).bind fun _ => ?_
  exact (Within.unwrap _ _).bind fun _ => st.record fun _ => ⟨⟨rfl, rfl, rfl, rfl⟩, rfl⟩

theorem insertReconciliation_within (r : Reconciliation) : (insertReconciliation r).Within R := by
  refine (Within.read _).bind fun _ => (Within.require _ _).bind fun _ => ?_
  exact (Within.unwrap _ _).bind fun _ => st.record fun _ => ⟨⟨rfl, rfl, rfl, rfl⟩, rfl⟩

/-! ### Recovery -/

section Recovery

variable {rt : Runtime} {c : Call}

theorem settle_within (row : Task) (stamp : String) (v : Verdict) :
    (settle row stamp v).Within R :=
  (endAttempt_within st _ _ _).bind fun _ => st.updateTask _ _ _ fun _ => ⟨rfl, rfl⟩

theorem recoverRow_within (rt : Runtime) (stamp : String) (row : Task) :
    (recoverRow rt stamp row).Within R := by
  have settled : ∀ v, (do let v ← pure v; settle row stamp v : Body Unit).Within R :=
    fun v => (Within.pure _).bind fun _ => settle_within st _ _ _
  refine (Within.read _).bind fun _ => .ite (settled _) (.ite ?_ (settled _))
  exact (quarantineRow_within st rt row _ _).bind fun _ => settled _

theorem recoverStalledRow_within (rt : Runtime) (c : Call) (stamp : String) (workers : List Worker)
    (result : Stalled) (row : Task) :
    (recoverStalledRow rt c stamp workers result row).Within R := by
  have settled : ∀ r : Verdict × Stalled,
      (do let r ← pure r; settle row stamp r.1; pure r.2 : Body Stalled).Within
        R :=
    fun r => (Within.pure _).bind fun _ => (settle_within st _ _ _).bind fun _ => .pure _
  refine (Within.read _).bind fun _ => .ite (settled _) (.ite ?_ ?_)
  · exact (quarantineRow_within st rt row _ _).bind fun _ => settled _
  · refine Within.bind ?_ fun _ => .ite (settled _) (settled _)
    exact .of_reads (.forEach fun _ w => .ite (.pure _) (workerIsAlternative_reads c row w))

theorem recover_within : (recover rt c).Within R := by
  refine (Within.read _).bind fun _ => Within.bind ?_ fun _ => .pure _
  exact .forEach fun _ row => recoverRow_within st rt _ row

theorem recoverStalled_within : (recoverStalled rt c).Within R := by
  refine (Within.unwrap _ _).bind fun _ => (Within.read _).bind fun _ => ?_
  exact (Within.read _).bind fun _ => .forEach fun _ row => recoverStalledRow_within st rt c _ _ _ row

theorem claimRecovery_within (a : ClaimTask) : (claimRecovery rt c a).Within R :=
  .ite ((recover_within st).bind fun _ => (recoverStalled_within st).bind fun _ => .pure _) (.pure _)

end Recovery

/-! ### Calls on one task -/

section Calls

variable {rt : Runtime} {c : Call}

theorem renewLease_within (p : Credential) (correlationId : String) (seconds : Option Int) :
    (renewLease c p correlationId seconds).Within R := by
  refine Within.bind (.atomically ?_) fun _ => .of_reads (getTask_reads _)
  refine Within.bind (.of_reads (lease_reads _ _)) fun _ => (Within.unwrap _ _).bind fun _ => ?_
  refine Within.bind (st.updateTask _ _ _ fun _ => ⟨rfl, rfl⟩) fun _ => ?_
  exact .ite (st.record fun _ => ⟨⟨rfl, rfl, rfl, rfl⟩, rfl⟩) (.pure _)

theorem startTask_within (p : Credential) (correlationId : String) :
    (startTask c p correlationId).Within R := by
  refine Within.bind (.atomically ?_) fun _ => .of_reads (getTask_reads _)
  refine Within.bind (.of_reads (lease_reads _ _)) fun _ => ?_
  refine ((Within.read _).bind fun _ => .unwrap _ _).bind fun _ => ?_
  refine (Within.require _ _).bind fun _ => ?_
  exact st.updateTask _ _ _ fun _ => ⟨rfl, rfl⟩

theorem submitForValidation_within (p : Credential) (producedSha correlationId : String) :
    (submitForValidation rt c p producedSha correlationId).Within R := by
  refine (Within.require _ _).bind fun _ => ?_
  refine Within.bind (.atomically ?_) fun _ => .of_reads (getTask_reads _)
  refine Within.bind (.of_reads (lease_reads _ _)) fun row => (Within.require _ _).bind fun _ => ?_
  refine Within.bind (.of_reads (requireResolvedEffects_reads row)) fun _ => ?_
  exact (endAttempt_within st row _ _).bind fun _ => st.updateTask _ _ _ fun _ => ⟨rfl, rfl⟩

theorem completeTask_within (p : Credential) (correlationId : String) :
    (completeTask c p correlationId).Within R := by
  refine Within.bind (.atomically ?_) fun _ => .of_reads (getTask_reads _)
  refine Within.bind (.of_reads (lease_reads _ _)) fun row => ?_
  refine ((Within.read _).bind fun _ => .unwrap _ _).bind fun _ => ?_
  refine (Within.require _ _).bind fun _ => (Within.require _ _).bind fun _ => ?_
  refine Within.bind (.of_reads (requireResolvedEffects_reads row)) fun _ => ?_
  exact (endAttempt_within st row _ _).bind fun _ => st.updateTask _ _ _ fun _ => ⟨rfl, rfl⟩

theorem failTask_within (p : Credential) (correlationId reason : String) :
    (failTask rt c p correlationId reason).Within R := by
  refine Within.bind (.atomically ?_) fun _ => .of_reads (getTask_reads _)
  refine Within.bind (.of_reads (lease_reads _ _)) fun row => ?_
  refine Within.bind (.of_reads (requireResolvedEffects_reads row)) fun _ => ?_
  have ended : ∀ state, (do
      let state ← pure state
      endAttempt row (c.iso .stamp) "failed_attempt"
      updateTask p.taskId fun t => { t with
        state := state, leasedBy := none, leaseToken := none, leaseExpiresAt := none
        attemptId := none, lastError := some (failureReason rt reason)
        correlationId := correlationId, updatedAt := c.iso .stamp } : Body Unit).Within
      R := fun _ =>
    (Within.pure _).bind fun _ => (endAttempt_within st row _ _).bind fun _ =>
      st.updateTask _ _ _ fun _ => ⟨rfl, rfl⟩
  exact .ite ((quarantineRow_within st _ _ _ _).bind fun _ => ended _) (ended _)

theorem blockTask_within (p : Credential) (correlationId reason : String) :
    (blockTask rt c p correlationId reason).Within R := by
  refine (Within.require _ _).bind fun _ => ?_
  refine Within.bind (.atomically ?_) fun _ => .of_reads (getTask_reads _)
  refine Within.bind (.of_reads (lease_reads _ _)) fun row => (Within.read _).bind fun _ => ?_
  exact (endAttempt_within st row _ _).bind fun _ => st.updateTask _ _ _ fun _ => ⟨rfl, rfl⟩

theorem recordCheckpoint_within (a : RecordCheckpoint) :
    (recordCheckpoint rt c a).Within R := by
  refine Within.bind (.of_reads (ofExcept_reads _)) fun content => Within.atomically ?_
  refine Within.bind (.of_reads (lease_reads _ _)) fun _ => (Within.require _ _).bind fun _ => ?_
  refine (Within.read _).bind fun existing => ?_
  cases existing with
  | some stored => exact (Within.require _ _).bind fun _ => .pure _
  | none =>
    refine (Within.read _).bind fun _ => (Within.require _ _).bind fun _ => ?_
    refine (Within.read _).bind fun _ => (Within.require _ _).bind fun _ => ?_
    refine (insertCheckpoint_within st _).bind fun _ => ?_
    refine Within.bind (st.updateTask _ _ _ fun _ => ⟨rfl, rfl⟩) fun _ => ?_
    exact (Within.read _).bind fun _ => (Within.unwrap _ _).bind fun _ => .pure _

theorem reconcileEffect_within (a : ReconcileEffect) :
    (reconcileEffect rt c a).Within R := by
  refine (Within.require _ _).bind fun _ => (Within.require _ _).bind fun _ => ?_
  refine (Within.unwrap _ _).bind fun _ => (Within.require _ _).bind fun _ => ?_
  refine Within.atomically ((Within.read _).bind fun _ => (Within.unwrap _ _).bind fun _ => ?_)
  refine (Within.read _).bind fun existing => ?_
  cases existing with
  | some stored => exact (Within.require _ _).bind fun _ => .pure _
  | none =>
    refine (Within.require _ _).bind fun _ => (Within.require _ _).bind fun _ => ?_
    refine (Within.read _).bind fun _ => (Within.unwrap _ _).bind fun _ => ?_
    refine (Within.require _ _).bind fun _ => (insertReconciliation_within st _).bind fun _ => ?_
    exact (Within.read _).bind fun _ => (Within.unwrap _ _).bind fun _ => .pure _

theorem requeueBlocked_within (taskId correlationId : String) :
    (requeueBlocked c taskId correlationId).Within R := by
  refine Within.bind (.atomically ?_) fun _ => .of_reads (getTask_reads _)
  refine (Within.read _).bind fun _ => (Within.unwrap _ _).bind fun _ => ?_
  refine (Within.require _ _).bind fun _ => (Within.read _).bind fun _ => ?_
  refine (Within.require _ _).bind fun _ => ?_
  exact st.updateTask _ _ _ fun _ => ⟨rfl, rfl⟩

end Calls

end Statements

/-- The calls that work on tasks alone. -/
def Op.onTasks : Op → Bool
  | .registerWorker _ | .heartbeatWorker _ | .configureRepository .. | .replaceWorkerAffinities ..
  | .enableFencedCutover .. | .enqueueTask _ | .claimTask .. => false
  | _ => true

/-- What the statements keep, such a call keeps. -/
theorem Op.run_within {R : Db → Db → Prop} [Std.Refl R] [IsTrans Db R] (st : Statements R)
    {rt : Runtime} {c : Call} {op : Op} (h : op.onTasks = true) : (op.run rt c).Within R := by
  have returned : ∀ {α β : Type} {m : Body α} {f : α → β}, m.Within R →
      (m >>= fun a => pure (f a)).Within R := fun h => h.bind fun _ => .pure _
  cases op with
  | registerWorker | heartbeatWorker | configureRepository | replaceWorkerAffinities
  | enableFencedCutover | enqueueTask | claimTask => cases h
  | renewLease => exact returned (renewLease_within st _ _ _)
  | startTask => exact returned (startTask_within st _ _)
  | submitForValidation => exact returned (submitForValidation_within st _ _ _)
  | completeTask => exact returned (completeTask_within st _ _)
  | failTask => exact returned (failTask_within st _ _ _)
  | blockTask => exact returned (blockTask_within st _ _ _)
  | recordCheckpoint => exact returned (recordCheckpoint_within st _)
  | reconcileEffect => exact returned (reconcileEffect_within st _)
  | requeueBlocked => exact returned (requeueBlocked_within st _ _)
  | recoverExpiredLeases => exact returned (.atomically (recover_within st))
  | recoverStalledTasks => exact returned (.atomically (recoverStalled_within st))
  | reconcile =>
    refine returned (.atomically ?_)
    exact (recover_within st).bind fun _ => (recoverStalled_within st).bind fun _ => .pure _

/-! ### Every call but those on workers -/

/-- Tasks and workers are as they were. -/
structure Db.Reconfigured (db db' : Db) : Prop where
  tasks : db'.tasks = db.tasks
  workers : db'.workers = db.workers

/-- A relation that all statements keep which write no worker. -/
structure AllStatements (R : Db → Db → Prop) : Prop extends Statements R where
  insertTask : ∀ t : Task, t.state = .queued → (insertTask t).Within R
  reconfigured : ∀ {db db'}, db.Reconfigured db' → R db db'

section AllStatements

variable {R : Db → Db → Prop} [Std.Refl R] [IsTrans Db R] (st : AllStatements R) {rt : Runtime}
  {c : Call}

include st

omit [Std.Refl R] [IsTrans Db R] in
theorem AllStatements.write {f : Db → Db} (h : ∀ db, Db.Reconfigured db (f db)) :
    (write f : Body Unit).Within R := .write fun db => st.reconfigured (h db)

theorem configureRepository_within (repository : String) (enabled : Bool) (maxInFlight : Int) :
    (configureRepository c repository enabled maxInFlight).Within R := by
  refine (Within.of_reads (ofExcept_reads _)).bind fun name => ?_
  split
  · exact .raise _
  · refine Within.bind (.atomically (st.write fun _ => ⟨rfl, rfl⟩)) fun _ => ?_
    exact (Within.of_reads (ofExcept_reads _)).bind fun _ => (Within.read _).bind fun _ => .unwrap _ _

theorem replaceWorkerAffinities_within (workerId : String) (repositories : List String) :
    (replaceWorkerAffinities c workerId repositories).Within R := by
  refine ((Within.read _).bind fun _ => .unwrap _ _).bind fun _ => ?_
  refine (Within.of_reads (ofExcept_reads _)).bind fun _ => (Within.atomically ?_).bind fun _ => .pure _
  refine Within.bind (st.write fun _ => ⟨rfl, rfl⟩) fun _ => .forEach fun _ _ => ?_
  exact Within.bind (st.write fun _ => ⟨rfl, rfl⟩) fun _ => st.write fun _ => ⟨rfl, rfl⟩

theorem enableFencedCutover_within (correlationId : String) (drained exclusive : Bool) :
    (enableFencedCutover c correlationId drained exclusive).Within R := by
  refine (Within.require _ _).bind fun _ => (Within.require _ _).bind fun _ => ?_
  exact Within.bind (.atomically (st.write fun _ => ⟨rfl, rfl⟩)) fun _ => .read _

theorem enqueueTask_within (a : EnqueueTask) : (enqueueTask rt c a).Within R := by
  refine (Within.require _ _).bind fun _ => (Within.require _ _).bind fun _ => ?_
  refine (Within.of_reads (ofExcept_reads _)).bind fun _ => (Within.require _ _).bind fun _ => ?_
  refine Within.atomically ((Within.read _).bind fun _ => (Within.require _ _).bind fun _ => ?_)
  refine Within.bind (st.write fun _ => ⟨rfl, rfl⟩) fun _ => (Within.read _).bind fun found => ?_
  cases found with
  | some row =>
    exact (Within.require _ _).bind fun _ => (Within.require _ _).bind fun _ => .pure _
  | none =>
    refine Within.bind (st.insertTask _ rfl) fun _ => ?_
    exact Within.bind (.of_reads (getTask_reads _)) fun _ => .pure _

theorem grant_within (a : ClaimTask) (role : Role) (ttl : Int) (token attemptId : Uuid)
    (row : Task) : (grant c a role ttl token attemptId row).Within R := by
  refine (Within.unwrap _ _).bind fun _ => (Within.read _).bind fun _ => ?_
  refine (Within.require _ _).bind fun _ => ?_
  refine Within.bind (st.updateTask _ _ _ fun _ => ⟨rfl, rfl⟩) fun _ => ?_
  refine Within.bind (st.write fun _ => ⟨rfl, rfl⟩) fun _ => ?_
  refine Within.bind (.of_reads (getTask_reads _)) fun _ => ?_
  exact (insertAttempt_within st.toStatements _).bind fun _ => .pure _

theorem claimTask_within (a : ClaimTask) (token attemptId : Uuid) :
    (claimTask rt c a token attemptId).Within R := by
  refine (Within.unwrap _ _).bind fun role => (Within.require _ _).bind fun _ => ?_
  refine (Within.require _ _).bind fun _ => Within.atomically ?_
  refine Within.bind (claimRecovery_within st.toStatements a) fun _ => ?_
  refine Within.bind (.of_reads (ready_reads c a.workerId role)) fun _ => ?_
  refine (Within.read _).bind fun selected => ?_
  cases selected with
  | none => exact .pure _
  | some row => exact (grant_within st a role _ token attemptId row).bind fun _ => .pure _

end AllStatements

/-- The calls that write the table of workers. -/
def Op.governs : Op → Bool
  | .registerWorker _ | .heartbeatWorker _ => true
  | _ => false

theorem Op.run_within_all {R : Db → Db → Prop} [Std.Refl R] [IsTrans Db R] (st : AllStatements R)
    {rt : Runtime} {c : Call} {op : Op} (h : op.governs = false) : (op.run rt c).Within R := by
  have returned : ∀ {α β : Type} {m : Body α} {f : α → β}, m.Within R →
      (m >>= fun a => pure (f a)).Within R := fun h => h.bind fun _ => .pure _
  cases op with
  | registerWorker | heartbeatWorker => cases h
  | configureRepository => exact returned (configureRepository_within st _ _ _)
  | replaceWorkerAffinities => exact returned (replaceWorkerAffinities_within st _ _)
  | enableFencedCutover => exact returned (enableFencedCutover_within st _ _ _)
  | enqueueTask => exact returned (enqueueTask_within st _)
  | claimTask => exact returned (claimTask_within st _ _ _)
  | _ => exact Op.run_within st.toStatements rfl

theorem Op.run_aside {rt : Runtime} {c : Call} {op : Op} (h : op.onTasks = true) :
    (op.run rt c).Within Db.Aside := Op.run_within .aside h

end WorkerPool
