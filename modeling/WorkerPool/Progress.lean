import WorkerPool.Cycle

/-!
# What resets the watchdog's clock

The column `last_material_progress_at` of a task changes by seven calls on this task, and
only where they return.
-/

namespace WorkerPool

open PyText Transaction Transaction.Tx
open Relation (ReflTransGen)

/-- A call that has made material progress on a task, with what it returned. -/
inductive Op.Progresses (taskId : String) : Op → Reply → Prop
  | claim {a token attemptId t lease} (task : t.taskId = taskId) :
      Progresses taskId (.claimTask a token attemptId) (.claim (some (t, lease)))
  | start {p correlationId t} (task : p.taskId = taskId) :
      Progresses taskId (.startTask p correlationId) (.task t)
  | submit {p sha correlationId t} (task : p.taskId = taskId) :
      Progresses taskId (.submitForValidation p sha correlationId) (.task t)
  | complete {p correlationId t} (task : p.taskId = taskId) :
      Progresses taskId (.completeTask p correlationId) (.task t)
  | block {p correlationId reason t} (task : p.taskId = taskId) :
      Progresses taskId (.blockTask p correlationId reason) (.task t)
  | requeue {correlationId t} : Progresses taskId (.requeueBlocked taskId correlationId) (.task t)
  | checkpoint {a c} (task : a.taskId = taskId) :
      Progresses taskId (.recordCheckpoint a) (.checkpoint c true)

section Statements

variable {rt : Runtime} {c : Call}

/-- An update that leaves the column alone. -/
theorem updateTask_sameProgress (taskId : String) (f : Task → Task) (keeps)
    (same : ∀ t, (f t).lastMaterialProgressAt = t.lastMaterialProgressAt) :
    (updateTask taskId f keeps).Within Db.SameProgress := by
  refine (Within.read _).bind fun _ => (Within.require _ _).bind fun _ => ?_
  refine (Within.require _ _).bind fun _ => (Within.require _ _).bind fun _ => ?_
  refine .write fun db other => ?_
  rw [Db.file_modifyTask]
  split
  · rw [Option.map_map]
    exact congrArg (fun g => ((db.file other).task).map g) (funext same)
  · rfl

theorem endAttempt_sameProgress (row : Task) (stamp reason : String) :
    (endAttempt row stamp reason).Within Db.SameProgress :=
  .ite (.write fun _ _ => rfl) (.pure _)

theorem quarantineRow_sameProgress (row : Task) (reason stamp : String) :
    (quarantineRow rt row reason stamp).Within Db.SameProgress := .write fun _ _ => rfl

/-- A renewed lease is no progress. -/
theorem renewLease_sameProgress (p : Credential) (correlationId : String) (seconds : Option Int) :
    (renewLease c p correlationId seconds).Within Db.SameProgress := by
  refine Within.bind (.atomically ?_) fun _ => .of_reads (getTask_reads _)
  refine Within.bind (.of_reads (lease_reads _ _)) fun row => ?_
  refine Within.bind (.unwrap _ _) fun until_ => ?_
  refine Within.bind (updateTask_sameProgress _ _ _ ?_) fun _ => .ite (.write ?_) (.pure _)
  · exact fun _ => rfl
  · exact fun _ _ => rfl

/-- A failed attempt is no progress. -/
theorem failTask_sameProgress (p : Credential) (correlationId reason : String) :
    (failTask rt c p correlationId reason).Within Db.SameProgress := by
  refine Within.bind (.atomically ?_) fun _ => .of_reads (getTask_reads _)
  refine Within.bind (.of_reads (lease_reads _ _)) fun row => ?_
  refine Within.bind (.of_reads (requireResolvedEffects_reads row)) fun _ => ?_
  have ended : ∀ state, (do
      let state ← pure state
      endAttempt row (c.iso .stamp) "failed_attempt"
      updateTask p.taskId fun t => { t with
        state := state, leasedBy := none, leaseToken := none, leaseExpiresAt := none
        attemptId := none, lastError := some (failureReason rt reason)
        correlationId := correlationId, updatedAt := c.iso .stamp } : Body Unit).Within
      Db.SameProgress := by
    refine fun state => (Within.pure _).bind fun _ => ?_
    refine (endAttempt_sameProgress _ _ _).bind fun _ => ?_
    exact updateTask_sameProgress _ _ _ fun _ => rfl
  exact .ite ((quarantineRow_sameProgress _ _ _).bind fun _ => ended _) (ended _)

theorem recoverStalledRow_sameProgress (stamp : String) (workers : List Worker) (result : Stalled)
    (row : Task) : (recoverStalledRow rt c stamp workers result row).Within Db.SameProgress := by
  have settled : ∀ r : Verdict × Stalled, (do
      let r ← pure r
      settle row stamp r.1
      pure r.2 : Body Stalled).Within Db.SameProgress :=
    fun r => (Within.pure _).bind fun _ => (settle_sameProgress _ _ _).bind fun _ => .pure _
  refine (Within.read _).bind fun _ => .ite (settled _) (.ite ?_ ?_)
  · exact (quarantineRow_sameProgress _ _ _).bind fun _ => settled _
  · refine Within.bind ?_ fun _ => .ite (settled _) (settled _)
    exact .of_reads (.forEach fun _ w => .ite (.pure _) (workerIsAlternative_reads c row w))

/-- The watchdog itself makes no progress. -/
theorem recoverStalled_sameProgress : (recoverStalled rt c).Within Db.SameProgress := by
  refine Within.bind (.unwrap _ _) fun _ => (Within.read _).bind fun _ => ?_
  refine (Within.read _).bind fun workers => .forEach fun result row => ?_
  exact recoverStalledRow_sameProgress _ _ _ _

theorem reconcile_sameProgress : (reconcile rt c).Within Db.SameProgress :=
  .atomically ((recover_sameProgress rt c).bind fun _ =>
    recoverStalled_sameProgress.bind fun _ => .pure _)

theorem claimRecovery_sameProgress (a : ClaimTask) :
    (claimRecovery rt c a).Within Db.SameProgress :=
  .ite ((recover_sameProgress rt c).bind fun _ => recoverStalled_sameProgress.bind fun _ => .pure _)
    (.pure _)

end Statements

/-- Nothing but an admission or a reconciliation can happen to the task in this call. -/
def Op.Idle (rt : Runtime) (op : Op) (taskId : String) : Prop :=
  ∀ act, op.May rt taskId act → (∃ t, act = .enqueue t) ∨ ∃ r, act = .reconcile r

/-- The clock of a stored task has not been set again. -/
def Db.KeepsProgress (db : Db) (taskId : String) (db' : Db) : Prop :=
  ∀ t ∈ (db.file taskId).task, ∃ t' ∈ (db'.file taskId).task,
    t'.lastMaterialProgressAt = t.lastMaterialProgressAt

section Calls

variable {rt : Runtime} {c : Call} {op : Op} {db db' : Db} {taskId : String}

theorem Db.SameProgress.keeps (h : db.SameProgress db') (taskId : String) :
    db.KeepsProgress taskId db' := by
  intro t ht
  have column := h taskId
  rw [ht] at column
  obtain ⟨t', ht', same⟩ := Option.map_eq_some_iff.mp column
  exact ⟨t', ht', same⟩

theorem Db.KeepsProgress.of_file (h : (db'.file taskId).task = (db.file taskId).task) :
    db.KeepsProgress taskId db' := fun t ht => ⟨t, h ▸ ht, rfl⟩

theorem Op.Idle.keeps (idle : op.Idle rt taskId) (owned : db.Owned) {r : Reply}
    (h : (op.run rt c).Yields db r db') : db.KeepsProgress taskId db' := by
  intro t ht
  have kept : (db'.file taskId).task = some t := by
    refine path_file (P := fun f => f.task = some t) ?_ ((Op.run_simulated owned).returns h) ht
    intro f act f' may found does
    rcases idle act may with ⟨u, rfl⟩ | ⟨r, rfl⟩
    · cases does with
      | enqueue absent => cases absent.symm.trans found
    · cases does with
      | reconcile => exact found
  exact ⟨t, kept, rfl⟩

/-- A claim that has granted another task or none. -/
theorem claimTask_keeps {a : ClaimTask} {token attemptId : Uuid} {r : Option (Task × Lease)}
    (h : (claimTask rt c a token attemptId).Yields db r db')
    (other : ∀ g ∈ r, g.1.taskId ≠ taskId) : db.KeepsProgress taskId db' := by
  obtain ⟨mid, recovered, outcome⟩ := claimTask_claims.returns h
  have first := (claimRecovery_sameProgress a).yields recovered
  rcases outcome with ⟨-, rfl⟩ | ⟨row, g, rfl, -, granted⟩
  · exact first.keeps taskId
  · intro t ht
    obtain ⟨t', ht', same⟩ := first.keeps taskId t ht
    have file := granted.acts.others taskId (other _ rfl).symm
    exact ⟨t', file ▸ ht', same⟩

theorem recordCheckpoint_keeps {a : RecordCheckpoint} {row : Checkpoint}
    (h : (recordCheckpoint rt c a).Yields db (row, false) db') : db' = db := by
  obtain ⟨-, -, -, -, -, -, -, -, ⟨-, same, -⟩ | ⟨new, -⟩⟩ := recordCheckpoint_atomic.returns h
  · exact same
  · cases new

/-- A call on another task leaves this one idle. -/
theorem Op.progress_of_named (named : String) (owned : db.Owned) {r : Reply}
    (h : (op.run rt c).Yields db r db')
    (acts : ∀ task act, op.May rt task act → task = named) (own : op.Progresses named r) :
    db.KeepsProgress taskId db' ∨ op.Progresses taskId r := by
  by_cases same : named = taskId
  · exact .inr (same ▸ own)
  · exact .inl (Op.Idle.keeps (fun act may => absurd (acts taskId act may).symm same) owned h)

/-- A call that returns has made progress on the task or left its clock alone. -/
theorem Op.run_progress (owned : db.Owned) {r : Reply} (h : (op.run rt c).Yields db r db') :
    db.KeepsProgress taskId db' ∨ op.Progresses taskId r := by
  have idle : op.Idle rt taskId → db.KeepsProgress taskId db' ∨ op.Progresses taskId r :=
    fun idle => .inl (idle.keeps owned h)
  have still : (op.run rt c).Within Db.SameProgress →
      db.KeepsProgress taskId db' ∨ op.Progresses taskId r :=
    fun within => .inl ((within.yields h).keeps taskId)
  have named (task : String) : (∀ other act, op.May rt other act → other = task) →
      op.Progresses task r → db.KeepsProgress taskId db' ∨ op.Progresses taskId r :=
    Op.progress_of_named task owned h
  cases op with
  | registerWorker | heartbeatWorker | configureRepository | replaceWorkerAffinities
  | enableFencedCutover =>
    refine idle fun _ may => ?_
    cases may with
    | expiry recovers => cases recovers
    | watchdog recovers => cases recovers
  | enqueueTask =>
    refine idle fun _ may => ?_
    cases may with
    | enqueue => exact .inl ⟨_, rfl⟩
    | expiry recovers => cases recovers
    | watchdog recovers => cases recovers
  | reconcileEffect =>
    refine idle fun _ may => ?_
    cases may with
    | reconcile => exact .inr ⟨_, rfl⟩
    | expiry recovers => cases recovers
    | watchdog recovers => cases recovers
  | claimTask a token attemptId =>
    obtain ⟨granted, _, claimed, returned⟩ := bind_yields.mp h
    obtain ⟨rfl, rfl⟩ := pure_yields.mp returned
    by_cases other : ∀ g ∈ granted, g.1.taskId ≠ taskId
    · exact .inl (claimTask_keeps claimed other)
    · push Not at other
      obtain ⟨g, rfl, task⟩ := other
      exact .inr (.claim task)
  | renewLease p correlationId seconds =>
    exact still ((renewLease_sameProgress p correlationId seconds).bind fun _ => .pure _)
  | failTask p correlationId reason =>
    exact still ((failTask_sameProgress p correlationId reason).bind fun _ => .pure _)
  | recoverExpiredLeases =>
    exact still ((recover_sameProgress rt c).atomically.bind fun _ => .pure _)
  | recoverStalledTasks => exact still (recoverStalled_sameProgress.atomically.bind fun _ => .pure _)
  | reconcile => exact still (reconcile_sameProgress.bind fun _ => .pure _)
  | startTask p | submitForValidation p | completeTask p | blockTask p =>
    obtain ⟨_, _, -, returned⟩ := bind_yields.mp h
    obtain ⟨rfl, rfl⟩ := pure_yields.mp returned
    refine named p.taskId (fun task act may => ?_) (by constructor; rfl)
    cases may with
    | expiry recovers => cases recovers
    | watchdog recovers => cases recovers
    | _ => rfl
  | requeueBlocked id correlationId =>
    obtain ⟨_, _, -, returned⟩ := bind_yields.mp h
    obtain ⟨rfl, rfl⟩ := pure_yields.mp returned
    refine named id (fun task act may => ?_) .requeue
    cases may with
    | requeue => rfl
    | expiry recovers => cases recovers
    | watchdog recovers => cases recovers
  | recordCheckpoint a =>
    obtain ⟨⟨row, new⟩, _, recorded, returned⟩ := bind_yields.mp h
    obtain ⟨rfl, rfl⟩ := pure_yields.mp returned
    cases new with
    | false =>
      obtain rfl := recordCheckpoint_keeps recorded
      exact .inl (.of_file rfl)
    | true =>
      refine named a.taskId (fun task act may => ?_) (.checkpoint rfl)
      cases may with
      | checkpoint => rfl
      | expiry recovers => cases recovers
      | watchdog recovers => cases recovers

end Calls

/-- The clock of a task is set again only by a call that has made progress on this very task,
and has returned. -/
theorem only_progress_resets {rt : Runtime} {s s' : Pool} {c : Call} {op : Op}
    (h : (pool rt).Reachable s) (st : (pool rt).step s (c, op) s') :
    ∀ t ∈ s.db.tasks.rows, ∀ t' ∈ s'.db.tasks.rows, t'.taskId = t.taskId →
      t'.lastMaterialProgressAt ≠ t.lastMaterialProgressAt →
      ∃ r, (op.run rt c).Yields s.db r s'.db ∧ op.Progresses t.taskId r := by
  intro t ht t' ht' name changed
  have current : t ∈ (s.db.file t.taskId).task := Db.current_of_mem ht
  have current' : t' ∈ (s'.db.file t.taskId).task := name ▸ Db.current_of_mem ht'
  have fresh : ¬ s.db.KeepsProgress t.taskId s'.db := by
    intro kept
    obtain ⟨u, hu, same⟩ := kept t current
    cases Option.some.inj (hu.symm.trans current')
    exact changed same
  have moved : s'.db.file t.taskId ≠ s.db.file t.taskId :=
    fun same => fresh (.of_file (congrArg TaskFile.task same))
  obtain ⟨r, returned⟩ := step_returned h st moved
  rcases Op.run_progress (reachable_owned h) returned with kept | progress
  · exact absurd kept fresh
  · exact ⟨r, returned, progress⟩

namespace Sample

/-- The builder of `leased` starts its task a minute after the claim. -/
def startsLate : Call × Op :=
  (.at ⟨start.micros + 60000000, by decide⟩,
    .startTask (credential "b1" (uuid 'a') (uuid 'b') 1) "corr")

end Sample

theorem only_progress_resets_started :
    let s := Pool.empty.run .ascii Sample.leased
    let l := Sample.startsLate
    let s' := s.after .ascii l.1 l.2
    ∃ t ∈ s.db.tasks.rows, ∃ t' ∈ s'.db.tasks.rows,
      t'.lastMaterialProgressAt ≠ t.lastMaterialProgressAt ∧
      ∃ r, (l.2.run .ascii l.1).Yields s.db r s'.db ∧ l.2.Progresses t.taskId r := by
  intro s l s'
  have found : ∃ t ∈ s.db.tasks.rows, ∃ t' ∈ s'.db.tasks.rows, t'.taskId = t.taskId ∧
      t'.lastMaterialProgressAt ≠ t.lastMaterialProgressAt := by decide +kernel
  obtain ⟨t, ht, t', ht', name, changed⟩ := found
  have reach : (pool .ascii).Reachable s := Pool.reachable_run (by decide)
  have st : (pool .ascii).step s l s' := ⟨⟨by decide, nofun⟩, rfl⟩
  exact ⟨t, ht, t', ht', changed, only_progress_resets reach st t ht t' ht' name changed⟩

end WorkerPool
