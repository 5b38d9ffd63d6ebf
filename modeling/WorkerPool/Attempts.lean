import WorkerPool.LifeCycle
import WorkerPool.Ledger

/-!
# The number of attempts

No claim looks at `max_attempts`: the limit is tested where an attempt fails, and a handoff
passes it by. What bounds the counter is how many attempts a task in each state may still be
given before the next test.
-/

namespace WorkerPool

open PyText Transaction Transaction.Tx
open Transition.System (Reachable)

namespace Task

/-- The attempts that a task may still be given before its limit is tested. A blocked task
may be given one less than it may once it is requeued. -/
def owed (t : Task) : Nat :=
  match t.state with
  | .queued => 2
  | .leased | .running => 1
  | .validating => if t.leasedBy = none then 1 else 0
  | .blocked => if t.producedSha = none then 1 else 0
  | .completed | .failed => 0

/-- The attempts made and owed, where the task has been requeued so many times. -/
def Bounded (t : Task) (requeued : Nat) : Prop :=
  t.attemptCount + t.owed ≤ t.maxAttempts + 1 + requeued

end Task

/-- The attempts that an act lets a task have beyond its limit. -/
def Act.grace : Act → Nat
  | .requeue => 1
  | _ => 0

section Acts

variable {f f' : TaskFile} {act : Act} {t t' : Task} {requeued : Nat} {records : Nat}

theorem Task.owed_resumed (t' : Task) (cycle : LifeCycle t records) (state : t'.state = t.resumeState)
    (free : t'.leasedBy = none) :
    (t'.owed = 1 ∧ t.producedSha ≠ none) ∨ (t'.owed = 2 ∧ t.producedSha = none) := by
  rcases cycle.resumeState_eq with ⟨validating, given⟩ | ⟨queued, absent⟩
  · refine .inl ⟨?_, given⟩
    simp [Task.owed, state, validating, free]
  · refine .inr ⟨?_, absent⟩
    simp [Task.owed, state, queued]

/-- A blocked task owes no more than it did when it was active. -/
theorem Task.owed_blocked (t' : Task) (cycle : LifeCycle t records) (active : t.state.active = true)
    (state : t'.state = .blocked) (produced : t'.producedSha = t.producedSha) :
    t'.owed ≤ t.owed := by
  have blocked : t'.owed = if t.producedSha = none then 1 else 0 := by
    simp [Task.owed, state, produced]
  rw [blocked]
  split
  · rename_i absent
    cases hs : t.state with
    | leased => simp [Task.owed, hs]
    | running => simp [Task.owed, hs]
    | validating => exact absurd absent (cycle.produced (.inl hs))
    | queued | blocked | completed | failed => simp [hs, TaskState.active] at active
  · exact Nat.zero_le _

theorem Task.Bounded.released {cause : Cause} {e : Ending} (h : t.Bounded requeued)
    (cycle : LifeCycle t records) (active : t.state.active = true) (ends : Ends f t cause e)
    (m : Trail) : (t.released cause e m).Bounded requeued := by
  have count : (t.released cause e m).attemptCount = t.attemptCount := rfl
  have limit : (t.released cause e m).maxAttempts = t.maxAttempts := rfl
  have before : t.attemptCount + t.owed ≤ t.maxAttempts + 1 + requeued := h
  unfold Task.Bounded
  rw [count, limit]
  cases ends with
  | @handoff p sha running =>
    have mine : t.owed = 1 := by simp [Task.owed, running]
    have next : (t.released (.caller p) (.handoff sha) m).owed = 1 := rfl
    omega
  | @completion p =>
    have next : (t.released (.caller p) .completion m).owed = 0 := rfl
    omega
  | retry left =>
    have next := Task.owed_resumed (t.released cause .retry m) cycle rfl rfl
    omega
  | failure =>
    have next : (t.released cause .failure m).owed = 0 := rfl
    omega
  | @block _ reason =>
    have next := Task.owed_blocked (t.released cause (.block reason) m) cycle active rfl rfl
    omega

/-- Each act keeps the bound, and a requeue raises it by one. -/
theorem Does.bounded (h : Does f act f') (cycle : LifeCycle.OfFile f)
    (bounded : ∀ t ∈ f.task, t.Bounded requeued) :
    ∀ t' ∈ f'.task, t'.Bounded (requeued + act.grace) := by
  cases h with
  | @enqueue t absent admitted =>
    rintro _ ⟨⟩
    have limit := admitted.maxAttempts
    simp only [Task.Bounded, Task.owed, admitted.state, admitted.attempts]
    omega
  | @grant t g current wanted free =>
    rintro _ ⟨⟩
    have before : t.attemptCount + t.owed ≤ t.maxAttempts + 1 + requeued := bounded t current
    have count : (g.row t).attemptCount = t.attemptCount + 1 := rfl
    have limit : (g.row t).maxAttempts = t.maxAttempts := rfl
    have spent : (g.row t).owed + 1 = t.owed := by
      cases hr : g.role <;> rw [hr] at wanted <;>
        simp [Task.owed, Grant.row, wanted, hr, Role.wanted, Role.nextState, free]
    simp only [Task.Bounded, count, limit, Act.grace]
    omega
  | @renew t p expires m current =>
    rintro _ ⟨⟩
    exact bounded t current
  | @start t p m current leased =>
    rintro _ ⟨⟩
    have before : t.attemptCount + t.owed ≤ t.maxAttempts + 1 + requeued := bounded t current
    simp only [Task.owed, leased] at before
    simpa [Task.Bounded, Task.owed, Task.marked, Act.grace] using before
  | @release t cause e m stamp reason q current active fits ends =>
    rintro _ ⟨⟩
    exact (bounded t current).released (cycle.2 t current) active ends m
  | @checkpoint t p c m current =>
    rintro _ ⟨⟩
    exact bounded t current
  | reconcile => exact bounded
  | @requeue t m current blocked =>
    rintro _ ⟨⟩
    have before : t.attemptCount + t.owed ≤ t.maxAttempts + 1 + requeued := bounded t current
    have idle : t.leasedBy = none := (cycle.2 t current).idle (by rw [blocked]; rfl)
    have next := Task.owed_resumed
      (({ t with state := t.resumeState, blockedReason := none } : Task).marked m)
      (cycle.2 t current) rfl idle
    have mine : t.owed = if t.producedSha = none then 1 else 0 := by simp [Task.owed, blocked]
    rcases next with ⟨one, given⟩ | ⟨two, absent⟩
    · simp only [Task.Bounded, one, Act.grace]
      simp only [mine, given, ↓reduceIte] at before
      exact Nat.succ_le_succ before
    · simp only [Task.Bounded, two, Act.grace]
      simp only [mine, absent, ↓reduceIte] at before
      exact Nat.succ_le_succ before

end Acts

/-! ### Runs -/

section Runs

variable {rt : Runtime} {s s' : Pool} {c : Call} {op : Op} {taskId : String}

/-- Whether a call is an accepted `requeue_blocked` of the task. -/
def Op.requeued (taskId : String) (s : Pool) (c : Call) : Op → Nat
  | .requeueBlocked id correlationId =>
    if id = taskId ∧ (WorkerPool.requeueBlocked c id correlationId).test s.db (fun _ _ => true) then 1
    else 0
  | _ => 0

/-- The accepted `requeue_blocked` calls on a task along a run. -/
def requeues (rt : Runtime) (taskId : String) : Pool → List (Call × Op) → Nat
  | _, [] => 0
  | s, l :: rest => l.2.requeued taskId s l.1 + requeues rt taskId (s.after rt l.1 l.2) rest

/-- A call that does not requeue the task keeps its bound. -/
theorem step_bounded_quiet (h : (pool rt).Reachable s) (st : (pool rt).step s (c, op) s')
    (quiet : ∀ act, op.May rt taskId act → act.grace = 0) {requeued : Nat}
    (bounded : ∀ t ∈ (s.db.file taskId).task, t.Bounded requeued) :
    ∀ t ∈ (s'.db.file taskId).task, t.Bounded requeued := by
  refine step_lifeCycle (P := fun f => ∀ t ∈ f.task, t.Bounded requeued) h st taskId ?_ bounded
  intro f act f' may cycle holds does
  have kept := does.bounded cycle holds
  rwa [quiet act may] at kept

theorem requeueBlocked_bounded {correlationId : String} (h : (pool rt).Reachable s)
    (st : (pool rt).step s (c, .requeueBlocked taskId correlationId) s') {requeued : Nat}
    (bounded : ∀ t ∈ (s.db.file taskId).task, t.Bounded requeued) :
    ∀ t ∈ (s'.db.file taskId).task,
      t.Bounded (requeued + (Op.requeueBlocked taskId correlationId).requeued taskId s c) := by
  obtain ⟨-, rfl⟩ := st
  have atomic : (requeueBlocked c taskId correlationId).Atomic s.db _ := requeueBlocked_atomic
  rcases yields_or_fails (requeueBlocked c taskId correlationId) s.db with
    ⟨t, db', returned⟩ | ⟨e, db', raised⟩
  · obtain ⟨⟨act, rfl, acts⟩, -⟩ := atomic.returns returned
    have accepted : (requeueBlocked c taskId correlationId).test s.db (fun _ _ => true) = true :=
      test_iff.mpr ⟨t, db', returned, rfl⟩
    have stop : (s.after rt c (.requeueBlocked taskId correlationId)).db = db' := by
      have run : ((Op.requeueBlocked taskId correlationId).run rt c).Yields s.db (.task t) db' :=
        bind_yields.mpr ⟨t, db', returned, pure_yields.mpr ⟨rfl, rfl⟩⟩
      exact congrArg Prod.snd run
    rw [stop, Op.requeued, if_pos ⟨rfl, accepted⟩]
    exact acts.file.bounded (file_lifeCycle h taskId) bounded
  · have stop : (s.after rt c (.requeueBlocked taskId correlationId)).db = s.db := by
      have run : ((Op.requeueBlocked taskId correlationId).run rt c).Fails s.db e db' :=
        bind_fails.mpr (.inl raised)
      exact (congrArg Prod.snd run).trans (atomic.raises raised)
    rw [stop]
    exact fun t ht => (bounded t ht).trans (by omega)

theorem step_bounded (h : (pool rt).Reachable s) (st : (pool rt).step s (c, op) s')
    {requeued : Nat} (bounded : ∀ t ∈ (s.db.file taskId).task, t.Bounded requeued) :
    ∀ t ∈ (s'.db.file taskId).task, t.Bounded (requeued + op.requeued taskId s c) := by
  cases op with
  | requeueBlocked id correlationId =>
    by_cases same : id = taskId
    · subst same
      exact requeueBlocked_bounded h st bounded
    · rw [Op.requeued, if_neg fun both => same both.1]
      refine step_bounded_quiet h st (fun act may => ?_) bounded
      cases may with
      | requeue => exact absurd rfl same
      | expiry recovers => cases recovers
      | watchdog recovers => cases recovers
  | _ => exact step_bounded_quiet h st (fun act may => by cases may <;> rfl) bounded

theorem run_bounded (calls : List (Call × Op)) (h : (pool rt).Reachable s)
    (fresh : FreshCalls s.drawn calls) {requeued : Nat}
    (bounded : ∀ t ∈ (s.db.file taskId).task, t.Bounded requeued) :
    ∀ t ∈ ((s.run rt calls).db.file taskId).task,
      t.Bounded (requeued + requeues rt taskId s calls) := by
  induction calls generalizing s requeued with
  | nil => exact bounded
  | cons l rest ih =>
    have st : (pool rt).step s l (s.after rt l.1 l.2) := ⟨fresh.1, rfl⟩
    have next := ih (h.step st) fresh.2 (step_bounded h st bounded)
    rwa [Nat.add_assoc] at next

/-- After any calls, each task has been given as many attempts as its counter says, and no
more than one beyond its limit for itself and one for each accepted `requeue_blocked`. -/
theorem bounded_attempts {calls : List (Call × Op)} (fresh : FreshCalls [] calls) :
    ∀ t ∈ (Pool.empty.run rt calls).db.tasks.rows,
      t.attemptCount ≤ t.maxAttempts + 1 + requeues rt t.taskId .empty calls ∧
      ((Pool.empty.run rt calls).db.attempts.rows.filter fun a => a.taskId = t.taskId).length =
        t.attemptCount := by
  intro t ht
  have empty : ∀ t' ∈ (Pool.empty.db.file t.taskId).task, t'.Bounded 0 := by
    intro t' ht'
    cases ht'
  have bounded := run_bounded calls (.init rfl) fresh empty t (Db.current_of_mem ht)
  have ledger := reachable_ledger (Pool.reachable_run fresh) ht
  refine ⟨?_, ledger.length.trans ledger.count.symm⟩
  have bound : t.attemptCount + t.owed ≤
      t.maxAttempts + 1 + (0 + requeues rt t.taskId .empty calls) := bounded
  omega

/-- The sample task is built and validated in two attempts, of the three that its limit and
its handoff allow without a requeue. -/
theorem completed_attempts : ∃ t ∈ (Pool.empty.run .ascii Sample.completed).db.tasks.rows,
    t.attemptCount = 2 ∧ t.attemptCount ≤ t.maxAttempts + 1 := by
  have found : ∃ t ∈ (Pool.empty.run .ascii Sample.completed).db.tasks.rows,
      t.attemptCount = 2 ∧ requeues .ascii t.taskId .empty Sample.completed = 0 := by
    decide +kernel
  obtain ⟨t, ht, two, none⟩ := found
  have bounded : t.attemptCount ≤
      t.maxAttempts + 1 + requeues .ascii t.taskId .empty Sample.completed :=
    (bounded_attempts (by decide) t ht).1
  rw [none] at bounded
  exact ⟨t, ht, two, bounded⟩

end Runs

end WorkerPool
