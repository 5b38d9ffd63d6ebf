import Mathlib
import WorkerPool.Acts
import WorkerPool.System

/-!
# The operations perform acts

Every call of the pool moves each task's file by acts that the call may perform, and
a call that raises moves none. What is proved of the acts is thereby proved of the code.
-/

namespace WorkerPool

open PyText Transaction Transaction.Tx
open Relation (ReflTransGen)

/-! ### Statements -/

/-- The capacity configured for a repository. -/
def Db.limit (db : Db) (repository : String) : Option Nat :=
  (db.lanes.find? repository).map (·.maxInFlight)

/-- The file of one task changes; no other file and no lane's limit does. -/
structure Db.Writes (db : Db) (taskId : String) (change : TaskFile → TaskFile) (db' : Db) :
    Prop where
  file : db'.file taskId = change (db.file taskId)
  others : ∀ other, other ≠ taskId → db'.file other = db.file other
  limits : ∀ repository, db'.limit repository = db.limit repository

theorem Db.Writes.of_eq {db db' : Db} {taskId : String} {change : TaskFile → TaskFile}
    (files : ∀ other, db'.file other =
      if other = taskId then change (db.file other) else db.file other)
    (limits : ∀ repository, db'.limit repository = db.limit repository) :
    db.Writes taskId change db' where
  file := by rw [files, if_pos rfl]
  others other h := by rw [files, if_neg h]
  limits := limits

theorem Db.Writes.trans {a b c : Db} {taskId : String} {f g : TaskFile → TaskFile}
    (h : a.Writes taskId f b) (h' : b.Writes taskId g c) : a.Writes taskId (fun x => g (f x)) c where
  file := by rw [h'.file, h.file]
  others other ne := by rw [h'.others other ne, h.others other ne]
  limits r := by rw [h'.limits, h.limits]

def Db.Owned (db : Db) : Prop := ∀ taskId, (db.file taskId).Owned

theorem Db.Writes.owned {db db' : Db} {taskId : String} {change : TaskFile → TaskFile}
    (h : db.Writes taskId change db') (owned : db.Owned)
    (kept : (change (db.file taskId)).Owned) : db'.Owned := by
  intro other
  by_cases same : other = taskId
  · subst same
    rw [h.file]
    exact kept
  · rw [h.others other same]
    exact owned other

/-- The row is the one now stored. -/
def Db.Current (db : Db) (row : Task) : Prop := (db.file row.taskId).task = some row

theorem Db.task_taskId {db : Db} {taskId : String} {t : Task}
    (h : (db.file taskId).task = some t) : t.taskId = taskId := Table.key_of_find? h

theorem Db.current_of_file {db : Db} {taskId : String} {t : Task}
    (h : (db.file taskId).task = some t) : db.Current t := by
  unfold Db.Current
  rw [Db.task_taskId h]
  exact h

theorem Db.mem_file_task {db : Db} {taskId : String} {t : Task} :
    t ∈ (db.file taskId).task ↔ t ∈ db.tasks.rows ∧ t.taskId = taskId := Table.find?_eq_some_iff

theorem Db.current_of_mem {db : Db} {t : Task} (h : t ∈ db.tasks.rows) : db.Current t :=
  Table.find?_of_mem h

section Statements

variable {db db' : Db} {u : Unit}

theorem updateTask_yields {taskId : String} {f : Task → Task} {keeps}
    (h : (updateTask taskId f keeps).Yields db u db') : db' = db.modifyTask taskId f keeps := by
  simp only [updateTask, bind_yields, read_yields, require_yields, write_yields] at h
  obtain ⟨-, -, ⟨-, rfl⟩, -, -, ⟨-, rfl⟩, -, -, ⟨-, rfl⟩, -, -, ⟨-, rfl⟩, rfl⟩ := h
  rfl

/-- What the trigger and the unique indexes ask of the update of a stored row. -/
theorem updateTask_yields_iff {t : Task} {f : Task → Task} {keeps}
    (found : db.tasks.find? t.taskId = some t) : (updateTask t.taskId f keeps).Yields db u db' ↔
      (guardFencedClaim t (f t) = false ∧ db.workerTaken (f t) = false ∧
        db.workspaceTaken (f t) = false) ∧ db' = db.modifyTask t.taskId f keeps := by
  have only : ∀ {p : Task → Prop}, (∀ old ∈ (db.tasks.find? t.taskId).toList, p old) ↔ p t := by
    intro p
    rw [found]
    exact List.forall_mem_singleton
  simp only [updateTask, bind_yields, read_yields, require_yields, write_yields]
  constructor
  · rintro ⟨_, _, ⟨rfl, rfl⟩, _, _, ⟨guard, rfl⟩, _, _, ⟨worker, rfl⟩, _, _, ⟨space, rfl⟩, rfl⟩
    exact ⟨⟨only.mp guard, only.mp worker, only.mp space⟩, rfl⟩
  · rintro ⟨⟨guard, worker, space⟩, rfl⟩
    exact ⟨_, _, ⟨rfl, rfl⟩, (), db, ⟨only.mpr guard, rfl⟩, (), db, ⟨only.mpr worker, rfl⟩, (), db,
      ⟨only.mpr space, rfl⟩, rfl⟩

theorem updateTask_writes {taskId : String} {f : Task → Task} {keeps}
    (h : (updateTask taskId f keeps).Yields db u db') :
    db.Writes taskId (fun x => { x with task := x.task.map f }) db' := by
  obtain rfl := updateTask_yields h
  exact .of_eq (fun other => db.file_modifyTask taskId other f keeps) fun _ => rfl

/-- A named attempt belongs to the task that names it, and to no other. -/
theorem Db.attempt_owner {taskId other attemptId : String} {t : Task} {a : Attempt}
    (owned : db.Owned) (ht : (db.file taskId).task = some t) (hid : t.attemptId = some attemptId)
    (ha : a ∈ (db.file other).attempts) (same : a.attemptId = attemptId) : other = taskId := by
  obtain ⟨-, b, hb, hbid⟩ := owned taskId t ht attemptId hid
  obtain ⟨hb, hbt⟩ := List.mem_filter.mp hb
  obtain ⟨ha, hat⟩ := List.mem_filter.mp ha
  have one : a = b := List.inj_on_of_nodup_map db.attempts.unique ha hb (same.trans hbid.symm)
  subst one
  exact (of_decide_eq_true hat).symm.trans (of_decide_eq_true hbt)

/-- Rewriting the attempt that a task names writes that task's file. -/
theorem Db.modifyAttempt_writes {taskId : String} {t : Task} {attemptId : String}
    (owned : db.Owned) (ht : (db.file taskId).task = some t) (hid : t.attemptId = some attemptId)
    (f : Attempt → Attempt) (keeps : ∀ a, (f a).attemptId = a.attemptId)
    (sameTask : ∀ a, (f a).taskId = a.taskId) :
    db.Writes taskId (fun x => { x with
      attempts := x.attempts.map fun a => if some a.attemptId = t.attemptId then f a else a })
      (db.modifyAttempt attemptId f keeps) := by
  refine .of_eq (fun other => ?_) fun _ => rfl
  rw [Db.file_modifyAttempt db other attemptId f keeps sameTask]
  by_cases h : other = taskId
  · simp [h, hid]
  · have none_named : ∀ a ∈ (db.file other).attempts, a.attemptId ≠ attemptId :=
      fun a ha same => h (Db.attempt_owner owned ht hid ha same)
    rw [if_neg h]
    refine TaskFile.ext rfl ?_ rfl rfl rfl
    conv_rhs => rw [← List.map_id (db.file other).attempts]
    exact List.map_congr_left fun a ha => by simp [none_named a ha]

/-- `UPDATE task_attempts … WHERE attempt_id=?`, when the task names an attempt. -/
theorem attemptStatement_writes {taskId : String} {t : Task} (owned : db.Owned)
    (ht : (db.file taskId).task = some t) (f : Attempt → Attempt)
    (keeps : ∀ a, (f a).attemptId = a.attemptId) (sameTask : ∀ a, (f a).taskId = a.taskId)
    (h : (if truthy t.attemptId then write fun db => db.modifyAttempt (t.attemptId.getD "") f keeps
      else pure () : Body Unit).Yields db u db') :
    db.Writes taskId (fun x => { x with
      attempts := x.attempts.map fun a => if some a.attemptId = t.attemptId then f a else a }) db' := by
  cases hid : t.attemptId with
  | none =>
    simp only [hid, truthy_none, Bool.false_eq_true, if_false, pure_yields] at h
    obtain ⟨-, rfl⟩ := h
    exact .of_eq (fun other => by simp) fun _ => rfl
  | some attemptId =>
    obtain ⟨name, -⟩ := owned taskId t ht attemptId hid
    rw [hid, if_pos (truthy_some.mpr name), write_yields] at h
    subst h
    have writes := Db.modifyAttempt_writes owned ht hid f keeps sameTask
    rw [hid] at writes
    exact writes

theorem endAttempt_writes {row : Task} {stamp reason : String} (owned : db.Owned)
    (current : db.Current row) (h : (endAttempt row stamp reason).Yields db u db') :
    db.Writes row.taskId (fun x => { x with
      attempts := x.attempts.map (Attempt.closedBy row.attemptId stamp reason) }) db' :=
  attemptStatement_writes owned current _ _ (fun _ => rfl) h

theorem quarantineRow_writes {rt : Runtime} {row : Task} {reason stamp : String}
    (h : (quarantineRow rt row reason stamp).Yields db u db') :
    ∃ q, db.Writes row.taskId (fun x => { x with quarantine := x.quarantine ++ [q] }) db' := by
  obtain rfl := write_yields.mp h
  exact ⟨_, .of_eq (fun other => db.file_quarantine row.taskId other _ rfl) fun _ => rfl⟩

theorem insertCheckpoint_writes {ck : Checkpoint}
    (h : (insertCheckpoint ck).Yields db u db') :
    db.Writes ck.taskId (fun x => { x with checkpoints := x.checkpoints ++ [ck] }) db' ∧
      db'.checkpoints.find? ck.key = some ck ∧ 1 ≤ ck.leaseGeneration := by
  simp only [insertCheckpoint, bind_yields, read_yields, require_yields, unwrap_yields,
    write_yields] at h
  obtain ⟨_, _, ⟨rfl, rfl⟩, _, _, ⟨positive, rfl⟩, _, _, ⟨_, rfl⟩, _, _, ⟨_, rfl⟩, checkpoints, _,
    ⟨inserted, rfl⟩, rfl⟩ := h
  refine ⟨.of_eq (fun other => Db.file_insertCheckpoint _ other inserted) fun _ => rfl, ?_,
    positive.1⟩
  exact (Table.find?_insert inserted ck.key).trans (if_pos rfl)

theorem insertReconciliation_writes {r : Reconciliation}
    (h : (insertReconciliation r).Yields db u db') :
    db.Writes r.taskId (fun x => { x with reconciliations := x.reconciliations ++ [r] }) db' ∧
      db'.reconciliations.find? r.key = some r := by
  simp only [insertReconciliation, bind_yields, read_yields, require_yields, unwrap_yields,
    write_yields] at h
  obtain ⟨_, _, ⟨rfl, rfl⟩, _, _, ⟨_, rfl⟩, reconciliations, _, ⟨inserted, rfl⟩, rfl⟩ := h
  refine ⟨.of_eq (fun other => Db.file_insertReconciliation _ other inserted) fun _ => rfl, ?_⟩
  exact (Table.find?_insert inserted r.key).trans (if_pos rfl)

theorem insertAttempt_writes {a : Attempt} (h : (insertAttempt a).Yields db u db') :
    db.Writes a.taskId (fun x => { x with attempts := x.attempts ++ [a] }) db' := by
  simp only [insertAttempt, bind_yields, read_yields, require_yields, unwrap_yields,
    write_yields] at h
  obtain ⟨_, _, ⟨rfl, rfl⟩, _, _, ⟨_, rfl⟩, attempts, _, ⟨inserted, rfl⟩, rfl⟩ := h
  exact .of_eq (fun other => Db.file_insertAttempt _ other inserted) fun _ => rfl

theorem insertTask_writes {t : Task} (h : (insertTask t).Yields db u db') :
    db.Writes t.taskId (fun x => { x with task := some t }) db' ∧
      (db.file t.taskId).task = none := by
  simp only [insertTask, bind_yields, read_yields, require_yields, unwrap_yields,
    write_yields] at h
  obtain ⟨_, _, ⟨rfl, rfl⟩, _, _, ⟨_, rfl⟩, _, _, ⟨_, rfl⟩, tasks, _, ⟨inserted, rfl⟩, rfl⟩ := h
  refine ⟨.of_eq (fun other => Db.file_insertTask _ other inserted) fun _ => rfl, ?_⟩
  exact (Table.insert?_eq_some_iff.mp inserted).1

theorem ofExcept_yields {α : Type} {e : Except PoolError α} {a : α} :
    (ofExcept e).Yields db a db' ↔ e = .ok a ∧ db' = db := by
  cases e with
  | ok b => simp [ofExcept, eq_comm]
  | error e => simp [ofExcept]

theorem ofExcept_atomic {α : Type} {e : Except PoolError α} :
    (ofExcept e).Atomic db fun a db' => e = .ok a ∧ db' = db where
  returns := ofExcept_yields.mp
  raises := fun hf => by
    cases e with
    | ok b => exact absurd hf pure_fails
    | error e => exact (raise_fails.mp hf).2

end Statements

/-! ### Acts of the database -/

/-- The lane of the task has an unused place. -/
def Db.HasRoom (db : Db) (taskId : String) : Prop :=
  ∀ t ∈ (db.file taskId).task, ∃ n ∈ db.limit t.repository, db.inFlight t.repository < n

/-- An act on one task: its file moves, no other file and no lane's limit does, and a
builder's claim finds room in the lane. -/
structure Db.Acts (db : Db) (taskId : String) (act : Act) (db' : Db) : Prop where
  file : Does (db.file taskId) act (db'.file taskId)
  others : ∀ other, other ≠ taskId → db'.file other = db.file other
  limits : ∀ repository, db'.limit repository = db.limit repository
  room : ∀ g, act = .grant g → g.role = .builder → db.HasRoom taskId

theorem Db.Writes.acts {db db' : Db} {taskId : String} {change : TaskFile → TaskFile} {act : Act}
    (writes : db.Writes taskId change db') (does : Does (db.file taskId) act (change (db.file taskId)))
    (notGrant : ∀ g, act ≠ .grant g) : db.Acts taskId act db' where
  file := by rw [writes.file]; exact does
  others := writes.others
  limits := writes.limits
  room g h := absurd h (notGrant g)

theorem Db.Acts.owned {db db' : Db} {taskId : String} {act : Act} (h : db.Acts taskId act db')
    (owned : db.Owned) : db'.Owned := by
  intro other
  by_cases same : other = taskId
  · subst same
    exact h.file.owned (owned _)
  · rw [h.others other same]
    exact owned other

/-- The statements of a release, after the quarantine record if there is one. -/
theorem released_acts {db mid mid' db' : Db} {row : Task} {q : List Quarantine} {cause : Cause}
    {e : Ending} {stamp reason : String} {u v : Unit} {f : Task → Task} {keeps} (m : Trail)
    (owned : db.Owned) (current : db.Current row)
    (recorded : db.Writes row.taskId (fun x => { x with quarantine := x.quarantine ++ q }) mid)
    (ended : (endAttempt row stamp reason).Yields mid u mid')
    (updated : (updateTask row.taskId f keeps).Yields mid' v db')
    (becomes : f row = row.released cause e m) (active : row.state.active = true)
    (fits : cause.Fits row) (ends : Ends (db.file row.taskId) row cause e)
    (count : q.length = e.records) : db.Acts row.taskId (.release cause e) db' := by
  have does := Does.release m stamp reason q current active fits ends count
  have owned' : mid.Owned := recorded.owned owned (owned row.taskId)
  have current' : mid.Current row := by
    unfold Db.Current
    rw [recorded.file]
    exact current
  have writes := (recorded.trans (endAttempt_writes owned' current' ended)).trans
    (updateTask_writes updated)
  refine writes.acts ?_ fun _ => nofun
  have row' : (db.file row.taskId).task.map f = some (row.released cause e m) := by
    rw [show (db.file row.taskId).task = some row from current, Option.map_some, becomes]
  rw [row']
  exact does

theorem Db.Writes.no_record (db : Db) (taskId : String) :
    db.Writes taskId (fun x => { x with quarantine := x.quarantine ++ [] }) db :=
  .of_eq (fun other => by simp) fun _ => rfl

/-- An act leaves the row of every other task current. -/
theorem Db.Acts.current {db db' : Db} {taskId : String} {act : Act} (h : db.Acts taskId act db')
    {row : Task} (current : db.Current row) (other : row.taskId ≠ taskId) : db'.Current row := by
  unfold Db.Current
  rw [h.others _ other]
  exact current

theorem Does.task_isSome {f f' : TaskFile} {act : Act} (h : Does f act f') : ∃ t, f'.task = some t := by
  cases h with
  | reconcile r current => exact ⟨_, current⟩
  | _ => exact ⟨_, rfl⟩

/-- The calls that run a recovery pass. -/
inductive Op.Recovers : Op → Prop
  | expired : Recovers .recoverExpiredLeases
  | stalled : Recovers .recoverStalledTasks
  | cycle : Recovers .reconcile
  | claim {a token attemptId} (general : a.onlyTaskId = none) :
      Recovers (.claimTask a token attemptId)

/-- The acts that a call may perform, and on which task. -/
inductive Op.May (rt : Runtime) : Op → String → Act → Prop
  | enqueue {a t} : May rt (.enqueueTask a) t.taskId (.enqueue t)
  | grant {a token attemptId g taskId} (worker : g.workerId = a.workerId)
      (role : Role.ofText (rt.lower a.role) = some g.role) (drawn : g.leaseToken = token.hex)
      (named : g.attemptId = attemptId.hex) : May rt (.claimTask a token attemptId) taskId (.grant g)
  | renew {p correlationId seconds} : May rt (.renewLease p correlationId seconds) p.taskId (.renew p)
  | start {p correlationId} : May rt (.startTask p correlationId) p.taskId (.start p)
  | handoff {p sha correlationId} : May rt (.submitForValidation p sha correlationId) p.taskId
      (.release (.caller p) (.handoff (rt.lower sha)))
  | completion {p correlationId} : May rt (.completeTask p correlationId) p.taskId
      (.release (.caller p) .completion)
  | retry {p correlationId reason} : May rt (.failTask p correlationId reason) p.taskId
      (.release (.caller p) .retry)
  | failure {p correlationId reason} : May rt (.failTask p correlationId reason) p.taskId
      (.release (.caller p) .failure)
  | block {p correlationId reason stated} : May rt (.blockTask p correlationId reason) p.taskId
      (.release (.caller p) (.block stated))
  | checkpoint {a c} : May rt (.recordCheckpoint a) a.taskId (.checkpoint a.credential c)
  | reconcile {a r} : May rt (.reconcileEffect a) a.taskId (.reconcile r)
  | requeue {taskId correlationId} : May rt (.requeueBlocked taskId correlationId) taskId .requeue
  | expiry {op taskId e} (recovers : op.Recovers) : May rt op taskId (.release .expiry e)
  | watchdog {op taskId e} (recovers : op.Recovers) : May rt op taskId (.release .watchdog e)

/-- No file changes, and only a configuration call changes a limit that exists. -/
structure Db.Still (op : Op) (db db' : Db) : Prop where
  files : ∀ taskId, db'.file taskId = db.file taskId
  limits : (∃ repository enabled maxInFlight,
      op = .configureRepository repository enabled maxInFlight) ∨
    ∀ repository n, db.limit repository = some n → db'.limit repository = some n

/-- One of the changes a call is made of. -/
inductive Db.Move (rt : Runtime) (op : Op) : Db → Db → Prop
  | still {db db'} (still : Db.Still op db db') : Move rt op db db'
  | act {db db' taskId act} (may : op.May rt taskId act) (acts : db.Acts taskId act db') :
      Move rt op db db'

theorem Db.Still.refl (op : Op) (db : Db) : Db.Still op db db :=
  ⟨fun _ => rfl, .inr fun _ _ h => h⟩

theorem Db.Move.owned {rt : Runtime} {op : Op} {db db' : Db} (h : Db.Move rt op db db')
    (owned : db.Owned) : db'.Owned := by
  cases h with
  | still still =>
    intro taskId
    rw [still.files]
    exact owned taskId
  | act may acts => exact acts.owned owned

theorem Db.Move.owned_path {rt : Runtime} {op : Op} {db db' : Db}
    (h : ReflTransGen (Db.Move rt op) db db') (owned : db.Owned) : db'.Owned := by
  induction h with
  | refl => exact owned
  | tail _ move ih => exact move.owned ih

/-! ### Calls under a lease -/

/-- The lease has not run out, on the reading of the clock that `_lease` takes. -/
def Task.Live (t : Task) (c : Call) : Prop :=
  truthy t.leaseExpiresAt = true ∧
    ∃ until_, Calendar.parseIso (t.leaseExpiresAt.getD "") = some until_ ∧ c.clock .lease < until_

theorem lease_yields {c : Call} {p : Credential} {allowed : List TaskState} {t : Task} {db db' : Db} :
    (lease c p allowed).Yields db t db' ↔
      db' = db ∧ (db.file p.taskId).task = some t ∧ t.state ∈ allowed ∧ t.Presented p ∧
        t.Live c := by
  simp only [lease, parseStamp, bind_yields, read_yields, unwrap_yields, require_yields, pure_yields]
  constructor
  · rintro ⟨_, _, ⟨rfl, rfl⟩, row, _, ⟨found, rfl⟩, _, _, ⟨state, rfl⟩, _, _, ⟨⟨worker, token⟩, rfl⟩,
      _, _, ⟨fence, rfl⟩, _, _, ⟨generation, rfl⟩, _, _, ⟨attempt, rfl⟩, _, _, ⟨given, rfl⟩,
      until_, _, ⟨parsed, rfl⟩, _, _, ⟨early, rfl⟩, rfl, rfl⟩
    exact ⟨rfl, found, state, ⟨worker, token, fence, generation, attempt⟩, given, until_, parsed, early⟩
  · rintro ⟨rfl, found, state, ⟨worker, token, fence, generation, attempt⟩, given, until_, parsed, early⟩
    exact ⟨_, _, ⟨rfl, rfl⟩, t, _, ⟨found, rfl⟩, (), _, ⟨state, rfl⟩, (), _, ⟨⟨worker, token⟩, rfl⟩,
      (), _, ⟨fence, rfl⟩, (), _, ⟨generation, rfl⟩, (), _, ⟨attempt, rfl⟩, (), _, ⟨given, rfl⟩,
      until_, _, ⟨parsed, rfl⟩, (), _, ⟨early, rfl⟩, rfl, rfl⟩

theorem TaskState.active_of_mem {s : TaskState} (h : s ∈ TaskState.allActive) : s.active = true := by
  cases s <;> first | rfl | simp [TaskState.allActive] at h

theorem requireResolvedEffects_yields {row : Task} {u : Unit} {db db' : Db} :
    (requireResolvedEffects row).Yields db u db' ↔
      ¬ (db.file row.taskId).InDoubt row ∧ db' = db := by
  simp only [requireResolvedEffects, bind_yields, read_yields, require_yields,
    Db.hasUnresolvedEffect_file, TaskFile.InDoubt]
  constructor
  · rintro ⟨_, _, ⟨rfl, rfl⟩, settled, rfl⟩
    exact ⟨settled, rfl⟩
  · rintro ⟨settled, rfl⟩
    exact ⟨_, _, ⟨rfl, rfl⟩, settled, rfl⟩

/-- The row read back after the commit is the one in the file. -/
theorem getTask_yields {taskId : String} {t : Task} {db db' : Db} :
    (getTask taskId).Yields db t db' ↔ (db.file taskId).task = some t ∧ db' = db := by
  simp only [getTask, bind_yields, read_yields, unwrap_yields]
  constructor
  · rintro ⟨_, _, ⟨rfl, rfl⟩, found, rfl⟩
    exact ⟨found, rfl⟩
  · rintro ⟨found, rfl⟩
    exact ⟨_, _, ⟨rfl, rfl⟩, found, rfl⟩

/-- A transaction that performs an act, and the reading of the row that it leaves. -/
theorem Atomic.commits {m : Body Unit} {taskId : String} {db : Db} {acts : Act → Prop}
    (body : ∀ db', m.Yields db () db' → ∃ act, acts act ∧ db.Acts taskId act db') :
    (do atomically m; getTask taskId).Atomic db fun t db' =>
      (∃ act, acts act ∧ db.Acts taskId act db') ∧ (db'.file taskId).task = some t := by
  refine (Atomic.atomically fun _ => body).then_total fun _ db' h => ?_
  obtain ⟨act, hact, moved⟩ := h
  obtain ⟨t, ht⟩ := moved.file.task_isSome
  exact ⟨t, getTask_yields.mpr ⟨ht, rfl⟩, ⟨act, hact, moved⟩, ht⟩

section Calls

variable {rt : Runtime} {c : Call} {p : Credential} {correlationId : String} {db : Db}

theorem renewLease_atomic {seconds : Option Int} (owned : db.Owned) :
    (renewLease c p correlationId seconds).Atomic db fun t db' =>
      (∃ act, act = .renew p ∧ db.Acts p.taskId act db') ∧ (db'.file p.taskId).task = some t := by
  refine Atomic.commits fun db' h => ⟨_, rfl, ?_⟩
  simp only [bind_yields, lease_yields] at h
  obtain ⟨row, _, ⟨rfl, found, state, presented, _⟩, until_, _, shifted, _, mid, updated, rest⟩ := h
  obtain ⟨_, rfl⟩ := unwrap_yields.mp shifted
  have first := updateTask_writes updated
  have stored := first.file
  simp only [found, Option.map_some] at stored
  have owned' : mid.Owned := first.owned owned (by
    simp only [found, Option.map_some]
    exact (owned p.taskId).carry found rfl rfl fun a ha => ⟨a, ha, rfl⟩)
  have second := attemptStatement_writes owned' (congrArg TaskFile.task stored)
    (fun a => { a with leaseExpiresAt := Calendar.iso until_ }) (fun _ => rfl) (fun _ => rfl) rest
  have does := Does.renew (Calendar.iso until_) ⟨row.lastError, correlationId, c.iso .stamp,
    row.lastMaterialProgressAt, row.completedAt⟩ found (TaskState.active_of_mem state) presented
  refine (first.trans second).acts ?_ (by rintro _ ⟨⟩)
  simp only [found, Option.map_some]
  exact does

theorem startTask_atomic :
    (startTask c p correlationId).Atomic db fun t db' =>
      (∃ act, act = .start p ∧ db.Acts p.taskId act db') ∧ (db'.file p.taskId).task = some t := by
  refine Atomic.commits fun db' h => ⟨_, rfl, ?_⟩
  simp only [bind_yields, lease_yields, getWorker, read_yields, unwrap_yields, require_yields] at h
  obtain ⟨row, _, ⟨rfl, found, state, presented, _⟩, _, _, ⟨_, _, ⟨rfl, rfl⟩, _, rfl⟩,
    _, _, ⟨_, rfl⟩, updated⟩ := h
  have does := Does.start ⟨row.lastError, correlationId, c.iso .stamp, c.iso .stamp,
    row.completedAt⟩ found (List.mem_singleton.mp state) presented
  refine (updateTask_writes updated).acts ?_ (by rintro _ ⟨⟩)
  simp only [found, Option.map_some]
  exact does

theorem submitForValidation_atomic {producedSha : String} (owned : db.Owned) :
    (submitForValidation rt c p producedSha correlationId).Atomic db fun t db' =>
      (∃ act, act = .release (.caller p) (.handoff (rt.lower producedSha)) ∧
        db.Acts p.taskId act db') ∧ (db'.file p.taskId).task = some t := by
  refine Atomic.after_check Atomic.require fun _ shape => ?_
  refine Atomic.commits fun db' h => ⟨_, rfl, ?_⟩
  simp only [bind_yields, lease_yields, require_yields, requireResolvedEffects_yields] at h
  obtain ⟨row, _, ⟨rfl, found, state, presented, _⟩, _, _, ⟨builder, rfl⟩, _, _, ⟨settled, rfl⟩,
    _, mid, ended, updated⟩ := h
  have running := List.mem_singleton.mp state
  have same := Db.task_taskId found
  rw [← same] at updated ⊢
  exact released_acts ⟨row.lastError, correlationId, c.iso .stamp, c.iso .stamp,
    row.completedAt⟩ owned (Db.current_of_file found) (.no_record _ _) ended updated rfl
    (by rw [running]; rfl) presented (.handoff running builder shape settled) rfl

theorem completeTask_atomic (owned : db.Owned) :
    (completeTask c p correlationId).Atomic db fun t db' =>
      (∃ act, act = .release (.caller p) .completion ∧ db.Acts p.taskId act db') ∧
        (db'.file p.taskId).task = some t := by
  refine Atomic.commits fun db' h => ⟨_, rfl, ?_⟩
  simp only [bind_yields, lease_yields, getWorker, read_yields, unwrap_yields, require_yields,
    requireResolvedEffects_yields] at h
  obtain ⟨row, _, ⟨rfl, found, state, presented, _⟩, _, _, ⟨_, _, ⟨rfl, rfl⟩, _, rfl⟩,
    _, _, ⟨⟨_, independent⟩, rfl⟩, _, _, ⟨produced, rfl⟩, _, _, ⟨settled, rfl⟩,
    _, mid, ended, updated⟩ := h
  have validating := List.mem_singleton.mp state
  have same := Db.task_taskId found
  rw [← same] at updated ⊢
  exact released_acts ⟨row.lastError, correlationId, c.iso .stamp, c.iso .stamp,
    some (c.iso .stamp)⟩ owned (Db.current_of_file found) (.no_record _ _) ended updated rfl
    (by rw [validating]; rfl) presented (.completion validating independent produced settled) rfl

theorem failTask_atomic {reason : String} (owned : db.Owned) :
    (failTask rt c p correlationId reason).Atomic db fun t db' =>
      (∃ act, (act = .release (.caller p) .retry ∨ act = .release (.caller p) .failure) ∧
        db.Acts p.taskId act db') ∧ (db'.file p.taskId).task = some t := by
  refine Atomic.commits fun db' h => ?_
  simp only [bind_yields, lease_yields, requireResolvedEffects_yields] at h
  obtain ⟨row, _, ⟨rfl, found, state, presented, _⟩, _, _, ⟨settled, rfl⟩, rest⟩ := h
  have active := TaskState.active_of_mem state
  have current := Db.current_of_file found
  have same := Db.task_taskId found
  rw [← same] at rest ⊢
  split at rest
  · rename_i exhausted
    simp only [bind_yields, pure_yields] at rest
    obtain ⟨_, _, recorded, _, _, ⟨rfl, rfl⟩, _, mid, ended, updated⟩ := rest
    obtain ⟨q, recorded⟩ := quarantineRow_writes recorded
    exact ⟨_, .inr rfl, released_acts ⟨some (failureReason rt reason), correlationId,
      c.iso .stamp, row.lastMaterialProgressAt, row.completedAt⟩ owned current recorded ended
      updated rfl active presented (.failure exhausted settled) rfl⟩
  · rename_i left
    simp only [bind_yields, pure_yields] at rest
    obtain ⟨_, _, ⟨rfl, rfl⟩, _, mid, ended, updated⟩ := rest
    exact ⟨_, .inl rfl, released_acts ⟨some (failureReason rt reason), correlationId,
      c.iso .stamp, row.lastMaterialProgressAt, row.completedAt⟩ owned current (.no_record _ _)
      ended updated rfl active presented (.retry (by omega) settled) rfl⟩

theorem blockTask_atomic {reason : String} (owned : db.Owned) :
    (blockTask rt c p correlationId reason).Atomic db fun t db' =>
      (∃ act, (∃ stated, act = .release (.caller p) (.block stated)) ∧
        db.Acts p.taskId act db') ∧ (db'.file p.taskId).task = some t := by
  refine Atomic.after_check Atomic.require fun _ given => ?_
  refine Atomic.commits fun db' h => ?_
  simp only [bind_yields, lease_yields, read_yields, Db.hasUnresolvedEffect_file] at h
  obtain ⟨row, _, ⟨rfl, found, state, presented, _⟩, _, _, ⟨rfl, rfl⟩, _, mid, ended, updated⟩ := h
  have same := Db.task_taskId found
  rw [← same] at updated ⊢
  refine ⟨_, ⟨_, rfl⟩, released_acts ⟨row.lastError, correlationId, c.iso .stamp, c.iso .stamp,
    row.completedAt⟩ owned (Db.current_of_file found) (.no_record _ _) ended updated rfl
    (TaskState.active_of_mem state) presented (.block ?_) rfl⟩
  intro doubt
  simp [doubt.1, doubt.2]

theorem requeueBlocked_atomic {taskId : String} :
    (requeueBlocked c taskId correlationId).Atomic db fun t db' =>
      (∃ act, act = .requeue ∧ db.Acts taskId act db') ∧ (db'.file taskId).task = some t := by
  refine Atomic.commits fun db' h => ⟨_, rfl, ?_⟩
  simp only [bind_yields, read_yields, unwrap_yields, require_yields,
    Db.hasUnresolvedEffect_file] at h
  obtain ⟨_, _, ⟨rfl, rfl⟩, row, _, ⟨found, rfl⟩, _, _, ⟨blocked, rfl⟩, _, _, ⟨rfl, rfl⟩,
    _, db, ⟨settled, rfl⟩, updated⟩ := h
  have found' : (db.file taskId).task = some row := found
  have does := Does.requeue ⟨row.lastError, correlationId, c.iso .stamp, c.iso .stamp,
    row.completedAt⟩ found' blocked settled
  refine (updateTask_writes updated).acts ?_ (by rintro _ ⟨⟩)
  simp only [found', Option.map_some]
  exact does

end Calls

/-! ### Checkpoints and reconciliations -/

/-- What a checkpoint request has become when it reaches the transaction. -/
structure CheckpointContent.Of (content : CheckpointContent) (a : RecordCheckpoint) : Prop where
  checkpointId : content.checkpointId = a.checkpointId
  sequence : content.sequence = a.sequence
  positive : 1 ≤ a.sequence
  effectId : content.effectId = a.effectId
  effectState : EffectState.ofText a.effectState = some content.effectState
  paired : content.effectId = none ↔ content.effectState = .none
  safe : ∀ id ∈ content.effectId, isSafeId id = true
  resolved : content.effectState = .confirmed ∨ content.effectState = .notApplied →
    truthy content.effectResultRef = true

theorem checkpointContent_ok {rt : Runtime} {a : RecordCheckpoint} {content : CheckpointContent}
    {correlationId : String} (h : checkpointContent rt a = .ok (content, correlationId)) :
    content.Of a := by
  unfold checkpointContent at h
  simp only [bind, Except.bind, pure, Except.pure, throw, throwThe, MonadExceptOf.throw] at h
  cases known : EffectState.ofText a.effectState with
  | none => simp [known, refuse_eq_ok] at h
  | some state =>
    simp only [known, refuse_eq_ok] at h
    obtain ⟨-, -, -, safe, paired, positive, -, -, resolved, -, h⟩ := h
    cases h
    refine ⟨rfl, rfl, by omega, rfl, known, ?_, by simpa using safe, ?_⟩
    · simpa [eq_iff_iff, iff_comm] using paired
    · intro settled
      simpa [settled] using resolved

theorem appendCheckpoint_acts {c : Call} {a : RecordCheckpoint} {content : CheckpointContent}
    {digest correlationId : String} {db db' : Db} {t : Task} {r : Checkpoint × Bool} (shape : content.Of a) (found : (db.file a.taskId).task = some t)
    (active : t.state.active = true) (presented : t.Presented a.credential)
    (fenced : t.fencingRequired = true)
    (absent : db.checkpoints.find? (a.taskId, content.checkpointId) = none)
    (h : (appendCheckpoint c a content digest correlationId).Yields db r db') :
    r = (checkpointRow a content digest correlationId (c.iso .stamp), true) ∧
      db.Acts a.taskId (.checkpoint a.credential r.1) db' := by
  simp only [appendCheckpoint, bind_yields, read_yields, require_yields, unwrap_yields,
    pure_yields] at h
  obtain ⟨_, _, ⟨rfl, rfl⟩, _, _, ⟨certain, rfl⟩, _, _, ⟨rfl, rfl⟩, _, db, ⟨sequence, rfl⟩,
    _, mid, inserted, _, _, updated, _, _, ⟨rfl, rfl⟩, created, _, ⟨stored, rfl⟩, rfl, rfl⟩ := h
  obtain ⟨first, kept, positive⟩ := insertCheckpoint_writes inserted
  obtain rfl : checkpointRow a content digest correlationId (c.iso .stamp) = created := by
    rw [updateTask_yields updated] at stored
    exact Option.some.inj (kept.symm.trans stored)
  refine ⟨rfl, ?_⟩
  have generation : a.leaseGeneration = t.leaseGeneration := (presented.generation _ rfl).symm
  have next : content.sequence.toNat = (db.file a.taskId).lastSequence t.leaseGeneration + 1 := by
    rw [Db.lastSequence_file, generation] at sequence
    rw [shape.sequence, sequence]
    omega
  have resolved : ∀ id ∈ content.effectId, (db.file a.taskId).unresolvedUnknown id = false := by
    intro id hid
    rw [shape.effectId] at hid
    rw [← Db.hasUnresolvedUnknown_file]
    simpa [Option.mem_def.mp hid] using certain
  have new : ∀ d ∈ (db.file a.taskId).checkpoints, d.checkpointId ≠ content.checkpointId := by
    intro d hd same
    obtain ⟨hd, task⟩ := List.mem_filter.mp hd
    exact Table.find?_eq_none_iff.mp absent d hd (Prod.ext (of_decide_eq_true task) same)
  have does := Does.checkpoint (checkpointRow a content digest correlationId (c.iso .stamp))
    ⟨t.lastError, correlationId, c.iso .stamp, c.iso .stamp, t.completedAt⟩ found active presented
    fenced (Db.task_taskId found).symm (by simp [checkpointRow, generation])
    (presented.attempt _ rfl) next positive shape.paired shape.safe resolved new
  have first : db.Writes a.taskId _ mid := first
  refine (first.trans (updateTask_writes updated)).acts ?_ (by rintro _ ⟨⟩)
  simp only [found, Option.map_some]
  exact does

/-- What `record_checkpoint` returns: a stored checkpoint of the same content, or a new one. -/
theorem recordCheckpoint_atomic {rt : Runtime} {c : Call} {a : RecordCheckpoint} {db : Db} :
    (recordCheckpoint rt c a).Atomic db fun r db' =>
      ∃ t content correlationId, checkpointContent rt a = .ok (content, correlationId) ∧
        (db.file a.taskId).task = some t ∧ t.state.active = true ∧ t.Presented a.credential ∧
        t.fencingRequired = true ∧
        ((r.2 = false ∧ db' = db ∧ r.1 ∈ (db.file a.taskId).checkpoints ∧
            r.1.checkpointId = a.checkpointId ∧
            r.1.contentDigest = contentDigest rt content.semantic) ∨
          (r.2 = true ∧ db.Acts a.taskId (.checkpoint a.credential r.1) db' ∧
            r.1 = checkpointRow a content (contentDigest rt content.semantic) correlationId
              (c.iso .stamp))) := by
  refine Atomic.after_check ofExcept_atomic fun (content, correlationId) valid => ?_
  refine Atomic.atomically fun r db' h => ?_
  have shape := checkpointContent_ok valid
  simp only [bind_yields, lease_yields, require_yields, read_yields] at h
  obtain ⟨t, _, ⟨rfl, found, state, presented, _⟩, _, _, ⟨fenced, rfl⟩, existing, _,
    ⟨rfl, rfl⟩, rest⟩ := h
  have active := TaskState.active_of_mem state
  refine ⟨t, content, correlationId, valid, found, active, presented, fenced, ?_⟩
  split at rest
  · rename_i stored same
    simp only [bind_yields, require_yields, pure_yields] at rest
    obtain ⟨_, _, ⟨digest, rfl⟩, rfl, rfl⟩ := rest
    obtain ⟨mem, key⟩ := Table.find?_eq_some_iff.mp same
    obtain ⟨task, id⟩ := Prod.mk.inj key
    exact .inl ⟨rfl, rfl, List.mem_filter.mpr ⟨mem, decide_eq_true task⟩,
      id.trans shape.checkpointId, digest⟩
  · rename_i absent
    obtain ⟨rfl, acts⟩ := appendCheckpoint_acts shape found active presented fenced absent rest
    exact .inr ⟨rfl, acts, rfl⟩

theorem appendReconciliation_acts {c : Call} {a : ReconcileEffect} {outcome : Outcome}
    {readbackRef digest : String} {db db' : Db} {t : Task} {r : Reconciliation × Bool}
    (positive : 1 ≤ a.leaseGeneration) (found : (db.file a.taskId).task = some t)
    (h : (appendReconciliation c a outcome readbackRef digest t).Yields db r db') :
    r = (⟨a.taskId, a.effectId, a.leaseGeneration.toNat, outcome, readbackRef, digest,
      strip a.correlationId, c.iso .stamp⟩, true) ∧
      db.Acts a.taskId (.reconcile r.1) db' := by
  simp only [appendReconciliation, bind_yields, read_yields, require_yields, unwrap_yields,
    pure_yields, Option.filter_eq_some_iff] at h
  obtain ⟨_, _, ⟨fenced, rfl⟩, _, _, ⟨⟨blocked, reason⟩, rfl⟩, _, _, ⟨rfl, rfl⟩, current, _,
    ⟨⟨latest, undecided⟩, rfl⟩, _, db, ⟨generation, rfl⟩, _, mid, inserted, _, _, ⟨rfl, rfl⟩,
    created, _, ⟨stored, rfl⟩, rfl, rfl⟩ := h
  obtain ⟨writes, kept⟩ := insertReconciliation_writes inserted
  obtain rfl := Option.some.inj (kept.symm.trans stored)
  refine ⟨rfl, ?_⟩
  rw [Db.latestOfEffect_file] at latest
  have same : current.leaseGeneration = a.leaseGeneration.toNat := by omega
  have does := Does.reconcile ⟨a.taskId, a.effectId, a.leaseGeneration.toNat, outcome,
    readbackRef, digest, strip a.correlationId, c.iso .stamp⟩ found fenced blocked reason latest
    undecided same (Db.task_taskId found).symm
  exact writes.acts does (by rintro _ ⟨⟩)

/-- What `reconcile_effect` returns: a stored reconciliation of the same content, or a new one. -/
theorem reconcileEffect_atomic {rt : Runtime} {c : Call} {a : ReconcileEffect} {db : Db} :
    (reconcileEffect rt c a).Atomic db fun r db' =>
      (r.2 = false ∧ db' = db) ∨ (r.2 = true ∧ db.Acts a.taskId (.reconcile r.1) db') := by
  refine Atomic.after_check Atomic.require fun _ _ => ?_
  refine Atomic.after_check Atomic.require fun _ positive => ?_
  refine Atomic.after_check Atomic.unwrap fun outcome _ => ?_
  refine Atomic.after_check Atomic.require fun _ _ => ?_
  refine Atomic.atomically fun r db' h => ?_
  simp only [bind_yields, read_yields, unwrap_yields] at h
  obtain ⟨_, _, ⟨rfl, rfl⟩, t, _, ⟨found, rfl⟩, existing, db, ⟨rfl, rfl⟩, rest⟩ := h
  split at rest
  · simp only [bind_yields, require_yields, pure_yields] at rest
    obtain ⟨_, _, ⟨_, rfl⟩, rfl, rfl⟩ := rest
    exact .inl ⟨rfl, rfl⟩
  · obtain ⟨rfl, acts⟩ := appendReconciliation_acts positive found rest
    exact .inr ⟨rfl, acts⟩

/-! ### Admission -/

theorem ensureRepositoryLane_still (c : Call) (repository : String) (op : Op) :
    (ensureRepositoryLane c repository).Within (Db.Still op) := by
  refine Within.write fun db => ⟨fun _ => rfl, .inr fun other n limit => ?_⟩
  obtain ⟨lane, found, hn⟩ := Option.map_eq_some_iff.mp limit
  exact Option.map_eq_some_iff.mpr ⟨lane, Table.find?_insertOrIgnore found, hn⟩

theorem enqueuedRow_admitted {rt : Runtime} {a : EnqueueTask} {key branch stamp : String}
    {baseSha : Option String} {attempts : Int} (positive : 1 ≤ attempts) :
    (enqueuedRow rt a key branch baseSha attempts stamp).Admitted where
  state := rfl
  produced := rfl
  builder := rfl
  validator := rfl
  worker := rfl
  token := rfl
  expires := rfl
  attempt := rfl
  reason := rfl
  generation := rfl
  attempts := rfl
  maxAttempts := by
    simp only [enqueuedRow]
    omega

/-- What `enqueue_task` returns: the task of that identity already stored, or a new one. -/
theorem enqueueTask_atomic {rt : Runtime} {c : Call} {a : EnqueueTask} {db : Db} :
    (enqueueTask rt c a).Atomic db fun r db' =>
      ∃ mid, (∀ op, Db.Still op db mid) ∧ ((r.2 = false ∧ db' = mid) ∨
        (r.2 = true ∧ mid.Acts r.1.taskId (.enqueue r.1) db')) := by
  refine Atomic.after_check Atomic.require fun _ _ => ?_
  refine Atomic.after_check Atomic.require fun _ _ => ?_
  refine Atomic.after_check ofExcept_atomic fun branch _ => ?_
  refine Atomic.after_check Atomic.require fun _ positive => ?_
  refine Atomic.atomically fun r db' h => ?_
  simp only [bind_yields, read_yields, require_yields] at h
  obtain ⟨_, _, ⟨rfl, rfl⟩, _, db, ⟨_, rfl⟩, _, _, ensured, existing, mid, ⟨rfl, rfl⟩, rest⟩ := h
  refine ⟨mid, fun op => (ensureRepositoryLane_still c _ op).yields ensured, ?_⟩
  split at rest
  · simp only [bind_yields, require_yields, pure_yields] at rest
    obtain ⟨_, _, ⟨_, rfl⟩, _, _, ⟨_, rfl⟩, rfl, rfl⟩ := rest
    exact .inl ⟨rfl, rfl⟩
  · simp only [bind_yields, getTask_yields, pure_yields] at rest
    obtain ⟨_, _, inserted, row, _, ⟨found, rfl⟩, rfl, rfl⟩ := rest
    obtain ⟨writes, absent⟩ := insertTask_writes inserted
    have stored := congrArg TaskFile.task writes.file
    obtain rfl := Option.some.inj (stored.symm.trans found)
    exact .inr ⟨rfl, writes.acts (.enqueue absent (enqueuedRow_admitted positive)) (by rintro _ ⟨⟩)⟩

end WorkerPool
