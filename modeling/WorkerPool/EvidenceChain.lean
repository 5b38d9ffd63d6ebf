import WorkerPool.Admission
import WorkerPool.Merges

/-!
# The chain of evidence

What ties a work item to its task, in two tables that are written in separate transactions: no
transaction takes back a work item, its evidence, or a completed task, and each call writes
what it has read of the other table before.
-/

namespace WorkerPool

open PyText Transaction Transaction.Tx Transition Program
open Transition.System (Reachable Steps)

structure WorkRun.SameEvidence (row row' : WorkRun) : Prop where
  state : row'.evidenceState = row.evidenceState
  run : row'.validationRunId = row.validationRunId
  sha : row'.validationSha = row.validationSha
  reference : row'.evidenceReference = row.evidenceReference
  readback : row'.independentReadback = row.independentReadback
  positive : row'.positiveControl = row.positiveControl
  negative : row'.negativeControl = row.negativeControl
  head : row'.expectedHeadSha = row.expectedHeadSha

/-- A task stays the same task, and a completed one the same row. -/
structure Task.Persists (t t' : Task) : Prop where
  identity : t.SameIdentity t'
  completed : t.state = .completed → t' = t

structure WorkRun.Persists (row row' : WorkRun) : Prop where
  task : row'.taskId = row.taskId
  evidence : row.evidenceState = .verified → row.SameEvidence row'

/-- What no transaction takes back. -/
structure WorkDb.Advances (s t : WorkDb) : Prop where
  runs : ∀ workId row, s.runs.find? workId = some row →
    ∃ row', t.runs.find? workId = some row' ∧ row.Persists row'
  tasks : ∀ taskId task, s.pool.db.tasks.find? taskId = some task →
    ∃ task', t.pool.db.tasks.find? taskId = some task' ∧ task.Persists task'

section Advances

theorem WorkRun.SameEvidence.refl (row : WorkRun) : row.SameEvidence row :=
  ⟨rfl, rfl, rfl, rfl, rfl, rfl, rfl, rfl⟩

theorem WorkRun.SameEvidence.trans {row row' row'' : WorkRun} (h : row.SameEvidence row')
    (h' : row'.SameEvidence row'') : row.SameEvidence row'' :=
  ⟨h'.state.trans h.state, h'.run.trans h.run, h'.sha.trans h.sha, h'.reference.trans h.reference,
    h'.readback.trans h.readback, h'.positive.trans h.positive, h'.negative.trans h.negative,
    h'.head.trans h.head⟩

theorem WorkRun.SameEvidence.symm {row row' : WorkRun} (h : row.SameEvidence row') :
    row'.SameEvidence row :=
  ⟨h.state.symm, h.run.symm, h.sha.symm, h.reference.symm, h.readback.symm, h.positive.symm,
    h.negative.symm, h.head.symm⟩

theorem Task.Persists.refl (t : Task) : t.Persists t := ⟨⟨rfl, rfl⟩, fun _ => rfl⟩

theorem Task.Persists.trans {t t' t'' : Task} (h : t.Persists t') (h' : t'.Persists t'') :
    t.Persists t'' where
  identity := ⟨h'.identity.taskId.trans h.identity.taskId, h'.identity.key.trans h.identity.key⟩
  completed done := by
    have same := h.completed done
    rw [h'.completed (same ▸ done), same]

theorem WorkRun.Persists.refl (row : WorkRun) : row.Persists row := ⟨rfl, fun _ => .refl row⟩

theorem WorkRun.Persists.trans {row row' row'' : WorkRun} (h : row.Persists row')
    (h' : row'.Persists row'') : row.Persists row'' where
  task := h'.task.trans h.task
  evidence verified := by
    have same := h.evidence verified
    exact same.trans (h'.evidence (same.state.trans verified))

instance : Std.Refl WorkDb.Advances :=
  ⟨fun _ => ⟨fun _ row found => ⟨row, found, .refl row⟩, fun _ task found => ⟨task, found, .refl task⟩⟩⟩

instance : IsTrans WorkDb WorkDb.Advances where
  trans s t u h h' := by
    constructor
    · intro workId row found
      obtain ⟨row', found', first⟩ := h.runs workId row found
      obtain ⟨row'', found'', second⟩ := h'.runs workId row' found'
      exact ⟨row'', found'', first.trans second⟩
    · intro taskId task found
      obtain ⟨task', found', first⟩ := h.tasks taskId task found
      obtain ⟨task'', found'', second⟩ := h'.tasks taskId task' found'
      exact ⟨task'', found'', first.trans second⟩

end Advances

/-! ### The pool -/

section Pool

variable {rt : Runtime} {s s' : Pool}

/-- A call of the pool keeps every task, and completed ones as they are. -/
theorem step_persists {l : Call × Op} (h : (pool rt).Reachable s) (st : (pool rt).step s l s')
    {taskId : String} {task : Task} (found : s.db.tasks.find? taskId = some task) :
    ∃ task', s'.db.tasks.find? taskId = some task' ∧ task.Persists task' := by
  obtain ⟨c, op⟩ := l
  refine step_lifeCycle (P := fun f => ∃ task', f.task = some task' ∧ task.Persists task') h st
    taskId ?_ ⟨task, found, .refl task⟩
  rintro f act f' - - ⟨t, stored, kept⟩ does
  obtain ⟨t', stored', same⟩ := does.identified stored
  refine ⟨t', stored', kept.trans ⟨same, fun done => ?_⟩⟩
  have still := does.final stored (by rw [done]; rfl)
  exact Option.some.inj (stored'.symm.trans still)

/-- The transaction of `enqueue_task` is a call of the pool. -/
theorem enqueue_after (c : Call) (a : EnqueueTask) (s : WorkDb) :
    ((WorkRequest.enqueue c a).run rt s).2 = { s with pool := s.pool.after rt c (.enqueueTask a) } := by
  have same : ((Op.enqueueTask a).run rt c s.pool.db).2 = (enqueueTask rt c a s.pool.db).2 := by
    change (Tx.bind (enqueueTask rt c a) _ s.pool.db).2 = _
    unfold Tx.bind
    cases enqueueTask rt c a s.pool.db with
    | mk result db => cases result <;> rfl
  unfold Pool.after
  rw [same]
  rfl

theorem enqueue_step (c : Call) (a : EnqueueTask) (s : WorkDb) :
    (pool rt).step s.pool (c, .enqueueTask a) ((WorkRequest.enqueue c a).run rt s).2.pool := by
  rw [enqueue_after]
  exact ⟨⟨List.nodup_nil, fun _ h => nomatch h⟩, rfl⟩

/-- The task that `enqueue_task` returns is stored. -/
theorem enqueueTask_stored {c : Call} {a : EnqueueTask} {db db' : Db} {r : Task × Bool}
    (h : (enqueueTask rt c a).Yields db r db') : db'.tasks.find? r.1.taskId = some r.1 := by
  simp only [enqueueTask, bind_yields, require_yields, ofExcept_yields, atomically_yields,
    read_yields, ensureRepositoryLane_yields] at h
  obtain ⟨_, _, ⟨_, rfl⟩, _, _, ⟨_, rfl⟩, branch, _, ⟨_, rfl⟩, _, _, ⟨_, rfl⟩,
    _, _, ⟨rfl, rfl⟩, _, db, ⟨_, rfl⟩, _, _, rfl, existing, _, ⟨found, rfl⟩, rest⟩ := h
  cases existing with
  | some row =>
    simp only [bind_yields, require_yields, pure_yields] at rest
    obtain ⟨_, _, ⟨_, rfl⟩, _, _, ⟨_, rfl⟩, rfl, rfl⟩ := rest
    exact Table.find?_of_mem (List.mem_of_find?_eq_some found.symm)
  | none =>
    simp only [bind_yields, getTask_yields, pure_yields] at rest
    obtain ⟨_, _, inserted, row, _, ⟨stored, rfl⟩, rfl, rfl⟩ := rest
    have name := Table.key_of_find? stored
    rw [← name] at stored
    exact stored

end Pool

/-! ### Requests -/

section Requests

variable {rt : Runtime} {s t : WorkDb}

theorem task_reads (taskId : String) (s : WorkDb) : ((WorkRequest.task taskId).run rt s).2 = s := by
  have unchanged : (getTask taskId).Within Eq := (Within.read _).bind fun _ => .unwrap _ _
  have same : (getTask taskId s.pool.db).2 = s.pool.db := (unchanged s.pool.db).symm
  change { s with pool := { s.pool with db := (getTask taskId s.pool.db).2 } } = s
  rw [same]

theorem WorkDb.Advances.of_runs (pool : t.pool = s.pool)
    (runs : ∀ workId (row : WorkRun), s.runs.find? workId = some row →
      ∃ row', t.runs.find? workId = some row' ∧ row.Persists row') : s.Advances t :=
  ⟨runs, fun _ task found => ⟨task, pool ▸ found, .refl task⟩⟩

/-- An `UPDATE` that keeps what persists of each row. -/
theorem updateRow_advances (workId : String) (f : WorkRun → WorkRun) (keeps)
    (persists : ∀ row : WorkRun, row.Persists (f row)) (s : WorkDb) :
    s.Advances (updateRow workId f keeps s).2 := by
  refine .of_runs rfl fun other row found => ?_
  have after := find?_updateRow workId other f keeps s
  rw [found] at after
  by_cases mine : other = workId
  · exact ⟨f row, after.trans (if_pos mine), persists row⟩
  · exact ⟨row, after.trans (if_neg mine), .refl row⟩

theorem WorkRun.verified_persists (v sha e c stamp : String) (row : WorkRun) :
    row.Persists (row.verified v sha e c stamp) := by
  unfold WorkRun.verified
  by_cases pending : row.evidenceState = .pending
  · rw [if_pos pending]
    exact ⟨rfl, fun verified => by simp [pending] at verified⟩
  · rw [if_neg pending]
    exact .refl row

theorem WorkRequest.run_advances (q : WorkRequest) (h : (pool rt).Reachable s.pool) :
    s.Advances (q.run rt s).2 ∧ (pool rt).Reachable (q.run rt s).2.pool := by
  cases q with
  | row => exact ⟨Std.Refl.refl s, h⟩
  | task =>
    rw [task_reads]
    exact ⟨Std.Refl.refl s, h⟩
  | enqueue c a =>
    have step : (pool rt).step _ _ _ := enqueue_step c a s
    refine ⟨⟨fun _ row found => ⟨row, ?_, .refl row⟩, fun _ _ found => step_persists h step found⟩,
      h.step step⟩
    rw [enqueue_after]
    exact found
  | create workId taskId policy correlationId stamp =>
    rcases createRow_runs workId taskId policy correlationId stamp s with
      same | ⟨runs, inserted, -, same⟩
    · have same : ((WorkRequest.create workId taskId policy correlationId stamp).run rt s).2 = s :=
        same
      rw [same]
      exact ⟨Std.Refl.refl s, h⟩
    · have same : ((WorkRequest.create workId taskId policy correlationId stamp).run rt s).2 =
          { s with runs := runs } := same
      rw [same]
      refine ⟨.of_runs rfl fun other row found => ⟨row, ?_, .refl row⟩, h⟩
      refine (Table.find?_insert inserted other).trans ((if_neg fun eq => ?_).trans found)
      rw [eq] at found
      cases (Table.insert?_eq_some_iff.mp inserted).1.symm.trans found
  | verify => exact ⟨updateRow_advances _ _ _ (WorkRun.verified_persists _ _ _ _ _) s, h⟩
  | setMerge =>
    refine ⟨updateRow_advances _ _ _ (fun row => ?_) s, h⟩
    exact ⟨rfl, fun _ => ⟨rfl, rfl, rfl, rfl, rfl, rfl, rfl, rfl⟩⟩

end Requests

/-! ### What a work item vouches for -/

/-- All three controls, and the revision of the completed task. -/
structure WorkRun.Proven (row : WorkRun) (rt : Runtime) (db : Db) : Prop where
  controls : row.independentReadback = true ∧ row.positiveControl = true ∧ row.negativeControl = true
  revision : ∃ task produced, db.tasks.find? row.taskId = some task ∧ task.state = .completed ∧
    task.producedSha = some produced ∧ row.validationSha = some (rt.lower produced) ∧
    row.expectedHeadSha = some (rt.lower produced)

structure WorkRun.Sound (row : WorkRun) (rt : Runtime) (db : Db) : Prop where
  task : ∃ task, db.tasks.find? row.taskId = some task ∧ row.workId = workIdOf task
  evidence : row.evidenceState = .verified → row.Proven rt db
  result : row.mergeState ≠ .pending → row.evidenceState = .verified
  merged : row.mergeState = .merged → ∃ sha, row.mergeCommitSha = some sha ∧ isSha40 sha = true

structure WorkDb.Sound (rt : Runtime) (s : WorkDb) : Prop where
  pool : (WorkerPool.pool rt).Reachable s.pool
  rows : ∀ row ∈ s.runs.rows, row.Sound rt s.pool.db
  tasks : (s.runs.rows.map WorkRun.taskId).Nodup

/-- What a call has found out before it writes to `work_runs`. -/
def WorkRequest.Fits (rt : Runtime) (s : WorkDb) : WorkRequest → Prop
  | .create workId taskId _ _ _ => ∃ task, s.pool.db.tasks.find? taskId = some task ∧
      workId = workIdOf task
  | .verify workId _ sha _ _ _ => ∃ row task produced, s.runs.find? workId = some row ∧
      s.pool.db.tasks.find? row.taskId = some task ∧ task.state = .completed ∧
      task.producedSha = some produced ∧ sha = rt.lower produced
  | .setMerge workId state commit _ _ _ _ => state ≠ .pending ∧
      (state = .merged → ∃ sha, commit = some sha ∧ isSha40 sha = true) ∧
      ∃ row, s.runs.find? workId = some row ∧ row.evidenceState = .verified
  | _ => True

section Sound

variable {rt : Runtime} {s t : WorkDb}

theorem Task.SameIdentity.workIdOf {t t' : Task} (h : t.SameIdentity t') :
    WorkerPool.workIdOf t' = WorkerPool.workIdOf t := by
  unfold WorkerPool.workIdOf
  rw [h.key]

theorem WorkRequest.Fits.stable {q : WorkRequest} (h : q.Fits rt s) (others : s.Advances t) :
    q.Fits rt t := by
  cases q with
  | row | task | enqueue => trivial
  | create workId taskId =>
    obtain ⟨task, found, named⟩ := h
    obtain ⟨task', found', kept⟩ := others.tasks taskId task found
    exact ⟨task', found', named.trans kept.identity.workIdOf.symm⟩
  | verify workId =>
    obtain ⟨row, task, produced, stored, found, done, handed, lower⟩ := h
    obtain ⟨row', stored', same⟩ := others.runs workId row stored
    obtain ⟨task', found', kept⟩ := others.tasks row.taskId task found
    obtain rfl := kept.completed done
    exact ⟨row', task', produced, stored', same.task ▸ found', done, handed, lower⟩
  | setMerge workId =>
    obtain ⟨next, commit, row, stored, verified⟩ := h
    obtain ⟨row', stored', same⟩ := others.runs workId row stored
    exact ⟨next, commit, row', stored', (same.evidence verified).state.trans verified⟩

/-- A row stays sound while tasks persist. -/
theorem WorkRun.Sound.stable {row : WorkRun} (h : row.Sound rt s.pool.db)
    (others : s.Advances t) : row.Sound rt t.pool.db where
  task := by
    obtain ⟨task, found, named⟩ := h.task
    obtain ⟨task', found', kept⟩ := others.tasks row.taskId task found
    exact ⟨task', found', named.trans kept.identity.workIdOf.symm⟩
  evidence verified := by
    obtain ⟨controls, task, sha, found, done, rest⟩ := h.evidence verified
    obtain ⟨task', found', kept⟩ := others.tasks row.taskId task found
    obtain rfl := kept.completed done
    exact ⟨controls, task', sha, found', done, rest⟩
  result := h.result
  merged := h.merged

/-- An `UPDATE` after which the row it finds is sound. -/
theorem updateRow_sound {workId : String} {f : WorkRun → WorkRun} {keeps}
    (task : ∀ row, (f row).taskId = row.taskId) (h : s.Sound rt)
    (found : ∀ row, s.runs.find? workId = some row → (f row).Sound rt s.pool.db) :
    (updateRow workId f keeps s).2.Sound rt := by
  refine ⟨h.pool, fun row hr => ?_, ?_⟩
  · obtain ⟨old, hold, rfl⟩ := List.mem_map.mp hr
    by_cases mine : old.workId = workId
    · rw [if_pos mine]
      exact found old (mine ▸ Table.find?_of_mem hold)
    · rw [if_neg mine]
      exact h.rows old hold
  · have same : (updateRow workId f keeps s).2.runs.rows.map WorkRun.taskId =
        s.runs.rows.map WorkRun.taskId := by
      change (s.runs.modify workId f keeps).rows.map WorkRun.taskId = _
      rw [Table.rows_modify, List.map_map]
      refine List.map_congr_left fun row _ => ?_
      by_cases mine : row.workId = workId
      · simp [mine, task]
      · simp [mine]
    rw [same]
    exact h.tasks

theorem createRow_sound {workId taskId policy correlationId stamp : String} (h : s.Sound rt)
    (fits : (WorkRequest.create workId taskId policy correlationId stamp).Fits rt s) :
    (createRow workId taskId policy correlationId stamp s).2.Sound rt := by
  rcases createRow_runs workId taskId policy correlationId stamp s with
    same | ⟨runs, inserted, free, same⟩
  · rw [same]
    exact h
  · rw [same]
    obtain ⟨task, found, named⟩ := fits
    obtain ⟨-, rows⟩ := Table.insert?_eq_some_iff.mp inserted
    refine ⟨h.pool, fun row hr => ?_, ?_⟩
    · rw [rows] at hr
      rcases List.mem_append.mp hr with old | new
      · exact h.rows row old
      · rw [List.mem_singleton.mp new]
        exact ⟨⟨task, found, named⟩, nofun, fun result => absurd rfl result, nofun⟩
    · rw [rows, List.map_append, List.map_singleton, List.nodup_append]
      refine ⟨h.tasks, List.nodup_singleton _, fun a old b new => ?_⟩
      obtain ⟨row, hr, rfl⟩ := List.mem_map.mp old
      rw [List.mem_singleton.mp new]
      exact free row hr

theorem verify_sound {workId runId sha reference correlationId stamp : String}
    (h : s.Sound rt)
    (fits : (WorkRequest.verify workId runId sha reference correlationId stamp).Fits rt s) :
    (updateRow workId (WorkRun.verified runId sha reference correlationId stamp)
      (WorkRun.verified_workId _ _ _ _ _) s).2.Sound rt := by
  have same : ∀ row : WorkRun, (row.verified runId sha reference correlationId stamp).taskId =
      row.taskId := fun row => (WorkRun.verified_persists _ _ _ _ _ row).task
  refine updateRow_sound same h fun row stored => ?_
  have sound := h.rows row (Table.mem_of_find? stored)
  obtain ⟨row', task, produced, stored', found, done, handed, rfl⟩ := fits
  obtain rfl := Option.some.inj (stored'.symm.trans stored)
  unfold WorkRun.verified
  by_cases pending : row'.evidenceState = .pending
  · rw [if_pos pending]
    refine ⟨sound.task, fun _ => ?_, fun _ => rfl, nofun⟩
    exact ⟨⟨rfl, rfl, rfl⟩, task, produced, found, done, handed, rfl, rfl⟩
  · rw [if_neg pending]
    exact sound

theorem setMerge_sound {workId : String} {state : MergeState} {commit reason : Option String}
    {correlationId stamp : String} {mergedAt : Option String} (h : s.Sound rt)
    (fits : (WorkRequest.setMerge workId state commit reason correlationId stamp mergedAt).Fits rt s) :
    (updateRow workId (WorkRun.withMerge state commit reason correlationId stamp mergedAt)
      (fun _ => rfl) s).2.Sound rt := by
  refine updateRow_sound (fun _ => rfl) h fun row stored => ?_
  have sound := h.rows row (Table.mem_of_find? stored)
  obtain ⟨-, valid, row', stored', verified⟩ := fits
  obtain rfl := Option.some.inj (stored'.symm.trans stored)
  have proven := sound.evidence verified
  exact ⟨sound.task, fun _ => ⟨proven.controls, proven.revision⟩, fun _ => verified, valid⟩

theorem WorkRequest.run_sound {q : WorkRequest} (fits : q.Fits rt s) (h : s.Sound rt) :
    (q.run rt s).2.Sound rt := by
  have others := WorkRequest.run_advances q h.pool
  cases q with
  | row => exact h
  | task =>
    rw [task_reads]
    exact h
  | enqueue c a =>
    rw [enqueue_after] at others ⊢
    exact ⟨others.2, fun row hr => (h.rows row hr).stable others.1, h.tasks⟩
  | create => exact createRow_sound h fits
  | verify => exact verify_sound h fits
  | setMerge => exact setMerge_sound h fits

end Sound

/-! ### The calls -/

/-- How every `SELECT` is answered. -/
structure WorkRequest.Selects
    (exec : (q : WorkRequest) → WorkDb → Except PoolError q.Reply × WorkDb) : Prop where
  row : ∀ workId s, exec (.row workId) s = (.ok (s.runs.find? workId), s)
  task : ∀ taskId s, exec (.task taskId) s = (match s.pool.db.tasks.find? taskId with
    | some found => .ok found
    | none => .error (.notFound "registro não encontrado"), s)

theorem WorkRequest.run_selects (rt : Runtime) : WorkRequest.Selects (WorkRequest.run rt) where
  row _ _ := rfl
  task taskId s := by
    refine Prod.ext ?_ (task_reads taskId s)
    change (getTask taskId s.pool.db).1 = _
    cases found : s.pool.db.tasks.find? taskId with
    | none =>
      have fails : (getTask taskId).Fails s.pool.db (.notFound "registro não encontrado")
          s.pool.db := by simp [getTask, found]
      exact congrArg Prod.fst fails
    | some task =>
      have yields : (getTask taskId).Yields s.pool.db task s.pool.db := by simp [getTask, found]
      exact congrArg Prod.fst yields

section Selects

variable {exec : (q : WorkRequest) → WorkDb → Except PoolError q.Reply × WorkDb}
  {guarantee : WorkDb → WorkDb → Prop} {s : WorkDb}

theorem row_advances {workId : String} {post : Except PoolError WorkRun → WorkDb → Prop}
    (selects : WorkRequest.Selects exec) (still : ∀ t, guarantee t t)
    (absent : ∀ t, s.Advances t → t.runs.find? workId = none → ∀ u, t.Advances u →
      post (.error (.notFound ("work não encontrado: " ++ workId))) u)
    (found : ∀ t row, s.Advances t → t.runs.find? workId = some row → ∀ u, t.Advances u →
      post (.ok row) u) : (WorkProgram.row workId).Secures exec WorkDb.Advances guarantee post s := by
  refine .bind (.request fun t others => ?_)
  rw [selects.row]
  refine ⟨still t, fun u next => ?_⟩
  cases stored : t.runs.find? workId with
  | none => exact fun v later => absent t others stored v (IsTrans.trans _ _ _ next later)
  | some row => exact fun v later => found t row others stored v (IsTrans.trans _ _ _ next later)

theorem task_advances {taskId : String} {post : Except PoolError Task → WorkDb → Prop}
    (selects : WorkRequest.Selects exec) (still : ∀ t, guarantee t t)
    (absent : ∀ t, s.Advances t → t.pool.db.tasks.find? taskId = none → ∀ u, t.Advances u →
      post (.error (.notFound "registro não encontrado")) u)
    (found : ∀ t task, s.Advances t → t.pool.db.tasks.find? taskId = some task → ∀ u,
      t.Advances u → post (.ok task) u) :
    (WorkProgram.getTask taskId).Secures exec WorkDb.Advances guarantee post s := by
  refine .request fun t others => ?_
  rw [selects.task]
  refine ⟨still t, fun u next => ?_⟩
  cases stored : t.pool.db.tasks.find? taskId with
  | none => exact absent t others stored u next
  | some task => exact found t task others stored u next

theorem view_advances {row : WorkRun} {post : Except PoolError WorkView → WorkDb → Prop}
    (selects : WorkRequest.Selects exec) (still : ∀ t, guarantee t t)
    (absent : ∀ e t, post (.error e) t)
    (shown : ∀ v : WorkView, v.row = row → ∀ t, s.Advances t → post (.ok v) t) :
    (WorkProgram.view row).Secures exec WorkDb.Advances guarantee post s := by
  refine .bind (task_advances selects still (fun _ _ _ u _ => absent _ u) ?_)
  intro t task before _ u after v next
  exact shown _ rfl v (IsTrans.trans _ _ _ before (IsTrans.trans _ _ _ after next))

theorem getWork_advances {workId : String} {post : Except PoolError WorkView → WorkDb → Prop}
    (selects : WorkRequest.Selects exec) (still : ∀ t, guarantee t t)
    (absent : ∀ e t, post (.error e) t)
    (shown : ∀ v : WorkView, ∀ t, s.Advances t → t.runs.find? workId = some v.row →
      ∀ u, t.Advances u → post (.ok v) u) :
    (getWork workId).Secures exec WorkDb.Advances guarantee post s := by
  refine .bind (row_advances selects still (fun _ _ _ u _ => absent _ u) ?_)
  intro t row before stored u after
  refine view_advances selects still absent fun v same w next => ?_
  exact shown v t before (same ▸ stored) w (IsTrans.trans _ _ _ after next)

end Selects

section Calls

variable {rt : Runtime} {s : WorkDb}

/-- A sound state stays sound, and advances. -/
def Preserves (rt : Runtime) (s t : WorkDb) : Prop := s.Sound rt → t.Sound rt ∧ s.Advances t

theorem Preserves.refl (s : WorkDb) : Preserves rt s s := fun sound => ⟨sound, Std.Refl.refl s⟩

/-- A program that keeps the chain, among others that do. -/
abbrev WorkProgram.Chained {α : Type} (rt : Runtime) (post : Except PoolError α → WorkDb → Prop)
    (p : WorkProgram α) (s : WorkDb) : Prop :=
  p.Secures (WorkRequest.run rt) WorkDb.Advances (Preserves rt) post s

theorem request_chained {q : WorkRequest} {post : Except PoolError q.Reply → WorkDb → Prop}
    (fits : q.Fits rt s)
    (h : ∀ t, s.Advances t → ∀ u, (q.run rt t).2.Advances u → post (q.run rt t).1 u) :
    WorkProgram.Chained rt post (Program.request q) s := by
  refine .request fun t others => ⟨fun sound => ?_, fun u next => h t others u next⟩
  exact ⟨WorkRequest.run_sound (fits.stable others) sound,
    (WorkRequest.run_advances q sound.pool).1⟩

theorem getWork_chained (workId : String) :
    WorkProgram.Chained rt (fun _ _ => True) (getWork workId) s :=
  getWork_advances (WorkRequest.run_selects rt) Preserves.refl (fun _ _ => trivial)
    fun _ _ _ _ _ _ => trivial

theorem view_chained (row : WorkRun) :
    WorkProgram.Chained rt (fun _ _ => True) (WorkProgram.view row) s :=
  view_advances (WorkRequest.run_selects rt) Preserves.refl (fun _ _ => trivial)
    fun _ _ _ _ => trivial

theorem createWork_chained (c : Call) (a : CreateWork) :
    WorkProgram.Chained rt (fun _ _ => True) (createWork c a) s := by
  refine .bind (.need (fun _ s₁ _ => ?_) fun _ _ _ => trivial)
  refine .bind (request_chained trivial fun t _ u next => ?_)
  cases returned : ((WorkRequest.enqueue c a.task).run rt t).1 with
  | error e => trivial
  | ok r =>
    have yields : (enqueueTask rt c a.task).Yields t.pool.db r (enqueueTask rt c a.task t.pool.db).2 :=
      Prod.ext returned rfl
    obtain ⟨task, found, same⟩ := next.tasks _ _ (enqueueTask_stored yields)
    have fits : (WorkRequest.create (workIdOf r.1) r.1.taskId a.mergePolicy a.task.correlationId
        (c.iso .stamp)).Fits rt u := ⟨task, found, same.identity.workIdOf.symm⟩
    refine .bind (request_chained fits fun t _ u _ => ?_)
    cases ((WorkRequest.create (workIdOf r.1) r.1.taskId a.mergePolicy a.task.correlationId
        (c.iso .stamp)).run rt t).1 with
    | error e => trivial
    | ok made => exact getWork_chained _

theorem recordEvidence_chained (c : Call) (a : RecordEvidence) :
    WorkProgram.Chained rt (fun _ _ => True) (recordEvidence rt c a) s := by
  refine .bind (.need (fun _ s₁ _ => ?_) fun _ _ _ => trivial)
  refine .bind (.need (fun _ s₂ _ => ?_) fun _ _ _ => trivial)
  refine .bind (.need (fun _ s₃ _ => ?_) fun _ _ _ => trivial)
  have selects := WorkRequest.run_selects rt
  refine .bind (row_advances selects Preserves.refl (fun _ _ _ _ _ => trivial) ?_)
  intro t row _ stored u after
  refine .bind (task_advances selects Preserves.refl (fun _ _ _ _ _ => trivial) ?_)
  intro t₁ task before found u₁ after₁
  refine .bind (.need (fun validated s₄ others₄ => ?_) fun _ _ _ => trivial)
  refine .bind (.need (fun agrees s₅ others₅ => ?_) fun _ _ _ => trivial)
  by_cases verified : row.evidenceState = .verified
  · simp only [verified, ↓reduceIte]
    refine .bind (.need (fun _ _ _ => ?_) fun _ _ _ => trivial)
    exact view_chained row
  · simp only [verified, ↓reduceIte]
    obtain ⟨row', stored', same⟩ := (IsTrans.trans _ _ _ after before : t.Advances t₁).runs _ _ stored
    have fits : (WorkRequest.verify a.workId (strip a.validationRunId)
        (rt.lower (strip a.validationSha)) (strip a.evidenceReference) (strip a.correlationId)
        (c.iso .stamp)).Fits rt t₁ := by
      obtain ⟨done, truth⟩ := validated
      cases handed : task.producedSha with
      | none => simp [handed, truthy] at truth
      | some produced =>
        refine ⟨row', task, produced, stored', same.task ▸ found, done, handed, ?_⟩
        rw [agrees, handed]
        rfl
    have now := ((fits.stable after₁).stable others₄).stable others₅
    refine .bind (request_chained now fun t _ u _ => ?_)
    cases ((WorkRequest.verify a.workId (strip a.validationRunId)
        (rt.lower (strip a.validationSha)) (strip a.evidenceReference) (strip a.correlationId)
        (c.iso .stamp)).run rt t).1 with
    | error e => trivial
    | ok done => exact getWork_chained _

/-- A result is recorded as merged with a commit, or as blocked. -/
theorem RecordMergeResult.nextState_commit {a : RecordMergeResult} {state : MergeState}
    (h : a.nextState rt = .ok state) : state ≠ .pending ∧
      (state = .merged → ∃ sha, a.commit rt = some sha ∧ isSha40 sha = true) := by
  unfold RecordMergeResult.nextState at h
  split at h
  · split at h
    · rename_i valid
      cases h
      exact ⟨nofun, fun _ => by simpa [Option.any_eq_true] using valid⟩
    · cases h
  · split at h
    · cases h
    · split at h
      · cases h
      · cases h
        exact ⟨nofun, nofun⟩

theorem recordMergeResult_chained (c : Call) (a : RecordMergeResult) :
    WorkProgram.Chained rt (fun _ _ => True) (recordMergeResult rt c a) s := by
  refine .bind (.need (fun _ s₁ _ => ?_) fun _ _ _ => trivial)
  have selects := WorkRequest.run_selects rt
  refine .bind (row_advances selects Preserves.refl (fun _ _ _ _ _ => trivial) ?_)
  intro t row _ stored u after
  refine .bind (task_advances selects Preserves.refl (fun _ _ _ _ _ => trivial) ?_)
  intro t₁ task before found u₁ after₁
  refine .bind (.need (fun known s₄ others₄ => ?_) fun _ _ _ => trivial)
  refine .bind (.need (fun _ s₅ others₅ => ?_) fun _ _ _ => trivial)
  refine .bind (.ofExcept fun s₆ others₆ => ?_)
  cases next : a.nextState rt with
  | error e => trivial
  | ok state =>
    have since : t.Advances s₆ := IsTrans.trans _ _ _ (IsTrans.trans _ _ _ after before)
      (IsTrans.trans _ _ _ (IsTrans.trans _ _ _ after₁ others₄) (IsTrans.trans _ _ _ others₅ others₆))
    obtain ⟨row', stored', same⟩ := since.runs _ _ stored
    obtain ⟨result, commit⟩ := RecordMergeResult.nextState_commit next
    have fits : ∀ stamp mergedAt, (WorkRequest.setMerge a.workId state (a.commit rt)
        (a.normalizedReason rt) (strip a.correlationId) stamp mergedAt).Fits rt s₆ := fun _ _ =>
      ⟨result, commit, row', stored', (same.evidence known.1).state.trans known.1⟩
    by_cases merged : row.mergeState = .merged
    · simp only [merged, ↓reduceIte]
      refine .bind (.need (fun _ _ _ => ?_) fun _ _ _ => trivial)
      exact view_chained row
    · simp only [merged, ↓reduceIte]
      by_cases blocked : row.mergeState = .blocked ∧ ¬ a.merged = true
      · rw [if_pos blocked]
        refine .bind (.need (fun _ _ _ => ?_) fun _ _ _ => trivial)
        exact view_chained row
      · rw [if_neg blocked]
        refine .bind (request_chained (fits _ _) fun t _ u _ => ?_)
        cases ((WorkRequest.setMerge a.workId state (a.commit rt) (a.normalizedReason rt)
            (strip a.correlationId) (c.iso .stamp)
            (if a.merged = true then some (c.iso .stamp) else none)).run rt t).1 with
        | error e => trivial
        | ok done => exact getWork_chained _

end Calls

/-! ### Runs -/

section Runs

variable {rt : Runtime} {w w' : WorkWorld}

/-- The step begins in a sound state. -/
def FromSound (rt : Runtime) (w : WorkWorld) (_ : WorkLabel) (_ : WorkWorld) : Prop :=
  w.shared.Sound rt

theorem around_advances {s t : WorkDb} {l : Call × Op} (h : (pool rt).Reachable s.pool)
    (step : (pool rt).step s.pool l t.pool) (runs : t.runs = s.runs) : s.Advances t :=
  ⟨fun _ row found => ⟨row, runs ▸ found, .refl row⟩, fun _ _ found => step_persists h step found⟩

/-- What the surroundings do in a sound state. -/
theorem around_preserves {s t : WorkDb} {l : Call × Op} (step : (pool rt).step s.pool l t.pool)
    (runs : t.runs = s.runs) : Preserves rt s t := by
  intro sound
  have advances := around_advances sound.pool step runs
  refine ⟨⟨sound.pool.step step, fun row hr => ?_, ?_⟩, advances⟩
  · rw [runs] at hr
    exact (sound.rows row hr).stable advances
  · rw [runs]
    exact sound.tasks

theorem bodies_chained (rt : Runtime) : Threads.Bodies (WorkRequest.run rt) (WorkOp.body rt)
    (fun _ => WorkDb.Advances) (fun _ => Preserves rt) fun _ _ _ => True := by
  intro op s
  cases op with
  | createWork c a => exact createWork_chained c a
  | getWork workId => exact getWork_chained workId
  | recordEvidence c a => exact recordEvidence_chained c a
  | recordMergeResult c a => exact recordMergeResult_chained c a

theorem fromSound_respected (rt : Runtime) : Threads.Respected (WorkRequest.run rt)
    (fun _ : WorkOp => WorkDb.Advances) (fun _ => Preserves rt) (FromSound rt)
    fun s l t => (pool rt).step s.pool l t.pool ∧ t.runs = s.runs where
  others _ _ _ _ _ _ sound _ _ change _ _ _ _ _ := (change sound).2
  surroundings _ _ _ sound change _ := (around_preserves change.1 change.2 sound).2

theorem step_sound {l : WorkLabel} (h : ((workSystem rt).restrict (FromSound rt)).Reachable w)
    (step : ((workSystem rt).restrict (FromSound rt)).step w l w') :
    w'.shared.Sound rt ∧ w.shared.Advances w'.shared := by
  have sound : w.shared.Sound rt := step.2
  rcases Threads.changes (bodies_chained rt) (fromSound_respected rt) h step with
    same | ⟨op, change⟩ | ⟨l, change, runs⟩
  · rw [same]
    exact ⟨sound, Std.Refl.refl _⟩
  · exact change sound
  · exact around_preserves change runs sound

/-- Every state that the calls reach is sound. -/
theorem reachable_sound (h : (workSystem rt).Reachable w) :
    ((workSystem rt).restrict (FromSound rt)).Reachable w ∧ w.shared.Sound rt := by
  have both : ∀ w, ((workSystem rt).restrict (FromSound rt)).Reachable w → w.shared.Sound rt := by
    intro w reach
    refine reach.strengthen (P := fun w => w.shared.Sound rt) (fun _ reach => reach) ?_ ?_
    · rintro w ⟨start, -⟩
      rw [start]
      exact ⟨.init rfl, fun row hr => (nomatch hr), List.nodup_nil⟩
    · exact fun w l w' reach _ step => (step_sound reach step).1
  have reach := h.restrict fun w l w' reach _ => both w reach
  exact ⟨reach, both w reach⟩

theorem step_advances {l : WorkLabel} (h : (workSystem rt).Reachable w)
    (step : (workSystem rt).step w l w') : w.shared.Advances w'.shared := by
  obtain ⟨restricted, sound⟩ := reachable_sound h
  exact (step_sound restricted ⟨step, sound⟩).2

theorem steps_advance (h : (workSystem rt).Reachable w) (steps : (workSystem rt).Steps w w') :
    w.shared.Advances w'.shared := by
  have both : (workSystem rt).Reachable w' ∧ w.shared.Advances w'.shared := by
    refine steps.preserves (P := fun w' => (workSystem rt).Reachable w' ∧
      w.shared.Advances w'.shared) ?_ ⟨h, Std.Refl.refl _⟩
    rintro u l v ⟨reach, before⟩ step
    exact ⟨reach.step step, IsTrans.trans _ _ _ before (step_advances reach step)⟩
  exact both.2

/-- `str.lower` leaves a revision in lower case as it is. -/
def Runtime.KeepsSha (rt : Runtime) : Prop := ∀ sha, isSha40 sha = true → rt.lower sha = sha

/-- In every state that any order of calls on work items and on the pool reaches: a result, or
the waiting for one, comes after verified evidence of the revision that the completed task has
produced; a merged item has a commit; and the only item of a task is named by the task's
key. -/
theorem evidence_chain (keeps : rt.KeepsSha) (h : (workSystem rt).Reachable w) :
    (∀ row ∈ w.shared.runs.rows, row.mergeState ≠ .pending →
      row.evidenceState = .verified ∧ row.independentReadback = true ∧
      row.positiveControl = true ∧ row.negativeControl = true ∧
      ∃ task sha, w.shared.pool.db.tasks.find? row.taskId = some task ∧
        task.state = .completed ∧ task.producedSha = some sha ∧
        row.validationSha = some sha ∧ row.expectedHeadSha = some sha) ∧
    (∀ row ∈ w.shared.runs.rows, row.mergeState = .merged →
      ∃ sha, row.mergeCommitSha = some sha ∧ isSha40 sha = true) ∧
    (∀ row ∈ w.shared.runs.rows, ∀ row' ∈ w.shared.runs.rows, row.taskId = row'.taskId → row = row') ∧
    ∀ row ∈ w.shared.runs.rows, ∃ task, w.shared.pool.db.tasks.find? row.taskId = some task ∧
      row.workId = workIdOf task := by
  have sound := (reachable_sound h).2
  refine ⟨fun row hr result => ?_, fun row hr => (sound.rows row hr).merged, fun row hr row' hr' => ?_,
    fun row hr => (sound.rows row hr).task⟩
  · have verified := (sound.rows row hr).result result
    obtain ⟨⟨readback, positive, negative⟩, task, produced, found, done, handed, sha, head⟩ :=
      (sound.rows row hr).evidence verified
    -- a stored revision is in lower case already
    have shape := ((file_lifeCycle sound.pool row.taskId).2 task found).shape produced handed
    rw [keeps produced shape] at sha head
    exact ⟨verified, readback, positive, negative, task, produced, found, done, handed, sha, head⟩
  · exact List.inj_on_of_nodup_map sound.tasks hr hr'

end Runs

theorem Runtime.ascii_keepsSha : Runtime.ascii.KeepsSha := by
  intro sha valid
  obtain ⟨-, hex⟩ := Bool.and_eq_true_iff.mp valid
  have same : sha.toList.map Char.toLower = sha.toList := by
    conv_rhs => rw [← List.map_id sha.toList]
    refine List.map_congr_left fun c hc => ?_
    have digit := List.all_eq_true.mp hex c hc
    simp only [isLowerHex, Bool.or_eq_true, Bool.and_eq_true, decide_eq_true_eq] at digit
    have lower : ¬ (c.val ≥ 'A'.val ∧ c.val ≤ 'Z'.val) := by
      simp only [Char.le_def, UInt32.le_iff_toNat_le] at digit
      simp only [ge_iff_le, UInt32.le_iff_toNat_le]
      have bounds : 'A'.val.toNat = 65 ∧ 'Z'.val.toNat = 90 ∧ '9'.val.toNat = 57 ∧
        'a'.val.toNat = 97 := by decide
      omega
    exact dif_neg lower
  change String.ofList (sha.toList.map Char.toLower) = sha
  rw [same, String.ofList_toList]

/-- The merged item of the sample run. -/
theorem merged_chain : ∃ row ∈ Sample.merged.runs.rows, row.mergeState = .merged ∧
    ∃ sha, row.mergeCommitSha = some sha ∧ isSha40 sha = true := by
  have reach : (workSystem .ascii).Reachable ⟨Sample.merged, []⟩ :=
    ((Sample.evidenced_reachable Sample.anything_alone).steps
      (Sample.steps_alone Sample.anything_alone 5 _ Sample.merge)).of_restrict
  have stored : Sample.merged.runs.rows.any (fun row => row.mergeState = .merged) = true := by
    decide +kernel
  obtain ⟨row, hr, merged⟩ := List.any_eq_true.mp stored
  have state : row.mergeState = .merged := by simpa using merged
  have commits : ∀ s : WorkDb, (workSystem .ascii).Reachable ⟨s, []⟩ → ∀ row ∈ s.runs.rows,
      row.mergeState = .merged → ∃ sha, row.mergeCommitSha = some sha ∧ isSha40 sha = true :=
    fun s reach => (evidence_chain Runtime.ascii_keepsSha reach).2.1
  exact ⟨row, hr, state, commits Sample.merged reach row hr state⟩

end WorkerPool
