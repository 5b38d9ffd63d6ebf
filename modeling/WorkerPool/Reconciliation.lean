import WorkerPool.EffectLedger
import WorkerPool.LifeCycle

/-!
# No effect is stuck

A blocked task in doubt can always be returned to work: each of its unresolved effects can
be reconciled, in any order and with either outcome, and then the task can be requeued.
-/

namespace WorkerPool

open PyText Transaction Transaction.Tx

/-- A `reconcile_effect` on an unresolved effect of the task, with the generation of its
latest checkpoint, either outcome and a reference. -/
structure ReconcileEffect.Answers (a : ReconcileEffect) (db : Db) (taskId : String) : Prop where
  task : a.taskId = taskId
  unresolved : db.UnresolvedEffect taskId a.effectId
  latest : ∀ d ∈ db.latestOfEffect taskId a.effectId, a.leaseGeneration = d.leaseGeneration
  outcome : a.outcome = "confirmed" ∨ a.outcome = "not_applied"
  readback : strip a.readbackRef ≠ ""
  correlation : strip a.correlationId ≠ ""

/-- The digests that name the workspaces of a repository tell its tasks apart. -/
def Db.WorkspacesApart (db : Db) : Prop :=
  ∀ t ∈ db.tasks.rows, ∀ u ∈ db.tasks.rows, t.repository = u.repository →
    t.workspaceKey = u.workspaceKey → t.taskId = u.taskId

instance (db : Db) : Decidable db.WorkspacesApart :=
  inferInstanceAs (Decidable (∀ t ∈ db.tasks.rows, ∀ u ∈ db.tasks.rows, _))

/-! ### Reconciling one effect -/

section One

variable {c : Call} {a : ReconcileEffect} {db db' : Db} {t : Task}

/-- A task that waits for the reconciliation of its effects. -/
structure Db.Waits (db : Db) (t : Task) : Prop where
  current : (db.file t.taskId).task = some t
  fenced : t.fencingRequired = true
  blocked : t.state = .blocked
  reason : t.blockedReason = some effectReconciliationRequired
  ledger : EffectLedger (db.file t.taskId)

theorem outcome_ofText {text : String} (h : text = "confirmed" ∨ text = "not_applied") :
    ∃ outcome, Outcome.ofText text = some outcome := by
  rcases h with rfl | rfl
  · exact ⟨.confirmed, rfl⟩
  · exact ⟨.notApplied, rfl⟩

theorem insertReconciliation_yields {r : Reconciliation} {reconciliations}
    (positive : 1 ≤ r.leaseGeneration) (inserted : db.reconciliations.insert? r = some reconciliations) :
    (insertReconciliation r).Yields db () { db with reconciliations := reconciliations } := by
  simp only [insertReconciliation, bind_yields, read_yields, require_yields, unwrap_yields,
    write_yields]
  exact ⟨db, db, ⟨rfl, rfl⟩, (), db, ⟨positive, rfl⟩, reconciliations, db, ⟨inserted, rfl⟩, rfl⟩

theorem appendReconciliation_yields {outcome : Outcome} {readbackRef digest : String}
    {d : Checkpoint} {reconciliations} (waits : db.Waits t)
    (latest : db.latestOfEffect a.taskId a.effectId = some d)
    (undecided : d.effectState.undecided = true)
    (generation : (d.leaseGeneration : Int) = a.leaseGeneration)
    (positive : 1 ≤ a.leaseGeneration)
    (inserted : db.reconciliations.insert? ⟨a.taskId, a.effectId, a.leaseGeneration.toNat, outcome,
      readbackRef, digest, strip a.correlationId, c.iso .stamp⟩ = some reconciliations) :
    (appendReconciliation c a outcome readbackRef digest t).Yields db
      (⟨a.taskId, a.effectId, a.leaseGeneration.toNat, outcome, readbackRef, digest,
        strip a.correlationId, c.iso .stamp⟩, true)
      { db with reconciliations := reconciliations } := by
  have stored := (Table.find?_insert inserted
    (a.taskId, a.effectId, a.leaseGeneration.toNat)).trans (if_pos rfl)
  have picked : (db.latestOfEffect a.taskId a.effectId).filter
      (fun c => c.effectState.undecided) = some d := by
    rw [latest, Option.filter_some, if_pos undecided]
  simp only [appendReconciliation, bind_yields, read_yields, require_yields, unwrap_yields,
    pure_yields]
  refine ⟨(), db, ⟨waits.fenced, rfl⟩, (), db, ⟨⟨waits.blocked, waits.reason⟩, rfl⟩, _, db,
    ⟨rfl, rfl⟩, d, db, ⟨picked, rfl⟩, (), db, ⟨generation, rfl⟩, (), _,
    insertReconciliation_yields ?_ inserted, _, _, ⟨rfl, rfl⟩, _, _, ⟨stored, rfl⟩, rfl, rfl⟩
  simp only
  omega

/-- The effect of a task that waits is reconciled by one row more, and no other row changes. -/
theorem reconcileEffect_yields (rt : Runtime) (c : Call) (waits : db.Waits t) (answers : a.Answers db t.taskId) :
    ∃ r reconciliations, db.reconciliations.insert? r = some reconciliations ∧
      r.taskId = t.taskId ∧ r.effectId = a.effectId ∧
      (r.leaseGeneration : Int) = a.leaseGeneration ∧
      (reconcileEffect rt c a).Yields db (r, true) { db with reconciliations := reconciliations } := by
  obtain ⟨d, latest, undecided, unsettled⟩ :=
    waits.ledger.unresolvedEffect_iff.mp (Db.unresolvedEffect_file.mp answers.unresolved)
  obtain ⟨stored, effect, -⟩ := waits.ledger.latest_spec.mp latest
  have safe : isSafeId a.effectId = true := waits.ledger.safe d stored _ effect
  have positive := (waits.ledger.generation t waits.current d stored).1
  have generation : a.leaseGeneration = d.leaseGeneration :=
    answers.latest d (db.latestOfEffect_file t.taskId a.effectId ▸ latest)
  obtain ⟨outcome, named⟩ := outcome_ofText answers.outcome
  let r : Reconciliation := ⟨a.taskId, a.effectId, a.leaseGeneration.toNat, outcome,
    sanitize rt (strip a.readbackRef), contentDigest rt (reconciliationSemantic a.effectId
      a.leaseGeneration outcome (sanitize rt (strip a.readbackRef))),
    strip a.correlationId, c.iso .stamp⟩
  have absent : db.reconciliations.find? r.key = none := by
    refine Table.find?_eq_none_iff.mpr fun q hq same => unsettled ?_
    obtain ⟨task, id, gen⟩ : q.taskId = a.taskId ∧ q.effectId = a.effectId ∧
        q.leaseGeneration = a.leaseGeneration.toNat := by
      simpa [Reconciliation.key, r] using same
    have named := waits.ledger.named t waits.current d stored
    refine List.any_eq_true.mpr ⟨q, List.mem_filter.mpr ⟨hq, ?_⟩, ?_⟩
    · simp [task, answers.task]
    · have gen : q.leaseGeneration = d.leaseGeneration := by omega
      simp [Reconciliation.settles, task, answers.task, named, id, effect, gen]
  obtain ⟨reconciliations, inserted⟩ := Table.insert?_of_absent absent
  refine ⟨r, reconciliations, inserted, answers.task, rfl, by simp only [r]; omega, ?_⟩
  have found : db.tasks.find? a.taskId = some t := answers.task ▸ waits.current
  simp only [reconcileEffect, bind_yields, require_yields, unwrap_yields, atomically_yields,
    read_yields]
  refine ⟨(), db, ⟨safe, rfl⟩, (), db, ⟨by omega, rfl⟩, outcome, db, ⟨named, rfl⟩, (), db,
    ⟨⟨sanitize_ne_empty rt answers.readback, answers.correlation⟩, rfl⟩, _, db, ⟨rfl, rfl⟩, t, db,
    ⟨found, rfl⟩, _, db, ⟨rfl, rfl⟩, ?_⟩
  have none_yet : db.reconciliations.find? (a.taskId, a.effectId, a.leaseGeneration.toNat) = none :=
    absent
  simp only [none_yet]
  refine appendReconciliation_yields waits ?_ undecided generation.symm ?_ inserted
  · rw [answers.task, Db.latestOfEffect_file]
    exact latest
  · omega

/-- A reconciliation settles its own effect and leaves the others as they were. -/
theorem Db.Waits.reconciled (waits : db.Waits t) {r : Reconciliation} {reconciliations}
    (inserted : db.reconciliations.insert? r = some reconciliations) (task : r.taskId = t.taskId)
    (latest : ∀ d ∈ db.latestOfEffect t.taskId r.effectId, d.leaseGeneration = r.leaseGeneration) :
    Db.Waits { db with reconciliations := reconciliations } t ∧
      ∀ effectId, Db.UnresolvedEffect { db with reconciliations := reconciliations } t.taskId effectId ↔
        db.UnresolvedEffect t.taskId effectId ∧ effectId ≠ r.effectId := by
  have file := (Db.file_insertReconciliation db t.taskId inserted).trans (if_pos task.symm)
  have settled_iff : ∀ d, TaskFile.Settled { db.file t.taskId with
      reconciliations := (db.file t.taskId).reconciliations ++ [r] } d ↔
        (db.file t.taskId).Settled d ∨ r.settles d = true := by
    intro d
    simp [TaskFile.Settled, List.any_append]
  have ledger : EffectLedger { db.file t.taskId with
      reconciliations := (db.file t.taskId).reconciliations ++ [r] } :=
    waits.ledger.keep waits.current waits.current rfl (fun d s => (settled_iff d).mpr (.inl s)) le_rfl
      rfl
  refine ⟨⟨waits.current, waits.fenced, waits.blocked, waits.reason, file ▸ ledger⟩, ?_⟩
  intro effectId
  rw [Db.unresolvedEffect_file, Db.unresolvedEffect_file, file, ledger.unresolvedEffect_iff,
    waits.ledger.unresolvedEffect_iff]
  -- the current checkpoint of an effect is the same before and after
  have same : TaskFile.latestOfEffect { db.file t.taskId with
      reconciliations := (db.file t.taskId).reconciliations ++ [r] } effectId =
        (db.file t.taskId).latestOfEffect effectId := rfl
  rw [same]
  constructor
  · rintro ⟨d, last, undecided, unsettled⟩
    refine ⟨⟨d, last, undecided, fun s => unsettled ((settled_iff d).mpr (.inl s))⟩, ?_⟩
    rintro rfl
    obtain ⟨stored, effect, -⟩ := waits.ledger.latest_spec.mp last
    have generation := latest d (Db.latestOfEffect_file db _ _ ▸ last)
    have named := waits.ledger.named t waits.current d stored
    refine unsettled ((settled_iff d).mpr (.inr ?_))
    simp [Reconciliation.settles, task, named, effect, generation]
  · rintro ⟨⟨d, last, undecided, unsettled⟩, other⟩
    refine ⟨d, last, undecided, fun s => ?_⟩
    obtain ⟨stored, effect, -⟩ := waits.ledger.latest_spec.mp last
    rcases (settled_iff d).mp s with before | now
    · exact unsettled before
    · have its_effect : r.effectId = effectId := by
        have given : some r.effectId = d.effectId := by
          simp only [Reconciliation.settles, Bool.and_eq_true, beq_iff_eq] at now
          exact now.1.2
        exact Option.some.inj (given.trans effect)
      exact other its_effect.symm

end One

/-! ### Reconciling them all -/

section All

variable {db : Db} {t : Task}

/-- Reconciliations of distinct effects all return, whatever their order and outcomes. -/
theorem reconcileAll_yields (rt : Runtime) {calls : List (Call × ReconcileEffect)} (waits : db.Waits t)
    (answers : ∀ x ∈ calls, x.2.Answers db t.taskId)
    (distinct : (calls.map fun x => x.2.effectId).Nodup) :
    ∃ db', (forEach calls () fun _ x => do let _ ← reconcileEffect rt x.1 x.2).Yields db () db' ∧
      db'.Waits t ∧ db'.tasks = db.tasks ∧
      ∀ effectId, db'.UnresolvedEffect t.taskId effectId ↔
        db.UnresolvedEffect t.taskId effectId ∧ effectId ∉ calls.map fun x => x.2.effectId := by
  induction calls generalizing db with
  | nil => exact ⟨db, pure_yields.mpr ⟨rfl, rfl⟩, waits, rfl, fun effectId => by simp⟩
  | cons x rest ih =>
    obtain ⟨first, others⟩ := List.nodup_cons.mp distinct
    have answer := answers x List.mem_cons_self
    obtain ⟨r, reconciliations, inserted, task, effect, generation, returned⟩ :=
      reconcileEffect_yields rt x.1 waits answer
    obtain ⟨waits', left⟩ := waits.reconciled inserted task fun d hd => by
      have last := answer.latest d (effect ▸ hd)
      omega
    have later : ∀ y ∈ rest, y.2.Answers { db with reconciliations := reconciliations } t.taskId := by
      intro y hy
      have answer' := answers y (List.mem_cons_of_mem _ hy)
      refine ⟨answer'.task, (left _).mpr ⟨answer'.unresolved, ?_⟩, answer'.latest,
        answer'.outcome, answer'.readback, answer'.correlation⟩
      rw [effect]
      exact fun same => first (List.mem_map.mpr ⟨y, hy, same⟩)
    obtain ⟨db', rest_returned, waits'', tasks, left'⟩ := ih waits' later others
    refine ⟨db', ?_, waits'', tasks, fun effectId => ?_⟩
    · refine bind_yields.mpr ⟨(), _, ?_, rest_returned⟩
      exact bind_yields.mpr ⟨_, _, returned, pure_yields.mpr ⟨rfl, rfl⟩⟩
    · rw [left', left, effect, List.map_cons, List.mem_cons, not_or, and_assoc]

/-- A blocked task without unresolved effects goes back to work. -/
theorem requeueBlocked_yields (c : Call) (correlationId : String) (current : db.Current t)
    (blocked : t.state = .blocked) (idle : t.leasedBy = none)
    (settled : db.hasUnresolvedEffect t.taskId = false) (apart : db.WorkspacesApart) :
    ∃ t' db', (requeueBlocked c t.taskId correlationId).Yields db t' db' ∧
      db'.hasUnresolvedEffect t.taskId = false := by
  have found : db.tasks.find? t.taskId = some t := current
  have mem := Table.mem_of_find? found
  let requeued : Task → Task := fun u => { u with
    state := t.resumeState, blockedReason := none, correlationId := correlationId
    updatedAt := c.iso .stamp, lastMaterialProgressAt := c.iso .stamp }
  have worker : db.workerTaken (requeued t) = false := by simp [Db.workerTaken, requeued, idle]
  have workspace : db.workspaceTaken (requeued t) = false := by
    refine Bool.eq_false_iff.mpr fun taken => ?_
    obtain ⟨-, taken⟩ := Bool.and_eq_true_iff.mp taken
    obtain ⟨other, stored, same⟩ := List.any_eq_true.mp taken
    simp only [requeued, Bool.and_eq_true, bne_iff_ne, beq_iff_eq] at same
    obtain ⟨⟨⟨differs, repository⟩, key⟩, -⟩ := same
    exact differs (apart other stored t mem repository key)
  have update : (updateTask t.taskId requeued).Yields db () (db.modifyTask t.taskId requeued) :=
    (updateTask_yields_iff found).mpr
      ⟨⟨by simp [guardFencedClaim, requeued, idle], worker, workspace⟩, rfl⟩
  have read_back : ((db.modifyTask t.taskId requeued).file t.taskId).task = some (requeued t) := by
    rw [Db.file_modifyTask, if_pos rfl, current]
    rfl
  refine ⟨requeued t, db.modifyTask t.taskId requeued, ?_, settled⟩
  simp only [requeueBlocked, bind_yields, atomically_yields, read_yields, unwrap_yields,
    require_yields]
  refine ⟨(), _, ⟨_, db, ⟨rfl, rfl⟩, t, db, ⟨found, rfl⟩, (), db, ⟨blocked, rfl⟩, _, db,
    ⟨rfl, rfl⟩, (), db, ⟨?_, rfl⟩, update⟩, getTask_yields.mpr ⟨read_back, rfl⟩⟩
  rintro ⟨-, unresolved⟩
  rw [settled] at unresolved
  cases unresolved

end All

theorem waits_of_blocked {rt : Runtime} {s : Pool} (h : (pool rt).Reachable s) {t : Task}
    (ht : t ∈ s.db.tasks.rows) (fenced : t.fencingRequired = true) (blocked : t.state = .blocked)
    (unresolved : s.db.hasUnresolvedEffect t.taskId = true) : s.db.Waits t := by
  have current : s.db.Current t := Db.current_of_mem ht
  rw [Db.hasUnresolvedEffect_file] at unresolved
  refine ⟨current, fenced, blocked, ?_, file_effectLedger h t.taskId⟩
  rcases (file_contained h t.taskId).confined t current ⟨fenced, unresolved⟩ with
    ⟨-, active⟩ | ⟨-, reason⟩
  · rw [blocked] at active
    cases active
  · exact reason

/-- The declared effect `e1`, reconciled as not applied. -/
def Sample.answer : ReconcileEffect := ⟨Sample.taskId, "e1", 1, "not_applied", "readback", "corr"⟩

/-- The sample task blocked with its effect undecided. -/
def Sample.inDoubt : List (Call × Op) :=
  Sample.declared ++ [Sample.block (Sample.credential "b1" (Sample.uuid 'a') (Sample.uuid 'b') 1)]

end WorkerPool
