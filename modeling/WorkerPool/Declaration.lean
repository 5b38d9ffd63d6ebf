import WorkerPool.EffectLedger
import WorkerPool.Ledger

/-!
# Declared effects and the replay of checkpoints

A checkpoint id is replayed by its content alone, and the generation is no part of the
content. So a declaration repeated under a later lease is answered with the row of the
earlier one, and leaves no effect unresolved.
-/

namespace WorkerPool

open Transaction Transaction.Tx
open Transition.System (Reachable Steps)

/-- An effect has been decided since the checkpoint that declares it: by a later checkpoint
or a reconciliation, of the generation or a higher one. -/
def Db.ResolvedSince (db : Db) (row : Checkpoint) (effectId : String) (generation : Int) : Prop :=
  (∃ d ∈ db.checkpoints.rows, d.taskId = row.taskId ∧ d.effectId = some effectId ∧
    d.later row = true ∧ generation ≤ d.leaseGeneration ∧
    (d.effectState = .confirmed ∨ d.effectState = .notApplied)) ∨
  ∃ r ∈ db.reconciliations.rows, r.taskId = row.taskId ∧ r.effectId = effectId ∧
    generation ≤ r.leaseGeneration

/-- A call of `record_checkpoint` that returned `row` recorded it under the lease that made
the call: the row has the content of the request and is of its generation and attempt, and an
effect that it declares is unresolved, and keeps every claim from the task, until it is
resolved. -/
structure RecordedUnderLease (rt : Runtime) (s : Pool) (c : Call) (a : RecordCheckpoint)
    (row : Checkpoint) (created : Bool) : Prop where
  content : ∃ content correlationId, checkpointContent rt a = .ok (content, correlationId) ∧
    row.contentDigest = contentDigest rt content.semantic ∧
    (created = true → row.effectId = a.effectId ∧
      EffectState.ofText a.effectState = some row.effectState)
  generation : (row.leaseGeneration : Int) = a.leaseGeneration
  attempt : row.attemptId = a.attemptId
  unresolved : ∀ effectId, row.effectId = some effectId → row.effectState.undecided = true →
    ∀ u, (pool rt).Steps (s.after rt c (.recordCheckpoint a)) u →
      u.db.UnresolvedEffect a.taskId effectId ∨
        u.db.ResolvedSince row effectId a.leaseGeneration
  claimed : ∀ effectId, row.effectId = some effectId → row.effectState.undecided = true →
    ∀ u, (pool rt).Steps (s.after rt c (.recordCheckpoint a)) u →
      ∀ {c' : Call} {b : ClaimTask} {token attemptId : Uuid} {task : Task} {l : Lease} {db' : Db},
        (claimTask rt c' b token attemptId).Yields u.db (some (task, l)) db' →
        task.taskId = a.taskId → db'.ResolvedSince row effectId a.leaseGeneration

/-! ### What stays in a file -/

section Kept

variable {f f' : TaskFile} {act : Act}

theorem Does.checkpoint_kept (h : Does f act f') {row : Checkpoint} (hr : row ∈ f.checkpoints) :
    row ∈ f'.checkpoints := by
  cases h with
  | checkpoint c m current => exact List.mem_append_left _ hr
  | enqueue | grant | renew | start | release | reconcile | requeue => exact hr

/-- Whether a task is fenced is fixed by its admission. -/
theorem Does.fenced_kept (h : Does f act f') (ht : ∃ t ∈ f.task, t.fencingRequired = true) :
    ∃ t ∈ f'.task, t.fencingRequired = true := by
  obtain ⟨t, ht, fenced⟩ := ht
  cases h with
  | enqueue absent => cases absent.symm.trans ht
  | grant current =>
    cases Option.some.inj (current.symm.trans ht)
    exact ⟨_, rfl, fenced⟩
  | renew expires m current =>
    cases Option.some.inj (current.symm.trans ht)
    exact ⟨_, rfl, fenced⟩
  | start m current =>
    cases Option.some.inj (current.symm.trans ht)
    exact ⟨_, rfl, fenced⟩
  | release m stamp reason q current =>
    cases Option.some.inj (current.symm.trans ht)
    exact ⟨_, rfl, fenced⟩
  | checkpoint c m current =>
    cases Option.some.inj (current.symm.trans ht)
    exact ⟨_, rfl, fenced⟩
  | reconcile r current => exact ⟨t, ht, fenced⟩
  | requeue m current =>
    cases Option.some.inj (current.symm.trans ht)
    exact ⟨_, rfl, fenced⟩

theorem Does.checkpointed {p : Credential} {c : Checkpoint} (h : Does f (.checkpoint p c) f') :
    c ∈ f'.checkpoints ∧ ∀ d ∈ f.checkpoints, d.checkpointId ≠ c.checkpointId := by
  cases h with
  | checkpoint c m current active presented fenced task generation attempt sequence positive effect
      safe certain new => exact ⟨List.mem_append_right _ (List.mem_singleton.mpr rfl), new⟩

/-- Each checkpoint names an attempt of its own generation. -/
def TaskFile.Signed (f : TaskFile) : Prop :=
  ∀ c ∈ f.checkpoints, ∃ a ∈ f.attempts,
    a.attemptId = c.attemptId ∧ a.leaseGeneration = c.leaseGeneration

theorem TaskFile.Signed.map (signed : f.Signed) {g : Attempt → Attempt}
    (name : ∀ a, (g a).attemptId = a.attemptId)
    (generation : ∀ a, (g a).leaseGeneration = a.leaseGeneration)
    (checkpoints : f'.checkpoints = f.checkpoints) (attempts : f'.attempts = f.attempts.map g) :
    f'.Signed := by
  intro c hc
  obtain ⟨a, ha, same, gen⟩ := signed c (checkpoints ▸ hc)
  rw [attempts]
  exact ⟨g a, List.mem_map_of_mem ha, (name a).trans same, (generation a).trans gen⟩

/-- The holder of a lease works under an attempt of its generation. -/
theorem Ledger.current_attempt {t : Task} {attempts : List Attempt} (h : Ledger t attempts)
    (worker : t.leasedBy ≠ none) :
    ∃ a ∈ attempts, t.attemptId = some a.attemptId ∧ a.leaseGeneration = t.leaseGeneration := by
  obtain ⟨a, only, under⟩ := h.current (h.leased_of_worker worker)
  have still : a ∈ openAttempts attempts := only ▸ List.mem_singleton.mpr rfl
  exact ⟨a, (List.mem_filter.mp still).1, under.name, under.generation⟩

theorem Does.signed (h : Does f act f') (ledger : Ledger.OfFile f) (signed : f.Signed) :
    f'.Signed := by
  cases h with
  | enqueue => exact signed
  | grant =>
    intro c hc
    obtain ⟨a, ha, same⟩ := signed c hc
    exact ⟨a, List.mem_append_left _ ha, same⟩
  | renew expires =>
    refine signed.map (Attempt.renewedTo_attemptId _ _) (fun a => ?_) rfl rfl
    unfold Attempt.renewedTo
    split <;> rfl
  | start => exact signed
  | release m stamp reason =>
    refine signed.map (Attempt.closedBy_attemptId _ _ _) (fun a => ?_) rfl rfl
    unfold Attempt.closedBy
    split <;> rfl
  | @checkpoint t p c m current active presented fenced task generation attempt =>
    intro d hd
    rcases List.mem_append.mp hd with old | new
    · exact signed d old
    · have worker : t.leasedBy ≠ none := by simp [presented.worker]
      obtain ⟨a, ha, name, gen⟩ := (ledger.2 _ current).current_attempt worker
      rw [List.mem_singleton.mp new]
      exact ⟨a, ha, Option.some.inj (name.symm.trans attempt), gen.trans generation.symm⟩
  | reconcile => exact signed
  | requeue => exact signed

end Kept

/-- Each act keeps the ledger of leases together with the names on the checkpoints. -/
theorem file_signed {rt : Runtime} {s : Pool} (h : (pool rt).Reachable s) (taskId : String) :
    (s.db.file taskId).Signed := by
  have both := reachable_file (P := fun f => Ledger.OfFile f ∧ f.Signed) ?_ ?_ h taskId
  · exact both.2
  · refine ⟨.empty, fun c hc => ?_⟩
    cases hc
  · exact fun f act f' holds does => ⟨holds.1.does does, does.signed holds.1 holds.2⟩

/-- A checkpoint of the current generation names the current attempt. -/
theorem TaskFile.Signed.current {f : TaskFile} (signed : f.Signed) (ledger : Ledger.OfFile f)
    {t : Task} (ht : f.task = some t) (worker : t.leasedBy ≠ none) {c : Checkpoint}
    (hc : c ∈ f.checkpoints) (generation : c.leaseGeneration = t.leaseGeneration) :
    t.attemptId = some c.attemptId := by
  obtain ⟨a, ha, name, gen⟩ := (ledger.2 t ht).current_attempt worker
  obtain ⟨b, hb, name', gen'⟩ := signed c hc
  have distinct : (f.attempts.map Attempt.leaseGeneration).Nodup := by
    rw [(ledger.2 t ht).generations]
    exact List.nodup_range'
  obtain rfl : a = b := List.inj_on_of_nodup_map distinct ha hb (by omega)
  exact name.trans (congrArg some name')

namespace EffectLedger

variable {f : TaskFile} {row : Checkpoint} {effectId : String}

theorem exists_latest (hr : row ∈ f.checkpoints)
    (effect : row.effectId = some effectId) : ∃ d, f.latestOfEffect effectId = some d := by
  have picked : row ∈ f.checkpoints.filter fun c => decide (c.effectId = some effectId) :=
    List.mem_filter.mpr ⟨hr, decide_eq_true effect⟩
  cases latest : f.latestOfEffect effectId with
  | none =>
    rw [Table.first_eq_none_iff.mp latest] at picked
    cases picked
  | some d => exact ⟨d, rfl⟩

/-- A declared effect that is not unresolved has been decided since its declaration. -/
theorem resolved_since (h : EffectLedger f) (contained : Contained f) (hr : row ∈ f.checkpoints)
    (effect : row.effectId = some effectId) (undecided : row.effectState.undecided = true)
    (resolved : ¬ f.UnresolvedEffect effectId) :
    (∃ d ∈ f.checkpoints, d.effectId = some effectId ∧ d.later row = true ∧
      (d.effectState = .confirmed ∨ d.effectState = .notApplied)) ∨
    ∃ d ∈ f.checkpoints, f.Settled d ∧ d.effectId = some effectId ∧
      row.leaseGeneration ≤ d.leaseGeneration := by
  obtain ⟨d, latest⟩ := exists_latest hr effect
  obtain ⟨stored, same, top⟩ := h.latest_spec.mp latest
  have order := top row hr effect
  by_cases open_ : d.effectState.undecided = true
  · have settled : f.Settled d := by
      by_contra unsettled
      exact resolved (h.unresolvedEffect_iff.mpr ⟨d, latest, open_, unsettled⟩)
    refine .inr ⟨d, stored, settled, same, ?_⟩
    rcases order with rfl | later
    · exact le_rfl
    · exact Checkpoint.generation_le later
  · refine .inl ⟨d, stored, same, ?_, ?_⟩
    · rcases order with rfl | later
      · exact absurd undecided open_
      · exact later
    · cases state : d.effectState with
      | none => simp [(contained.paired d stored).mpr state] at same
      | pending => simp [state, EffectState.undecided] at open_
      | confirmed => exact .inl rfl
      | notApplied => exact .inr rfl
      | unknown => simp [state, EffectState.undecided] at open_

/-- The same over the tables of the database. -/
theorem declared {db : Db} {taskId : String} {generation : Int} (h : EffectLedger (db.file taskId))
    (contained : Contained (db.file taskId)) (hr : row ∈ (db.file taskId).checkpoints)
    (effect : row.effectId = some effectId) (undecided : row.effectState.undecided = true)
    (same : (row.leaseGeneration : Int) = generation) :
    db.UnresolvedEffect taskId effectId ∨ db.ResolvedSince row effectId generation := by
  by_cases open_ : db.UnresolvedEffect taskId effectId
  · exact .inl open_
  · have owner : row.taskId = taskId := of_decide_eq_true (List.mem_filter.mp hr).2
    rw [Db.unresolvedEffect_file] at open_
    rcases h.resolved_since contained hr effect undecided open_ with
      ⟨d, hd, of_effect, later, decided⟩ | ⟨d, hd, settled, of_effect, le⟩
    · obtain ⟨stored, task⟩ := List.mem_filter.mp hd
      have le := Checkpoint.generation_le later
      exact .inr (.inl ⟨d, stored, (of_decide_eq_true task).trans owner.symm, of_effect, later,
        by omega, decided⟩)
    · obtain ⟨r, hr, settles⟩ := List.any_eq_true.mp settled
      obtain ⟨stored, task⟩ := List.mem_filter.mp hr
      simp only [Reconciliation.settles, Bool.and_eq_true, beq_iff_eq] at settles
      obtain ⟨⟨-, its_effect⟩, gen⟩ := settles
      exact .inr (.inr ⟨r, stored, (of_decide_eq_true task).trans owner.symm,
        Option.some.inj (its_effect.trans of_effect), by omega⟩)

end EffectLedger

/-! ### The declaration -/

section Runs

variable {rt : Runtime} {s : Pool} {c : Call} {a : RecordCheckpoint} {row : Checkpoint}
  {created : Bool} {db' : Db}

/-- The row that an accepted call returns is stored, under the name of the request. -/
theorem recordCheckpoint_stored
    (accepted : (recordCheckpoint rt c a).Yields s.db (row, created) db') :
    (∃ content correlationId, checkpointContent rt a = .ok (content, correlationId) ∧
      row.contentDigest = contentDigest rt content.semantic ∧
      (created = true → row.effectId = a.effectId ∧
      EffectState.ofText a.effectState = some row.effectState)) ∧
    row ∈ (db'.file a.taskId).checkpoints ∧ row.checkpointId = a.checkpointId ∧
      (created = true → (row.leaseGeneration : Int) = a.leaseGeneration ∧
        row.attemptId = a.attemptId ∧
        ∀ d ∈ (s.db.file a.taskId).checkpoints, d.checkpointId ≠ a.checkpointId) ∧
      (created = false → db' = s.db) := by
  obtain ⟨t, content, correlationId, valid, found, active, presented, fenced, outcome⟩ :=
    recordCheckpoint_atomic.returns accepted
  have shape := checkpointContent_ok valid
  rcases outcome with ⟨replayed, rfl, stored, name, digest⟩ | ⟨new, acts, is_row⟩
  · obtain rfl : created = false := replayed
    have none_made : ¬ false = true := Bool.false_ne_true
    exact ⟨⟨content, correlationId, valid, digest, fun made => absurd made none_made⟩, stored, name,
      fun made => absurd made none_made, fun _ => rfl⟩
  · obtain rfl : created = true := new
    have is_row : row = _ := is_row
    have acts : s.db.Acts a.taskId (.checkpoint a.credential row) db' := acts
    obtain ⟨stored, absent⟩ := acts.file.checkpointed
    have name : row.checkpointId = a.checkpointId := by
      rw [is_row]
      exact shape.checkpointId
    refine ⟨⟨content, correlationId, valid, ?_⟩, stored, name,
      fun _ => ⟨?_, ?_, fun d hd => name ▸ absent d hd⟩,
      fun replayed => absurd replayed.symm Bool.false_ne_true⟩
    · rw [is_row]
      exact ⟨rfl, fun _ => ⟨shape.effectId, shape.effectState⟩⟩
    · have generation : (t.leaseGeneration : Int) = a.leaseGeneration := presented.generation _ rfl
      rw [is_row]
      simp only [checkpointRow]
      omega
    · rw [is_row]
      rfl

theorem accepted_returned
    (accepted : (recordCheckpoint rt c a).Yields s.db (row, created) db') :
    ((Op.recordCheckpoint a).run rt c).Yields s.db (.checkpoint row created) db' ∧
      (s.after rt c (.recordCheckpoint a)).db = db' := by
  have returned : ((Op.recordCheckpoint a).run rt c).Yields s.db (.checkpoint row created) db' :=
    bind_yields.mpr ⟨_, _, accepted, pure_yields.mpr ⟨rfl, rfl⟩⟩
  exact ⟨returned, congrArg Prod.snd returned⟩

theorem recordCheckpoint_step (a : RecordCheckpoint) :
    (pool rt).step s (c, .recordCheckpoint a) (s.after rt c (.recordCheckpoint a)) :=
  ⟨⟨List.nodup_nil, fun u hu => by cases hu⟩, rfl⟩

/-- The task that a claim grants is as fenced as it was before. -/
theorem claimTask_fenced {b : ClaimTask} {token attemptId : Uuid} {task : Task} {l : Lease}
    (h : (pool rt).Reachable s)
    (claimed : (claimTask rt c b token attemptId).Yields s.db (some (task, l)) db')
    (before : ∃ t ∈ (s.db.file task.taskId).task, t.fencingRequired = true) :
    task.fencingRequired = true := by
  obtain ⟨mid, path, -, ⟨⟨⟩, -⟩ | ⟨row, g, ⟨⟩, known, granted⟩⟩ :=
    (claimTask_atomic (reachable_owned h)).returns claimed
  obtain ⟨t, ht, fenced⟩ := path_file (P := fun f => ∃ t ∈ f.task, t.fencingRequired = true)
    (fun _ _ _ _ holds does => does.fenced_kept holds) path before
  cases Option.some.inj (granted.selected.current.symm.trans ht)
  exact fenced

/-- While the checkpoint that declares it is stored, an effect is unresolved or has been
decided since. -/
theorem declared_later {u : Pool} (h : (pool rt).Reachable u) {taskId effectId : String}
    {generation : Int} (hr : row ∈ (u.db.file taskId).checkpoints)
    (effect : row.effectId = some effectId) (undecided : row.effectState.undecided = true)
    (same : (row.leaseGeneration : Int) = generation) :
    u.db.UnresolvedEffect taskId effectId ∨ u.db.ResolvedSince row effectId generation :=
  (file_effectLedger h taskId).declared (file_contained h taskId) hr effect undecided same

/-- A claim that grants a task finds each effect declared on it decided. -/
theorem claimed_later {u : Pool} (h : (pool rt).Reachable u) {effectId : String}
    {generation : Int} {b : ClaimTask} {token attemptId : Uuid} {task : Task} {l : Lease}
    (claimed : (claimTask rt c b token attemptId).Yields u.db (some (task, l)) db')
    (fenced : ∃ t ∈ (u.db.file task.taskId).task, t.fencingRequired = true)
    (hr : row ∈ (u.db.file task.taskId).checkpoints) (effect : row.effectId = some effectId)
    (undecided : row.effectState.undecided = true)
    (same : (row.leaseGeneration : Int) = generation) :
    db'.ResolvedSince row effectId generation := by
  have returned : ((Op.claimTask b token attemptId).run rt c).Yields u.db
      (.claim (some (task, l))) db' :=
    bind_yields.mpr ⟨_, _, claimed, pure_yields.mpr ⟨rfl, rfl⟩⟩
  obtain ⟨contained, resolved⟩ := claimTask_resolved h claimed (claimTask_fenced h claimed fenced)
  have ledger := returned_file (fun _ _ _ => EffectLedger.does) h returned
    (file_effectLedger h task.taskId)
  have stored := returned_file (P := fun f => row ∈ f.checkpoints)
    (fun _ _ _ hr does => does.checkpoint_kept hr) h returned hr
  refine (ledger.declared contained stored effect undecided same).resolve_left fun open_ => ?_
  have unresolved := TaskFile.unresolved_iff.mpr ⟨effectId, Db.unresolvedEffect_file.mp open_⟩
  rw [resolved] at unresolved
  cases unresolved

/-- An accepted declaration is recorded under the lease that makes it exactly when the task
has no checkpoint of that name from another generation. -/
theorem recordCheckpoint_under_lease (h : (pool rt).Reachable s)
    (accepted : (recordCheckpoint rt c a).Yields s.db (row, created) db') :
    RecordedUnderLease rt s c a row created ↔
      ∀ d ∈ s.db.checkpoints.rows, d.taskId = a.taskId → d.checkpointId = a.checkpointId →
        (d.leaseGeneration : Int) = a.leaseGeneration := by
  obtain ⟨same_content, stored, name, new, replayed⟩ := recordCheckpoint_stored accepted
  constructor
  · intro recorded d hd task id
    have mine : d ∈ (s.db.file a.taskId).checkpoints := List.mem_filter.mpr ⟨hd, decide_eq_true task⟩
    cases created with
    | true => exact absurd id ((new rfl).2.2 d mine)
    | false =>
      rw [replayed rfl] at stored
      obtain ⟨hr, owner⟩ := List.mem_filter.mp stored
      have key : d.key = row.key :=
        Prod.ext (task.trans (of_decide_eq_true owner).symm) (id.trans name.symm)
      have both := (Table.find?_of_mem hd).symm.trans (key ▸ Table.find?_of_mem hr)
      rw [Option.some.inj both]
      exact recorded.generation
  · intro alone
    obtain ⟨t, content, correlationId, -, found, active, presented, fenced, -⟩ :=
      recordCheckpoint_atomic.returns accepted
    have of_lease : (row.leaseGeneration : Int) = a.leaseGeneration ∧ row.attemptId = a.attemptId := by
      cases created with
      | true => exact ⟨(new rfl).1, (new rfl).2.1⟩
      | false =>
        rw [replayed rfl] at stored
        obtain ⟨hr, owner⟩ := List.mem_filter.mp stored
        have generation := alone row hr (of_decide_eq_true owner) name
        refine ⟨generation, ?_⟩
        have worker : t.leasedBy ≠ none := by simp [presented.worker]
        have current : (t.leaseGeneration : Int) = a.leaseGeneration := presented.generation _ rfl
        have signed := (file_signed h a.taskId).current (file_ledger h a.taskId) found worker stored
          (by omega)
        exact Option.some.inj (signed.symm.trans (presented.attempt _ rfl))
    obtain ⟨returned, stop⟩ := accepted_returned accepted
    have after : (pool rt).Reachable (s.after rt c (.recordCheckpoint a)) :=
      h.step (recordCheckpoint_step a)
    have row_later : ∀ u, (pool rt).Steps (s.after rt c (.recordCheckpoint a)) u →
        row ∈ (u.db.file a.taskId).checkpoints := fun u steps =>
      steps_file (P := fun f => row ∈ f.checkpoints) (fun _ _ _ hr does => does.checkpoint_kept hr)
        after steps (stop ▸ stored)
    have fenced_later : ∀ u, (pool rt).Steps (s.after rt c (.recordCheckpoint a)) u →
        ∃ t ∈ (u.db.file a.taskId).task, t.fencingRequired = true := fun u steps =>
      steps_file (P := fun f => ∃ t ∈ f.task, t.fencingRequired = true)
        (fun _ _ _ ht does => does.fenced_kept ht) h ((Steps.single (recordCheckpoint_step a)).trans steps)
        ⟨t, found, fenced⟩
    refine ⟨same_content, of_lease.1, of_lease.2, fun effectId effect undecided u steps => ?_, ?_⟩
    · exact declared_later (after.steps steps) (row_later u steps) effect undecided of_lease.1
    · intro effectId effect undecided u steps c' b token attemptId task l db' claimed same
      have fenced' := fenced_later u steps
      have stored' := row_later u steps
      rw [← same] at fenced' stored'
      exact claimed_later (after.steps steps) claimed fenced' stored' effect undecided of_lease.1

end Runs

/-! ### A replay under a later lease -/

namespace Sample

/-- The declaration of `e1` that a worker makes under its lease. -/
def declare (token attemptId : Uuid) (leaseGeneration : Int) : RecordCheckpoint :=
  checkpoint "b1" token attemptId leaseGeneration "c1" 1 "pending" none

/-- The effect declared under the first lease is found not applied, and the task is claimed
anew. -/
def reclaimed : List (Call × Op) :=
  declared ++ [block (credential "b1" (uuid 'a') (uuid 'b') 1),
    (.at start, .reconcileEffect ⟨taskId, "e1", 1, "not_applied", "readback", "corr"⟩), requeue,
    claim "b1" "builder" true (uuid 'c') (uuid 'd')]

end Sample

theorem first_declaration_recorded :
    ∃ row, RecordedUnderLease .ascii (Pool.empty.run .ascii Sample.leased) (.at Sample.start)
      (Sample.declare (Sample.uuid 'a') (Sample.uuid 'b') 1) row true := by
  have empty : (Pool.empty.run .ascii Sample.leased).db.checkpoints.rows = [] := by decide +kernel
  have passes : (recordCheckpoint .ascii (.at Sample.start)
      (Sample.declare (Sample.uuid 'a') (Sample.uuid 'b') 1)).test
        (Pool.empty.run .ascii Sample.leased).db (fun r _ => r.2) = true := by
    decide +kernel
  obtain ⟨⟨row, created⟩, db', accepted, isNew⟩ := test_iff.mp passes
  obtain rfl : created = true := isNew
  refine ⟨row, (recordCheckpoint_under_lease (Pool.reachable_run (by decide)) accepted).mpr ?_⟩
  intro d hd
  rw [empty] at hd
  cases hd

/-- The worker declares the effect again before it repeats it. The call returns the row of the
first lease and the task is left without an unresolved effect. -/
theorem declaration_lost :
    ∃ row db', (pool .ascii).Reachable (Pool.empty.run .ascii Sample.reclaimed) ∧
      (recordCheckpoint .ascii (.at Sample.start)
          (Sample.declare (Sample.uuid 'c') (Sample.uuid 'd') 2)).Yields
        (Pool.empty.run .ascii Sample.reclaimed).db (row, false) db' ∧
      (row.effectId = some "e1" ∧ row.effectState = .pending ∧ row.leaseGeneration = 1) ∧
      db'.hasUnresolvedEffect Sample.taskId = false ∧
      ¬ RecordedUnderLease .ascii (Pool.empty.run .ascii Sample.reclaimed) (.at Sample.start)
          (Sample.declare (Sample.uuid 'c') (Sample.uuid 'd') 2) row false := by
  have passes : (recordCheckpoint .ascii (.at Sample.start)
      (Sample.declare (Sample.uuid 'c') (Sample.uuid 'd') 2)).test
        (Pool.empty.run .ascii Sample.reclaimed).db (fun r db => decide (r.2 = false ∧
          (r.1.effectId = some "e1" ∧ r.1.effectState = .pending ∧ r.1.leaseGeneration = 1) ∧
          db.hasUnresolvedEffect Sample.taskId = false)) = true := by
    decide +kernel
  obtain ⟨⟨row, created⟩, db', accepted, outcome⟩ := test_iff.mp passes
  obtain ⟨rfl, replayed, settled⟩ := of_decide_eq_true outcome
  refine ⟨row, db', Pool.reachable_run (by decide), accepted, replayed, settled, fun recorded => ?_⟩
  have claimed : (row.leaseGeneration : Int) = 2 := recorded.generation
  have first : row.leaseGeneration = 1 := replayed.2.2
  omega

end WorkerPool
