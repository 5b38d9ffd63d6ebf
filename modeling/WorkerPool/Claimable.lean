import WorkerPool.Admission
import WorkerPool.ExactClaims
import WorkerPool.Fencing

/-!
# When an exact claim is granted

A claim of one named task is granted when its worker is ready, the selection meets the task,
the lease ends within the calendar and no active task has the same workspace. In a sound
database none of the other statements of a grant can fail.
-/

namespace WorkerPool

open PyText Transaction Transaction.Tx
open Transition.System (Reachable)
open Relation (ReflTransGen)
open Table (first)

/-! ### Sound files -/

/-- What the statements of a grant rely on. -/
structure TaskFile.Sound (drawn : String → Prop) (f : TaskFile) : Prop where
  ledger : Ledger.OfFile f
  cycle : LifeCycle.OfFile f
  shaped : ∀ t ∈ f.task, isTaskId t.taskId = true
  attempts : ∀ a ∈ f.attempts, drawn a.attemptId

def Db.Sound (drawn : String → Prop) (db : Db) : Prop := ∀ taskId, (db.file taskId).Sound drawn

section Sound

variable {rt : Runtime} {f f' : TaskFile} {act : Act} {drawn : String → Prop} {s : Pool}

/-- Only a grant brings a new attempt. -/
theorem Does.attempt_named (h : Does f act f') {a : Attempt} (ha : a ∈ f'.attempts) :
    (∃ g, act = .grant g ∧ g.attemptId = a.attemptId) ∨
      ∃ b ∈ f.attempts, b.attemptId = a.attemptId := by
  cases h with
  | grant =>
    rcases List.mem_append.mp ha with old | new
    · exact .inr ⟨a, old, rfl⟩
    · rw [List.mem_singleton.mp new]
      exact .inl ⟨_, rfl, rfl⟩
  | @renew t p expires =>
    obtain ⟨b, hb, rfl⟩ := List.mem_map.mp ha
    exact .inr ⟨b, hb, (b.renewedTo_attemptId t.attemptId expires).symm⟩
  | @release t cause e m stamp reason =>
    obtain ⟨b, hb, rfl⟩ := List.mem_map.mp ha
    exact .inr ⟨b, hb, (b.closedBy_attemptId t.attemptId stamp reason).symm⟩
  | enqueue | start | checkpoint | reconcile | requeue => exact .inr ⟨a, ha, rfl⟩

theorem reachable_attempt_drawn (h : (pool rt).Reachable s) (taskId : String) :
    ∀ a ∈ (s.db.file taskId).attempts, s.Drawn a.attemptId := by
  refine h.strengthen (P := fun s => ∀ a ∈ (s.db.file taskId).attempts, s.Drawn a.attemptId)
    (fun _ => reachable_owned) ?_ ?_
  · rintro _ rfl a ha
    cases ha
  · rintro s ⟨c, op⟩ s' owned drawn st
    refine path_file (P := fun f => ∀ a ∈ f.attempts, s'.Drawn a.attemptId) ?_
      (step_moves owned st) fun a ha => step_drawn st (drawn a ha)
    intro f act f' may before does a ha
    rcases does.attempt_named ha with ⟨g, rfl, named⟩ | ⟨b, hb, same⟩
    · obtain ⟨-, rfl⟩ := st
      cases may with
      | @grant a token attemptId g taskId worker role token' attempt =>
        refine ⟨attemptId, List.mem_append_left _ ?_, attempt.symm.trans named⟩
        exact List.mem_cons_of_mem _ List.mem_cons_self
    · rw [← same]
      exact before b hb

theorem reachable_claimSound (h : (pool rt).Reachable s) : s.db.Sound s.Drawn := fun taskId =>
  ⟨file_ledger h taskId, file_lifeCycle h taskId, file_isTaskId h taskId,
    reachable_attempt_drawn h taskId⟩

theorem TaskFile.Sound.released {cause : Cause} {e : Ending} (h : f.Sound drawn)
    (does : Does f (.release cause e) f') : f'.Sound drawn := by
  refine ⟨h.ledger.does does, h.cycle.does does, fun t' ht' => ?_, fun a ha => ?_⟩
  · cases ht : f.task with
    | none =>
      cases does with
      | release _ _ _ _ current => cases current.symm.trans ht
    | some t =>
      obtain ⟨_, stored, same⟩ := does.identified ht
      obtain rfl := Option.some.inj (stored.symm.trans ht')
      rw [same.taskId]
      exact h.shaped t ht
  · rcases does.attempt_named ha with ⟨g, absent, -⟩ | ⟨b, hb, same⟩
    · cases absent
    · rw [← same]
      exact h.attempts b hb

/-- Recovery keeps a database sound. -/
theorem Db.Sound.recovered {db db' : Db} (h : db.Sound drawn)
    (path : ReflTransGen (Db.Move rt .reconcile) db db') : db'.Sound drawn := by
  intro taskId
  refine path_file (P := fun f => f.Sound drawn) ?_ path (h taskId)
  intro f act f' may sound does
  cases may with
  | expiry | watchdog => exact sound.released does

end Sound

/-! ### The worker and the selection -/

/-- What `_ready` asks of a stored worker. -/
structure Db.Ready (db : Db) (c : Call) (w : Worker) : Prop where
  governed : w.profile = .normal ∧ w.gatewayOk = true ∧ w.stateValidated = true
  rules : c.store.expectedRulesSha ≠ none → w.rulesSha = c.store.expectedRulesSha
  fresh : ∃ heartbeat, Calendar.parseIso w.lastHeartbeatAt = some heartbeat ∧
    heartbeatStale c (c.clock .ready) heartbeat = false
  free : db.workerBusy w.workerId = false

/-- The call claims the task for the worker, in the role that the worker has. -/
structure ClaimTask.Asks (rt : Runtime) (c : Call) (a : ClaimTask) (t : Task) (w : Worker) :
    Prop where
  worker : a.workerId = w.workerId
  role : Role.ofText (rt.lower a.role) = some w.role
  only : a.onlyTaskId = some t.taskId
  fencing : a.fencingRequired = t.fencingRequired
  lease : 1 ≤ orDefault a.leaseSeconds c.store.defaultLeaseSeconds

/-- The `WHERE` of the selection for each role. -/
def Db.eligible (db : Db) (a : ClaimTask) : Role → Task × Lane → Bool
  | .builder => db.builderEligible a
  | .validator => db.validatorEligible a

section Exact

variable {rt : Runtime} {c : Call} {a : ClaimTask} {t : Task} {w : Worker} {db db' : Db}
  {role : Role}

theorem ready_yields (hw : w ∈ db.workers.rows) {w' : Worker} :
    (ready c w.workerId w.role).Yields db w' db' ↔ db.Ready c w ∧ w' = w ∧ db' = db := by
  have stored : db.workers.find? w.workerId = some w := Table.find?_of_mem hw
  simp only [ready, parseStamp, bind_yields, read_yields, unwrap_yields, require_yields,
    pure_yields]
  constructor
  · rintro ⟨_, _, ⟨rfl, rfl⟩, _, _, ⟨found, rfl⟩, _, _, ⟨-, rfl⟩, _, _, ⟨profile, rfl⟩, _, _,
      ⟨governed, rfl⟩, _, _, ⟨rules, rfl⟩, heartbeat, _, ⟨parsed, rfl⟩, _, _, ⟨fresh, rfl⟩, _, _,
      ⟨rfl, rfl⟩, _, _, ⟨free, rfl⟩, rfl, rfl⟩
    obtain rfl := Option.some.inj (found.symm.trans stored)
    exact ⟨⟨⟨profile, governed⟩, rules, ⟨heartbeat, parsed, fresh⟩, free⟩, rfl, rfl⟩
  · rintro ⟨⟨⟨profile, governed⟩, rules, ⟨heartbeat, parsed, fresh⟩, free⟩, rfl, rfl⟩
    exact ⟨_, _, ⟨rfl, rfl⟩, _, _, ⟨stored, rfl⟩, (), _, ⟨rfl, rfl⟩, (), _, ⟨profile, rfl⟩, (), _,
      ⟨governed, rfl⟩, (), _, ⟨rules, rfl⟩, heartbeat, _, ⟨parsed, rfl⟩, (), _, ⟨fresh, rfl⟩, _, _,
      ⟨rfl, rfl⟩, (), _, ⟨free, rfl⟩, rfl, rfl⟩

/-- An exact selection meets the task, or nothing. -/
theorem selectForClaim_exact (ht : t ∈ db.tasks.rows) (only : a.onlyTaskId = some t.taskId)
    (row : Task) : db.selectForClaim a role = some row ↔ row = t ∧
      ∃ l, db.lanes.find? t.repository = some l ∧ db.eligible a role (t, l) = true := by
  have joined : ∀ l, (t, l) ∈ db.joinLanes ↔ db.lanes.find? t.repository = some l := by
    intro l
    simp only [Db.joinLanes, List.mem_filterMap, Option.map_eq_some_iff, Prod.mk.injEq]
    constructor
    · rintro ⟨_, -, _, found, rfl, rfl⟩
      exact found
    · intro found
      exact ⟨t, ht, l, found, rfl, rfl⟩
  have mine : ∀ {row}, db.selectForClaim a role = some row → row = t := by
    intro row chosen
    have selected := selectForClaim_selected chosen
    have stored := (Db.mem_file_task.mp selected.current).1
    exact List.inj_on_of_nodup_map db.tasks.unique stored ht (selected.exact_ _ only)
  have some_ : (∃ row, db.selectForClaim a role = some row) ↔
      ∃ tr ∈ db.joinLanes, db.eligible a role tr = true := by
    have exists_ : ∀ (before : Task × Lane → Task × Lane → Bool) (p : Task × Lane → Bool),
        (∃ row, (first before (db.joinLanes.filter p)).map Prod.fst = some row) ↔
          ∃ tr ∈ db.joinLanes, p tr = true := by
      intro before p
      rw [← Option.isSome_iff_exists, Option.isSome_map, Option.isSome_iff_ne_none, ne_eq,
        Table.first_eq_none_iff, List.filter_eq_nil_iff]
      push Not
      rfl
    cases role with
    | builder => exact exists_ _ _
    | validator => exact exists_ _ _
  constructor
  · intro chosen
    obtain rfl := mine chosen
    refine ⟨rfl, ?_⟩
    cases role with
    | builder =>
      obtain ⟨⟨_, l⟩, best, rfl⟩ := Option.map_eq_some_iff.mp chosen
      obtain ⟨mem, eligible⟩ := List.mem_filter.mp (Table.first_mem best)
      exact ⟨l, (joined l).mp mem, eligible⟩
    | validator =>
      obtain ⟨⟨_, l⟩, best, rfl⟩ := Option.map_eq_some_iff.mp chosen
      obtain ⟨mem, eligible⟩ := List.mem_filter.mp (Table.first_mem best)
      exact ⟨l, (joined l).mp mem, eligible⟩
  · rintro ⟨rfl, l, found, eligible⟩
    obtain ⟨other, chosen⟩ := some_.mpr ⟨_, (joined l).mpr found, eligible⟩
    rw [mine chosen] at chosen
    exact chosen

/-! ### The grant -/

/-- What a grant asks of the clock and of the workspace index. -/
structure Db.Grants (db : Db) (c : Call) (role : Role) (ttl : Int) (t : Task) : Prop where
  ends : ∃ until_, (c.clock .now).shift? ttl = some until_
  space : db.workspaceTaken { t with state := role.nextState } = false

theorem insertAttempt_returns {row : Attempt}
    (generation : ∀ o ∈ db.attempts.rows, o.taskId = row.taskId →
      o.leaseGeneration ≠ row.leaseGeneration)
    (new : db.attempts.find? row.attemptId = none) :
    ∃ db', (insertAttempt row).Yields db () db' := by
  obtain ⟨attempts, inserted⟩ := Table.insert?_of_absent new
  refine ⟨{ db with attempts := attempts }, ?_⟩
  simp only [insertAttempt, bind_yields, read_yields, require_yields, unwrap_yields, write_yields]
  exact ⟨db, db, ⟨rfl, rfl⟩, (), db, ⟨fun o ho same => generation o ho same.1 same.2, rfl⟩,
    attempts, db, ⟨inserted, rfl⟩, rfl⟩

variable {drawn : String → Prop} {ttl : Int} {token attemptId : Uuid}

/-- The attempt of the next generation is not yet there. -/
theorem Db.Sound.next_attempt (sound : db.Sound drawn) (current : db.Current t)
    (fresh : ¬ drawn attemptId.hex) : db.attempts.find? attemptId.hex = none ∧
      ∀ o ∈ db.attempts.rows, o.taskId = t.taskId → o.leaseGeneration ≠ t.leaseGeneration + 1 := by
  have filed : ∀ o ∈ db.attempts.rows, o ∈ (db.file o.taskId).attempts := fun o ho =>
    List.mem_filter.mpr ⟨ho, decide_eq_true rfl⟩
  constructor
  · rw [Table.find?_eq_none_iff]
    intro o ho same
    have old := (sound o.taskId).attempts o (filed o ho)
    rw [show o.attemptId = attemptId.hex from same] at old
    exact fresh old
  · intro o ho mine next
    have ledger := (sound t.taskId).ledger.2 t current
    have mem : o.leaseGeneration ∈ (db.file t.taskId).attempts.map Attempt.leaseGeneration :=
      List.mem_map_of_mem (mine ▸ filed o ho)
    rw [ledger.generations, List.mem_range'_1] at mem
    omega

/-- In a sound database a grant fails for its end or for the workspace only. -/
theorem grant_yields_iff (sound : db.Sound drawn) (selected : db.Selected a role t)
    (free : t.leasedBy = none) (idle : db.workerBusy a.workerId = false)
    (fresh : ¬ drawn attemptId.hex) :
    (∃ r db', (grant c a role ttl token attemptId t).Yields db r db') ↔
      db.Grants c role ttl t := by
  have found : db.tasks.find? t.taskId = some t := selected.current
  have active : role.nextState.active = true := by cases role <;> rfl
  have unleased := ((sound t.taskId).ledger.2 t selected.current).unleased_of_worker free
  simp only [grant, shift, bind_yields, read_yields, unwrap_yields, require_yields, write_yields,
    getTask_yields, pure_yields]
  constructor
  · rintro ⟨_, _, until_, _, ⟨shifted, rfl⟩, _, _, ⟨rfl, rfl⟩, _, db, ⟨-, rfl⟩, _, mid, updated, -⟩
    obtain ⟨⟨-, -, space⟩, -⟩ := (updateTask_yields_iff found).mp updated
    exact ⟨⟨until_, shifted⟩, space⟩
  · rintro ⟨⟨until_, shifted⟩, space⟩
    let f : Task → Task := fun u => { u with
      state := role.nextState, leasedBy := some a.workerId, leaseToken := some token.hex
      leaseExpiresAt := some (Calendar.iso until_), attemptCount := u.attemptCount + 1
      validatorWorkerId := if role = .validator then some a.workerId else t.validatorWorkerId
      leaseGeneration := u.leaseGeneration + 1, attemptId := some attemptId.hex
      correlationId := a.correlationId, updatedAt := c.iso .stamp
      lastMaterialProgressAt := c.iso .stamp }
    have guard : guardFencedClaim t (f t) = false := by
      simp [guardFencedClaim, f, unleased.attempt, attemptId.hex_ne_empty]
    have worker : db.workerTaken (f t) = false := by
      refine Bool.eq_false_iff.mpr fun taken => ?_
      obtain ⟨-, taken⟩ := Bool.and_eq_true_iff.mp taken
      obtain ⟨o, ho, held⟩ := List.any_eq_true.mp taken
      obtain ⟨held, busy⟩ := Bool.and_eq_true_iff.mp held
      obtain ⟨-, held⟩ := Bool.and_eq_true_iff.mp held
      have isBusy : db.workerBusy a.workerId = true :=
        List.any_eq_true.mpr ⟨o, ho, Bool.and_eq_true_iff.mpr ⟨held, busy⟩⟩
      exact Bool.false_ne_true (idle.symm.trans isBusy)
    have updated : (updateTask t.taskId f).Yields db () (db.modifyTask t.taskId f) :=
      (updateTask_yields_iff found).mpr ⟨⟨guard, worker, space⟩, rfl⟩
    let counted := (db.modifyTask t.taskId f).modifyLane t.repository
      (countClaim role (c.iso .stamp)) (countClaim_repository role (c.iso .stamp))
    have stored : (counted.file t.taskId).task = some (f t) := by
      rw [(countClaim_writes _ role (c.iso .stamp) t.repository t.taskId).file, id,
        Db.file_modifyTask, if_pos rfl, selected.current]
      rfl
    obtain ⟨new, next⟩ := sound.next_attempt selected.current fresh
    have attempt : ∃ last, (insertAttempt {
        attemptId := attemptId.hex, taskId := t.taskId, leaseGeneration := t.leaseGeneration + 1
        workerId := a.workerId, role := role, leaseStartedAt := c.iso .stamp
        leaseExpiresAt := Calendar.iso until_, endedAt := none, endReason := none }).Yields
        counted () last := insertAttempt_returns next new
    obtain ⟨last, inserted⟩ := attempt
    exact ⟨_, last, until_, db, ⟨shifted, rfl⟩, _, db, ⟨rfl, rfl⟩, (), db,
      ⟨by simp [found, selected.wanted, free], rfl⟩, (), _, updated, (), counted, rfl, f t, counted,
      ⟨stored, rfl⟩, (), last, inserted, rfl, rfl⟩

/-- The conditions for a claim of the task by the worker. -/
structure Db.Claimable (db : Db) (c : Call) (a : ClaimTask) (t : Task) (w : Worker) : Prop where
  ready : db.Ready c w
  eligible : ∃ l, db.lanes.find? t.repository = some l ∧ db.eligible a w.role (t, l) = true
  grants : db.Grants c w.role (orDefault a.leaseSeconds c.store.defaultLeaseSeconds) t

/-- An exact claim is granted exactly under its conditions. -/
theorem claimTask_exact_iff (sound : db.Sound drawn) (ht : t ∈ db.tasks.rows)
    (hw : w ∈ db.workers.rows) (asks : a.Asks rt c t w) (fresh : ¬ drawn attemptId.hex) :
    (∃ r db', (claimTask rt c a token attemptId).Yields db (some r) db') ↔
      db.Claimable c a t w := by
  have current : db.Current t := Db.current_of_mem ht
  have shaped : ∀ id ∈ a.onlyTaskId, isTaskId id = true := by
    intro id hid
    obtain rfl := Option.some.inj (asks.only.symm.trans hid)
    exact (sound t.taskId).shaped t current
  have cycle := (sound t.taskId).cycle.2 t current
  have free : db.selectForClaim a w.role = some t → t.leasedBy = none := by
    intro chosen
    obtain ⟨-, l, -, eligible⟩ := (selectForClaim_exact ht asks.only t).mp chosen
    cases role : w.role with
    | builder =>
      rw [role] at eligible
      simp only [Db.eligible, Db.builderEligible, Bool.and_eq_true, beq_iff_eq] at eligible
      exact cycle.idle (by rw [eligible.1.1.1.1.1]; rfl)
    | validator =>
      rw [role] at eligible
      simp only [Db.eligible, Db.validatorEligible, Bool.and_eq_true,
        Option.isNone_iff_eq_none] at eligible
      exact eligible.1.1.1.1.2
  simp only [claimTask, bind_yields, unwrap_yields, require_yields, atomically_yields,
    claimRecovery_exact asks.only, pure_yields, read_yields, asks.worker]
  constructor
  · rintro ⟨r, db', _, _, ⟨known, rfl⟩, _, _, ⟨_, rfl⟩, _, _, ⟨_, rfl⟩, _, _, ⟨_, rfl⟩, _, _,
      isReady, _, _, ⟨rfl, rfl⟩, rest⟩
    obtain rfl := Option.some.inj (known.symm.trans asks.role)
    obtain ⟨isReady, -, rfl⟩ := (ready_yields hw).mp isReady
    split at rest
    · cases (pure_yields.mp rest).1
    · rename_i row chosen
      simp only [bind_yields, pure_yields] at rest
      obtain ⟨_, _, granted, same, rfl⟩ := rest
      obtain ⟨rfl, eligible⟩ := (selectForClaim_exact ht asks.only row).mp chosen
      have idle := isReady.free
      rw [← asks.worker] at idle
      exact ⟨isReady, eligible, (grant_yields_iff sound (selectForClaim_selected chosen)
        (free chosen) idle fresh).mp ⟨_, _, granted⟩⟩
  · rintro ⟨isReady, eligible, grants⟩
    have chosen := (selectForClaim_exact ht asks.only t).mpr ⟨rfl, eligible⟩
    have idle := isReady.free
    rw [← asks.worker] at idle
    obtain ⟨r, db', granted⟩ := (grant_yields_iff sound (selectForClaim_selected chosen)
      (free chosen) idle fresh).mpr grants
    refine ⟨r, db', w.role, db, ⟨asks.role, rfl⟩, (), db, ⟨asks.lease, rfl⟩, (), db, ⟨shaped, rfl⟩,
      (), db, ⟨trivial, rfl⟩, w, db, (ready_yields hw).mpr ⟨isReady, rfl, rfl⟩, some t, db,
      ⟨chosen.symm, rfl⟩, ?_⟩
    exact bind_yields.mpr ⟨r, db', granted, pure_yields.mpr ⟨rfl, rfl⟩⟩

end Exact

end WorkerPool
