import WorkerPool.Governance
import WorkerPool.Sweeps

/-!
# What an exact claim leaves alone

A claim of one named task writes that task, its new attempt and the lane of its repository,
and a claim of any kind only leases tasks of its own fencing class.
-/

namespace WorkerPool

open PyText Transaction Transaction.Tx
open Transition.System (Reachable)
open Table (first)

/-- No table but the tasks and the attempts has changed, apart from the lane of a repository. -/
structure Db.Apart (repository : String) (db db' : Db) : Prop where
  workers : db'.workers = db.workers
  affinities : db'.affinities = db.affinities
  cutover : db'.cutover = db.cutover
  lanes : ∀ other, other ≠ repository → db'.lanes.find? other = db.lanes.find? other

instance (repository : String) : Std.Refl (Db.Apart repository) :=
  ⟨fun _ => ⟨rfl, rfl, rfl, fun _ _ => rfl⟩⟩

instance (repository : String) : IsTrans Db (Db.Apart repository) where
  trans _ _ _ h h' := ⟨h'.workers.trans h.workers, h'.affinities.trans h.affinities,
    h'.cutover.trans h.cutover, fun other ne => (h'.lanes other ne).trans (h.lanes other ne)⟩

section Grant

variable {repository : String} {c : Call}

theorem Db.Aside.apart {db db' : Db} (h : db.Aside db') : db.Apart repository db' :=
  ⟨h.workers, h.affinities, h.cutover, fun _ _ => by rw [h.lanes]⟩

theorem modifyLane_apart (f : Lane → Lane) (keeps) :
    (write fun db => db.modifyLane repository f keeps : Body Unit).Within (Db.Apart repository) := by
  refine .write fun db => ⟨rfl, rfl, rfl, fun other ne => ?_⟩
  have found := Table.find?_modify db.lanes repository other f keeps
  rwa [if_neg ne] at found

theorem grant_apart (a : ClaimTask) (role : Role) (ttl : Int) (token attemptId : Uuid)
    (row : Task) : (grant c a role ttl token attemptId row).Within (Db.Apart row.repository) := by
  refine (Within.unwrap _ _).bind fun _ => (Within.read _).bind fun _ => ?_
  refine (Within.require _ _).bind fun _ => ?_
  refine Within.bind ((updateTask_aside _ _ _).mono fun _ _ => Db.Aside.apart) fun _ => ?_
  refine (modifyLane_apart _ _).bind fun _ => Within.bind (.of_reads (getTask_reads _)) fun _ => ?_
  exact ((insertAttempt_within .aside _).mono fun _ _ => Db.Aside.apart).bind fun _ => .pure _

end Grant

/-- Only the file of one task and the lane of its repository have changed. -/
structure Db.TouchesOnly (taskId : String) (db db' : Db) : Prop where
  files : ∀ other, other ≠ taskId → db'.file other = db.file other
  workers : db'.workers = db.workers
  affinities : db'.affinities = db.affinities
  cutover : db'.cutover = db.cutover
  lanes : ∀ repository, (∀ t ∈ (db.file taskId).task, t.repository ≠ repository) →
    db'.lanes.find? repository = db.lanes.find? repository

section Claims

variable {rt : Runtime} {c : Call} {a : ClaimTask} {token attemptId : Uuid} {db db' : Db}

/-- An exact claim runs no recovery. -/
theorem claimRecovery_exact {id : String} (only : a.onlyTaskId = some id) :
    claimRecovery rt c a = pure () := by
  unfold claimRecovery
  rw [only]
  rfl

/-- A grant changes nothing beside the task that it has selected. -/
theorem claimTask_touches {id : String} {r : Task × Lease} (only : a.onlyTaskId = some id)
    (h : (claimTask rt c a token attemptId).Yields db (some r) db') :
    db.TouchesOnly id db' ∧ r.1.taskId = id := by
  simp only [claimTask, bind_yields, unwrap_yields, require_yields, atomically_yields,
    claimRecovery_exact only, pure_yields, read_yields] at h
  obtain ⟨role, _, ⟨_, rfl⟩, _, _, ⟨_, rfl⟩, _, _, ⟨_, rfl⟩, _, _, ⟨_, rfl⟩, _, _, isReady, _, _,
    ⟨rfl, rfl⟩, rest⟩ := h
  obtain rfl := (ready_reads c a.workerId role).yields isReady
  split at rest
  · cases (pure_yields.mp rest).1
  · rename_i row chosen
    simp only [bind_yields, pure_yields] at rest
    obtain ⟨_, _, granted, same, rfl⟩ := rest
    cases same
    have selected := selectForClaim_selected chosen
    obtain ⟨g, -, rfl, holds⟩ := grant_granted selected granted
    have named : row.taskId = id := selected.exact_ id only
    have apart := (grant_apart a role _ token attemptId row).yields granted
    subst named
    refine ⟨⟨holds.acts.others, apart.workers, apart.affinities, apart.cutover, ?_⟩, rfl⟩
    intro repository elsewhere
    exact apart.lanes repository fun same => elsewhere row selected.current same.symm

end Claims

/-- A task is as it was, or without a lease. -/
def Db.NoNewLease (db db' : Db) : Prop :=
  ∀ taskId, db'.file taskId = db.file taskId ∨ ∀ t ∈ (db'.file taskId).task, t.leasedBy = none

section Fencing

variable {rt : Runtime} {c : Call} {a : ClaimTask} {token attemptId : Uuid} {db mid db' : Db}

theorem Db.NoNewLease.trans (h : db.NoNewLease mid) (h' : mid.NoNewLease db') :
    db.NoNewLease db' := by
  intro taskId
  rcases h' taskId with same | free
  · rw [same]
    exact h taskId
  · exact .inr free

/-- A pass that releases the rows it has selected gives no lease. -/
theorem noNewLease_of_released {rows : List Task}
    (others : ∀ taskId, (∀ row ∈ rows, row.taskId ≠ taskId) → db'.file taskId = db.file taskId)
    (released : ∀ row ∈ rows, ∃ cause e,
      Does (db.file row.taskId) (.release cause e) (db'.file row.taskId)) :
    db.NoNewLease db' := by
  intro taskId
  by_cases visited : ∃ row ∈ rows, row.taskId = taskId
  · obtain ⟨row, hrow, rfl⟩ := visited
    obtain ⟨cause, e, does⟩ := released row hrow
    right
    intro t ht
    generalize (db'.file row.taskId) = after at does ht
    cases does
    cases ht
    rfl
  · push Not at visited
    exact .inl (others taskId visited)

theorem claimRecovery_noNewLease {u : Unit} (owned : db.Owned)
    (h : (claimRecovery rt c a).Yields db u mid) : db.NoNewLease mid := by
  unfold claimRecovery at h
  split at h
  · simp only [bind_yields, pure_yields] at h
    obtain ⟨_, between, expired, _, _, stalled, -, rfl⟩ := h
    obtain ⟨-, recovers⟩ := recover_recovers owned expired
    have moves : Relation.ReflTransGen (Db.Move rt .reconcile) db between :=
      recover_moves .cycle owned expired
    have owned' : between.Owned := Db.Move.owned_path moves owned
    obtain ⟨_, -, -, reroutes⟩ := recoverStalled_reroutes owned' stalled
    have first : db.NoNewLease between := noNewLease_of_released recovers.others fun row hrow =>
      (recovers.released row hrow).elim fun e does => ⟨_, e, does⟩
    have second : between.NoNewLease mid := noNewLease_of_released reroutes.others fun row hrow =>
      (reroutes.released row hrow).elim fun e does => ⟨_, e, does.1⟩
    exact first.trans second
  · obtain ⟨-, rfl⟩ := pure_yields.mp h
    exact fun _ => .inl rfl

/-- A task that a claim has leased is of the fencing class that was asked for. -/
theorem claimTask_fencing {r : Option (Task × Lease)} (owned : db.Owned)
    (h : (claimTask rt c a token attemptId).Yields db r db') {t' : Task}
    (stored : t' ∈ db'.tasks.rows) (leased : t'.leasedBy ≠ none) :
    t' ∈ db.tasks.rows ∨ t'.fencingRequired = a.fencingRequired := by
  obtain ⟨mid, recovered, outcome⟩ := claimTask_claims.returns h
  have kept : ∀ t ∈ mid.tasks.rows, t.leasedBy ≠ none → t ∈ db.tasks.rows := by
    intro t ht held
    have current : (mid.file t.taskId).task = some t := Db.current_of_mem ht
    rcases claimRecovery_noNewLease owned recovered t.taskId with same | free
    · rw [same] at current
      exact (Db.mem_file_task.mp current).1
    · exact absurd (free t current) held
  rcases outcome with ⟨-, rfl⟩ | ⟨row, g, -, -, granted⟩
  · exact .inl (kept t' stored leased)
  · have current : (db'.file t'.taskId).task = some t' := Db.current_of_mem stored
    by_cases same : t'.taskId = row.taskId
    · right
      have acts := granted.acts.file
      have before : (mid.file row.taskId).task = some row := granted.selected.current
      rw [same] at current
      generalize db'.file row.taskId = after at acts current
      cases acts with
      | grant found =>
        cases found.symm.trans before
        cases current
        exact granted.selected.fencing
    · rw [granted.acts.others t'.taskId same] at current
      exact .inl (kept t' (Db.mem_file_task.mp current).1 leased)

end Fencing

/-- An exact claim that grants its task touches only this task and its lane, and one that does
not changes nothing; whatever lease a claim of either kind has given is of its fencing class. -/
theorem exact_claim_frame {rt : Runtime} {s : Pool} (h : (pool rt).Reachable s) :
    (∀ c (a : ClaimTask) token attemptId id, a.onlyTaskId = some id →
      (∀ e db', (claimTask rt c a token attemptId).Fails s.db e db' → db' = s.db) ∧
      (∀ db', (claimTask rt c a token attemptId).Yields s.db none db' → db' = s.db) ∧
      ∀ r db', (claimTask rt c a token attemptId).Yields s.db (some r) db' →
        s.db.TouchesOnly id db' ∧ r.1.taskId = id) ∧
    ∀ c a token attemptId r db', (claimTask rt c a token attemptId).Yields s.db r db' →
      ∀ t' ∈ db'.tasks.rows, t'.leasedBy ≠ none →
        t' ∈ s.db.tasks.rows ∨ t'.fencingRequired = a.fencingRequired := by
  constructor
  · intro c a token attemptId id only
    refine ⟨fun e db' raised => claimTask_claims.raises raised, fun db' returned => ?_,
      fun r db' returned => claimTask_touches only returned⟩
    obtain ⟨mid, recovered, outcome⟩ := claimTask_claims.returns returned
    rw [claimRecovery_exact only] at recovered
    obtain ⟨-, rfl⟩ := pure_yields.mp recovered
    rcases outcome with ⟨-, same⟩ | ⟨row, g, granted, -⟩
    · exact same
    · cases granted
  · intro c a token attemptId r db' returned t' stored leased
    exact claimTask_fencing (reachable_owned h) returned stored leased

namespace Sample

/-- An exact claim of the task that `enqueue` admits. -/
def exactClaim (workerId : String) (fenced : Bool) : ClaimTask :=
  ⟨workerId, "builder", "corr", none, some taskId, fenced⟩

end Sample

/-- An exact claim that has granted a fenced task, and one of the other class that has not. -/
theorem exact_claim_frame_sample :
    let s := Pool.empty.run .ascii (Sample.leased.take 4)
    (∃ r db', (claimTask .ascii (.at Sample.start) (Sample.exactClaim "b1" true) (Sample.uuid 'a')
      (Sample.uuid 'b')).Yields s.db (some r) db' ∧ s.db.TouchesOnly Sample.taskId db') ∧
    ∃ db', (claimTask .ascii (.at Sample.start) (Sample.exactClaim "b1" false) (Sample.uuid 'a')
      (Sample.uuid 'b')).Yields s.db none db' ∧ db' = s.db := by
  intro s
  have reach : (pool .ascii).Reachable s := Pool.reachable_run (by decide)
  obtain ⟨frame, -⟩ := exact_claim_frame reach
  constructor
  · have granted : (claimTask .ascii (.at Sample.start) (Sample.exactClaim "b1" true)
        (Sample.uuid 'a') (Sample.uuid 'b')).test s.db (fun r _ => r.isSome) = true := by
      decide +kernel
    obtain ⟨r, db', returned, some_⟩ := test_iff.mp granted
    obtain ⟨r, rfl⟩ := Option.isSome_iff_exists.mp some_
    exact ⟨r, db', returned, ((frame _ _ _ _ _ rfl).2.2 r db' returned).1⟩
  · have refused : (claimTask .ascii (.at Sample.start) (Sample.exactClaim "b1" false)
        (Sample.uuid 'a') (Sample.uuid 'b')).test s.db (fun r _ => r.isNone) = true := by
      decide +kernel
    obtain ⟨r, db', returned, none_⟩ := test_iff.mp refused
    obtain rfl := Option.isNone_iff_eq_none.mp none_
    exact ⟨db', returned, (frame _ _ _ _ _ rfl).2.1 db' returned⟩

end WorkerPool
