import WorkerPool.Conduct

/-!
# Recovery passes, claims, and the run of a call

The loops of the two recovery passes and the claim that may run them first, and from
these the simulation theorem: a call that returns has moved every file by acts it may
perform, and a call that raises has moved none.
-/

namespace WorkerPool

open PyText Transaction Transaction.Tx
open Relation (ReflTransGen)
open Table (first)

/-! ### Recovery -/

section Recovery

variable {rt : Runtime} {c : Call} {op : Op} {db db' : Db}

/-- A verdict carried out is a release. -/
theorem settle_acts {mid : Db} {row : Task} {q : List Quarantine} {cause : Cause} {e : Ending}
    {v : Verdict} {stamp : String} {u : Unit} (owned : db.Owned) (current : db.Current row)
    (recorded : db.Writes row.taskId (fun x => { x with quarantine := x.quarantine ++ q }) mid)
    (h : (settle row stamp v).Yields mid u db') (state : v.state = e.state row)
    (reason : v.blockedReason = e.blockedReason row cause)
    (produced : e.producedSha row = row.producedSha) (active : row.state.active = true)
    (fits : cause.Fits row) (ends : Ends (db.file row.taskId) row cause e)
    (count : q.length = e.records) : db.Acts row.taskId (.release cause e) db' := by
  simp only [settle, bind_yields] at h
  obtain ⟨_, mid', ended, updated⟩ := h
  refine released_acts ⟨some v.lastError, row.correlationId, stamp, row.lastMaterialProgressAt,
    row.completedAt⟩ owned current recorded ended updated ?_ active fits ends count
  simp only [Task.released, Task.marked, state, reason, produced]

theorem recoverRow_acts {row : Task} {stamp : String} {u : Unit} (owned : db.Owned)
    (current : db.Current row) (active : row.state.active = true)
    (leased : row.leaseExpiresAt ≠ none) (h : (recoverRow rt stamp row).Yields db u db') :
    ∃ e, db.Acts row.taskId (.release .expiry e) db' := by
  simp only [recoverRow, bind_yields, read_yields, Db.hasUnresolvedEffect_file] at h
  obtain ⟨_, db, ⟨rfl, rfl⟩, rest⟩ := h
  split at rest
  · rename_i doubt
    simp only [bind_yields, pure_yields] at rest
    obtain ⟨_, _, ⟨rfl, rfl⟩, settled⟩ := rest
    exact ⟨_, settle_acts owned current (.no_record _ _) settled rfl rfl rfl active leased
      (.block fun _ => rfl) rfl⟩
  · rename_i certain
    have clear : ¬ (db.file row.taskId).InDoubt row := by simpa [TaskFile.InDoubt] using certain
    split at rest
    · rename_i exhausted
      simp only [bind_yields, pure_yields] at rest
      obtain ⟨_, _, recorded, _, _, ⟨rfl, rfl⟩, settled⟩ := rest
      obtain ⟨q, recorded⟩ := quarantineRow_writes recorded
      exact ⟨_, settle_acts owned current recorded settled rfl rfl rfl active leased
        (.failure exhausted clear) rfl⟩
    · rename_i left
      simp only [bind_yields, pure_yields] at rest
      obtain ⟨_, _, ⟨rfl, rfl⟩, settled⟩ := rest
      exact ⟨_, settle_acts owned current (.no_record _ _) settled rfl rfl rfl active leased
        (.retry (by omega) clear) rfl⟩

/-- Whether another worker could take the task is only read. -/
theorem workerIsAlternative_reads (c : Call) (row : Task) (worker : Worker) :
    (workerIsAlternative c row worker).Within Eq := by
  refine .ite (.pure _) (.ite (.pure _) (.ite (.pure _) (.ite (.pure _) ?_)))
  refine (Within.unwrap _ _).bind fun _ => .ite (.pure _) ?_
  exact (Within.read _).bind fun _ => (Within.read _).bind fun _ => .pure _

/-- A search that succeeds has met an alternative. -/
theorem search_found {row : Task} {workers : List Worker} {found : Bool}
    (h : (forEach workers found fun found worker =>
      if found then pure true else workerIsAlternative c row worker).Yields db true db') :
    found = true ∨ ∃ w ∈ workers, (workerIsAlternative c row w).Yields db true db := by
  induction workers generalizing found with
  | nil => exact .inl (forEach_nil_yields.mp h).1.symm
  | cons w rest ih =>
    obtain ⟨next, mid, here, later⟩ := forEach_cons_yields.mp h
    cases found with
    | true => exact .inl rfl
    | false =>
      obtain rfl := (workerIsAlternative_reads c row w).yields here
      rcases ih later with rfl | ⟨other, hmem, fits⟩
      · exact .inr ⟨w, List.mem_cons_self, here⟩
      · exact .inr ⟨other, List.mem_cons_of_mem _ hmem, fits⟩

/-- The tasks that the watchdog has counted. -/
def Stalled.total (s : Stalled) : Nat := s.rerouted + s.blocked + s.failed

/-- A visit of the watchdog is a release that it counts once. It sends a task back to wait
only where it has found another worker. -/
theorem recoverStalledRow_acts {row : Task} {stamp : String} {workers : List Worker}
    {result result' : Stalled} (owned : db.Owned) (current : db.Current row)
    (active : row.state.active = true)
    (h : (recoverStalledRow rt c stamp workers result row).Yields db result' db') :
    result'.total = result.total + 1 ∧ ∃ e, db.Acts row.taskId (.release .watchdog e) db' ∧
      (e = .retry → ∃ w ∈ workers, (workerIsAlternative c row w).Yields db true db) := by
  simp only [recoverStalledRow, bind_yields, read_yields, Db.hasUnresolvedEffect_file] at h
  obtain ⟨_, db, ⟨rfl, rfl⟩, rest⟩ := h
  split at rest
  · simp only [bind_yields, pure_yields] at rest
    obtain ⟨_, _, ⟨rfl, rfl⟩, _, _, settled, rfl, rfl⟩ := rest
    refine ⟨?_, _, settle_acts owned current (.no_record _ _) settled rfl rfl rfl active trivial
      (.block fun _ => rfl) rfl, by rintro ⟨⟩⟩
    simp only [Stalled.total]
    omega
  · rename_i certain
    have clear : ¬ (db.file row.taskId).InDoubt row := by simpa [TaskFile.InDoubt] using certain
    split at rest
    · rename_i exhausted
      simp only [bind_yields, pure_yields] at rest
      obtain ⟨_, _, recorded, _, _, ⟨rfl, rfl⟩, _, _, settled, rfl, rfl⟩ := rest
      obtain ⟨q, recorded⟩ := quarantineRow_writes recorded
      refine ⟨?_, _, settle_acts owned current recorded settled rfl rfl rfl active trivial
        (.failure exhausted clear) rfl, by rintro ⟨⟩⟩
      simp only [Stalled.total]
      omega
    · rename_i left
      simp only [bind_yields] at rest
      obtain ⟨alternative, _, search, rest⟩ := rest
      obtain rfl := (Within.forEach fun found worker =>
        .ite (.pure true) (workerIsAlternative_reads c row worker)).yields search
      split at rest
      · rename_i found
        simp only [bind_yields, pure_yields] at rest
        obtain ⟨_, _, ⟨rfl, rfl⟩, _, _, settled, rfl, rfl⟩ := rest
        refine ⟨?_, _, settle_acts owned current (.no_record _ _) settled rfl rfl rfl active trivial
          (.retry (by omega) clear) rfl, fun _ => ?_⟩
        · simp only [Stalled.total]
          omega
        · rw [found] at search
          exact (search_found search).resolve_left Bool.false_ne_true
      · simp only [bind_yields, pure_yields] at rest
        obtain ⟨_, _, ⟨rfl, rfl⟩, _, _, settled, rfl, rfl⟩ := rest
        refine ⟨?_, _, settle_acts owned current (.no_record _ _) settled rfl rfl rfl active trivial
          (.block fun doubt => absurd doubt clear) rfl, by rintro ⟨⟩⟩
        simp only [Stalled.total]
        omega

/-- The rows a pass still has to visit: each once, each as it is stored. -/
structure Pending (db : Db) (rows : List Task) : Prop where
  current : ∀ row ∈ rows, db.Current row
  distinct : (rows.map Task.taskId).Nodup

theorem Pending.of_filter (r : RowOrder) (p : Task → Bool) :
    Pending db (r.arrange (db.tasks.rows.filter p)) where
  current row h := Db.current_of_mem (List.mem_filter.mp ((r.perm _).mem_iff.mp h)).1
  distinct := by
    have kept : ((db.tasks.rows.filter p).map Task.taskId).Nodup :=
      db.tasks.unique.sublist (List.filter_sublist.map _)
    exact ((r.perm _).map Task.taskId).nodup_iff.mpr kept

theorem Pending.tail {row : Task} {rest : List Task} {act : Act} (h : Pending db (row :: rest))
    (moved : db.Acts row.taskId act db') : Pending db' rest := by
  have distinct := List.nodup_cons.mp h.distinct
  refine ⟨fun other hmem => ?_, distinct.2⟩
  refine moved.current (h.current other (List.mem_cons_of_mem _ hmem)) fun same => ?_
  exact distinct.1 (same ▸ List.mem_map_of_mem hmem)

/-- A pass whose every visit is an act is a path of acts. -/
theorem pass_moves {β : Type} {visit : β → Task → Body β} {P : Task → Prop}
    (act : ∀ {db db' : Db} {row acc acc'}, P row → db.Owned → db.Current row →
      (visit acc row).Yields db acc' db' →
      ∃ act, op.May rt row.taskId act ∧ db.Acts row.taskId act db')
    {rows : List Task} {acc acc' : β} (owned : db.Owned) (pending : Pending db rows)
    (each : ∀ row ∈ rows, P row) (h : (forEach rows acc visit).Yields db acc' db') :
    ReflTransGen (Db.Move rt op) db db' := by
  have run := forEach_yields (motive := fun rest _ s => ReflTransGen (Db.Move rt op) db s ∧
    Pending s rest ∧ ∀ row ∈ rest, P row) ?_ ⟨.refl, pending, each⟩ h
  · exact run.1
  · rintro row rest acc s acc' s' ⟨path, pending, each⟩ hvisit
    have owned' := Db.Move.owned_path path owned
    have hrow := List.mem_cons_self (a := row) (l := rest)
    obtain ⟨a, may, moved⟩ := act (each row hrow) owned' (pending.current row hrow) hvisit
    exact ⟨path.tail (.act may moved), pending.tail moved,
      fun other hmem => each other (List.mem_cons_of_mem _ hmem)⟩

theorem recover_moves {n : Nat} (recovers : op.Recovers) (owned : db.Owned)
    (h : (recover rt c).Yields db n db') : ReflTransGen (Db.Move rt op) db db' := by
  simp only [recover, bind_yields, read_yields, pure_yields] at h
  obtain ⟨_, db, ⟨rfl, rfl⟩, _, _, loop, rfl, rfl⟩ := h
  refine pass_moves (P := fun row => row.state.active = true ∧ row.leaseExpiresAt ≠ none) ?_ owned
    (.of_filter c.rowOrder _) ?_ loop
  · rintro db db' row _ _ ⟨active, leased⟩ owned current visit
    obtain ⟨e, moved⟩ := recoverRow_acts owned current active leased visit
    exact ⟨_, .expiry recovers, moved⟩
  · intro row hmem
    obtain ⟨-, test⟩ := List.mem_filter.mp ((c.rowOrder.perm _).mem_iff.mp hmem)
    obtain ⟨active, expired⟩ := Bool.and_eq_true_iff.mp test
    refine ⟨active, fun absent => ?_⟩
    simp [absent] at expired

theorem recoverStalled_moves {result : Stalled} (recovers : op.Recovers) (owned : db.Owned)
    (h : (recoverStalled rt c).Yields db result db') : ReflTransGen (Db.Move rt op) db db' := by
  simp only [recoverStalled, shift, bind_yields, read_yields, unwrap_yields] at h
  obtain ⟨_, _, ⟨_, rfl⟩, _, _, ⟨rfl, rfl⟩, _, db, ⟨rfl, rfl⟩, loop⟩ := h
  refine pass_moves (P := fun row => row.state.active = true) ?_ owned
    (.of_filter c.rowOrder _) ?_ loop
  · rintro db db' row _ _ active owned current visit
    obtain ⟨-, e, moved, -⟩ := recoverStalledRow_acts owned current active visit
    exact ⟨_, .watchdog recovers, moved⟩
  · intro row hmem
    obtain ⟨-, test⟩ := List.mem_filter.mp ((c.rowOrder.perm _).mem_iff.mp hmem)
    exact (Bool.and_eq_true_iff.mp test).1

end Recovery

/-! ### Claims -/

section Claims

variable {rt : Runtime} {c : Call} {db db' : Db} {a : ClaimTask} {role : Role}

theorem ready_reads (c : Call) (workerId : String) (role : Role) :
    (ready c workerId role).Within Eq := by
  refine (Within.read _).bind fun _ => (Within.unwrap _ _).bind fun _ => ?_
  refine (Within.require _ _).bind fun _ => (Within.require _ _).bind fun _ => ?_
  refine (Within.require _ _).bind fun _ => (Within.require _ _).bind fun _ => ?_
  refine (Within.unwrap _ _).bind fun _ => (Within.require _ _).bind fun _ => ?_
  exact (Within.read _).bind fun _ => (Within.require _ _).bind fun _ => .pure _

/-- What the selection for a claim has checked of the row. -/
structure Db.Selected (db : Db) (a : ClaimTask) (role : Role) (row : Task) : Prop where
  current : db.Current row
  wanted : row.state = role.wanted
  fencing : row.fencingRequired = a.fencingRequired
  exact_ : ∀ id ∈ a.onlyTaskId, row.taskId = id
  room : role = .builder → db.HasRoom row.taskId
  validates : role = .validator → row.producedSha ≠ none ∧ row.builderWorkerId ≠ some a.workerId

theorem mem_joinLanes {t : Task} {l : Lane} (h : (t, l) ∈ db.joinLanes) :
    t ∈ db.tasks.rows ∧ db.lanes.find? t.repository = some l := by
  simp only [Db.joinLanes, List.mem_filterMap, Option.map_eq_some_iff] at h
  obtain ⟨t, hmem, l, found, ⟨⟩⟩ := h
  exact ⟨hmem, found⟩

theorem selectForClaim_selected {row : Task} (h : db.selectForClaim a role = some row) :
    db.Selected a role row := by
  cases role with
  | builder =>
    obtain ⟨⟨t, l⟩, best, rfl⟩ := Option.map_eq_some_iff.mp h
    obtain ⟨joined, eligible⟩ := List.mem_filter.mp (Table.first_mem best)
    obtain ⟨hmem, lane⟩ := mem_joinLanes joined
    simp only [Db.builderEligible, Bool.and_eq_true, Bool.or_eq_true, beq_iff_eq,
      decide_eq_true_eq] at eligible
    obtain ⟨⟨⟨⟨⟨state, fencing⟩, -⟩, -⟩, room⟩, only⟩ := eligible
    have current := Db.current_of_mem hmem
    refine ⟨current, state, fencing, ?_, fun _ => ?_, nofun⟩
    · intro id hid
      simpa [Option.mem_def.mp hid, eq_comm] using only
    · intro u hu
      cases Option.some.inj (Eq.trans (Eq.symm current) hu)
      exact ⟨l.maxInFlight, Option.map_eq_some_iff.mpr ⟨l, lane, rfl⟩, room⟩
  | validator =>
    obtain ⟨⟨t, l⟩, best, rfl⟩ := Option.map_eq_some_iff.mp h
    obtain ⟨joined, eligible⟩ := List.mem_filter.mp (Table.first_mem best)
    obtain ⟨hmem, -⟩ := mem_joinLanes joined
    simp only [Db.validatorEligible, Bool.and_eq_true, Bool.or_eq_true, beq_iff_eq, bne_iff_ne,
      Option.isNone_iff_eq_none, Option.isSome_iff_ne_none] at eligible
    obtain ⟨⟨⟨⟨⟨⟨state, fencing⟩, -⟩, produced⟩, other⟩, -⟩, only⟩ := eligible
    refine ⟨Db.current_of_mem hmem, state, fencing, ?_, nofun, fun _ => ⟨produced, ?_⟩⟩
    · intro id hid
      simpa [Option.mem_def.mp hid, eq_comm] using only
    · intro same
      rcases other with absent | differs
      · rw [absent] at same
        cases same
      · exact differs same

/-- Counting a claim leaves every file and every lane's limit. -/
theorem countClaim_writes (db : Db) (role : Role) (stamp repository taskId : String) :
    db.Writes taskId id
      (db.modifyLane repository (countClaim role stamp) (countClaim_repository role stamp)) := by
  refine .of_eq (fun other => by simp [Db.modifyLane, Db.file]) fun other => ?_
  unfold Db.limit Db.modifyLane
  simp only [Table.find?_modify]
  split
  · cases db.lanes.find? other with
    | none => rfl
    | some l => cases role <;> rfl
  · rfl

/-- `uuid4` values are not empty texts. -/
theorem Uuid.hex_ne_empty (u : Uuid) : u.hex ≠ "" := by
  intro h
  have shape := u.isHex
  rw [h] at shape
  revert shape
  decide

/-- The lease handed to the caller. -/
def Grant.lease (g : Grant) (row : Task) : Lease :=
  ⟨row.taskId, g.leaseToken, g.workerId, g.role, g.leaseExpiresAt, row.leaseGeneration + 1,
    g.attemptId⟩

/-- A claim granted on a selected row. -/
structure Db.Granted (db : Db) (a : ClaimTask) (token attemptId : Uuid) (row : Task) (g : Grant)
    (db' : Db) : Prop where
  selected : db.Selected a g.role row
  worker : g.workerId = a.workerId
  token : g.leaseToken = token.hex
  attempt : g.attemptId = attemptId.hex
  acts : db.Acts row.taskId (.grant g) db'

/-- The grant of a selected row is an act, and returns the row and the lease it wrote. -/
theorem grant_granted {ttl : Int} {token attemptId : Uuid} {row : Task} {r : Task × Lease}
    (selected : db.Selected a role row)
    (h : (grant c a role ttl token attemptId row).Yields db r db') :
    ∃ g : Grant, g.role = role ∧ r = (g.row row, g.lease row) ∧
      db.Granted a token attemptId row g db' := by
  simp only [grant, shift, bind_yields, read_yields, unwrap_yields, require_yields, write_yields,
    getTask_yields, pure_yields] at h
  obtain ⟨until_, _, ⟨_, rfl⟩, _, _, ⟨rfl, rfl⟩, _, db, ⟨free, rfl⟩, _, mid, updated, _, _, rfl,
    claimed, _, ⟨found, rfl⟩, _, last, inserted, rfl, rfl⟩ := h
  have current : (db.file row.taskId).task = some row := selected.current
  let g : Grant := ⟨role, a.workerId, token.hex, attemptId.hex, Calendar.iso until_,
    a.correlationId, c.iso .stamp⟩
  have writes := (updateTask_writes updated).trans
    (countClaim_writes mid role (c.iso .stamp) row.repository row.taskId)
  have stored : claimed = g.row row := by
    rw [writes.file, current] at found
    exact (Option.some.inj found).symm
  subst stored
  have named : (g.row row).taskId = row.taskId := rfl
  rw [show row.taskId = (g.row row).taskId from rfl] at writes
  have inserted' := insertAttempt_writes inserted
  have unleased : row.leasedBy = none := by
    rw [show db.tasks.find? row.taskId = some row from current] at free
    simpa using (Bool.and_eq_true_iff.mp free).2
  have does := Does.grant (g := g) current selected.wanted unleased attemptId.hex_ne_empty
    selected.validates
  have all : db.Writes row.taskId _ db' := writes.trans inserted'
  refine ⟨g, rfl, rfl, selected, rfl, rfl, rfl, ?_, all.others, all.limits, ?_⟩
  · rw [all.file]
    simp only [current, Option.map_some]
    exact does
  · rintro _ ⟨⟩ builder
    exact selected.room builder

/-- The recovery that a general claim runs first is a path of acts; an exact claim runs none. -/
theorem claimRecovery_moves {token attemptId : Uuid} {mid : Db} {u : Unit} (owned : db.Owned)
    (h : (claimRecovery rt c a).Yields db u mid) :
    ReflTransGen (Db.Move rt (.claimTask a token attemptId)) db mid ∧
      (a.onlyTaskId ≠ none → mid = db) := by
  unfold claimRecovery at h
  split at h
  · rename_i general
    have all : a.onlyTaskId = none := Option.isNone_iff_eq_none.mp general
    have recovers : (Op.claimTask a token attemptId).Recovers := .claim all
    simp only [bind_yields, pure_yields] at h
    obtain ⟨_, between, expired, _, _, stalled, -, rfl⟩ := h
    have path := recover_moves recovers owned expired
    refine ⟨path.trans (recoverStalled_moves recovers (Db.Move.owned_path path owned) stalled), ?_⟩
    exact fun exactClaim => absurd all exactClaim
  · obtain ⟨-, rfl⟩ := pure_yields.mp h
    exact ⟨.refl, fun _ => rfl⟩

/-- What `claim_task` does: its recovery, and then at most one grant. -/
theorem claimTask_claims {token attemptId : Uuid} :
    (claimTask rt c a token attemptId).Atomic db fun r db' =>
      ∃ mid, (claimRecovery rt c a).Yields db () mid ∧
        ((r = none ∧ db' = mid) ∨ ∃ row g, r = some (g.row row, g.lease row) ∧
          Role.ofText (rt.lower a.role) = some g.role ∧
          mid.Granted a token attemptId row g db') := by
  refine Atomic.after_check Atomic.unwrap fun role known => ?_
  refine Atomic.after_check Atomic.require fun _ _ => ?_
  refine Atomic.after_check Atomic.require fun _ _ => ?_
  refine Atomic.atomically fun r db' h => ?_
  simp only [bind_yields, read_yields] at h
  obtain ⟨_, mid, recovered, _, _, isReady, _, _, ⟨rfl, rfl⟩, rest⟩ := h
  obtain rfl := (ready_reads c a.workerId role).yields isReady
  refine ⟨mid, recovered, ?_⟩
  split at rest
  · exact .inl (pure_yields.mp rest)
  · rename_i row chosen
    simp only [bind_yields, pure_yields] at rest
    obtain ⟨_, _, granted, rfl, rfl⟩ := rest
    obtain ⟨g, rfl, rfl, holds⟩ := grant_granted (selectForClaim_selected chosen) granted
    exact .inr ⟨row, g, rfl, known, holds⟩

/-- The same, with the recovery as a path of acts. -/
theorem claimTask_atomic {token attemptId : Uuid} (owned : db.Owned) :
    (claimTask rt c a token attemptId).Atomic db fun r db' =>
      ∃ mid, ReflTransGen (Db.Move rt (.claimTask a token attemptId)) db mid ∧
        (a.onlyTaskId ≠ none → mid = db) ∧
        ((r = none ∧ db' = mid) ∨ ∃ row g, r = some (g.row row, g.lease row) ∧
          Role.ofText (rt.lower a.role) = some g.role ∧
          mid.Granted a token attemptId row g db') := by
  refine claimTask_claims.mono fun r db' claims => ?_
  obtain ⟨mid, recovered, outcome⟩ := claims
  obtain ⟨path, exactClaim⟩ := claimRecovery_moves owned recovered
  exact ⟨mid, path, exactClaim, outcome⟩

end Claims

/-! ### The run of a call -/

section Run

variable {rt : Runtime} {c : Call} {op : Op} {db db' : Db}

instance (op : Op) : Std.Refl (Db.Still op) := ⟨Db.Still.refl op⟩

instance (op : Op) : IsTrans Db (Db.Still op) where
  trans _ _ _ h h' := by
    refine ⟨fun taskId => (h'.files taskId).trans (h.files taskId), ?_⟩
    rcases h.limits with configured | kept
    · exact .inl configured
    · rcases h'.limits with configured | kept'
      · exact .inl configured
      · exact .inr fun repository n limit => kept' repository n (kept repository n limit)

/-- A write beside the files and the lanes. -/
theorem Db.Still.of_lanes (op : Op) (files : ∀ taskId, db'.file taskId = db.file taskId)
    (lanes : db'.lanes = db.lanes) : Db.Still op db db' :=
  ⟨files, .inr fun repository n limit => by rw [← limit, Db.limit, lanes, Db.limit]⟩

theorem getWorker_still (workerId : String) : (getWorker workerId).Within (Db.Still op) :=
  (Within.read _).bind fun _ => .unwrap _ _

theorem ofExcept_still {α : Type} (e : Except PoolError α) :
    (ofExcept e).Within (Db.Still op) := by
  cases e with
  | ok a => exact .pure a
  | error e => exact .raise e

theorem registerWorker_still (a : RegisterWorker) :
    (registerWorker rt c a).Within (Db.Still op) := by
  refine (Within.require _ _).bind fun _ => (Within.unwrap _ _).bind fun _ => ?_
  refine (Within.unwrap _ _).bind fun _ => (Within.require _ _).bind fun _ => ?_
  refine (Within.atomically (.write fun db => ?_)).bind fun _ => getWorker_still _
  exact .of_lanes op (fun _ => rfl) rfl

theorem heartbeatWorker_still (a : Heartbeat) :
    (heartbeatWorker rt c a).Within (Db.Still op) := by
  refine (getWorker_still _).bind fun _ => (Within.unwrap _ _).bind fun _ => ?_
  refine (Within.atomically (.write fun db => ?_)).bind fun _ => getWorker_still _
  exact .of_lanes op (fun _ => rfl) rfl

/-- The only call that changes the limit of a lane that exists. -/
theorem configureRepository_still (repository : String) (enabled : Bool) (maxInFlight : Int) :
    (configureRepository c repository enabled maxInFlight).Within
      (Db.Still (.configureRepository repository enabled maxInFlight)) := by
  refine (ofExcept_still _).bind fun name => ?_
  split
  · exact .raise _
  · refine (Within.atomically (.write fun db => ?_)).bind fun _ => ?_
    · exact ⟨fun _ => rfl, .inl ⟨_, _, _, rfl⟩⟩
    · exact (ofExcept_still _).bind fun _ => (Within.read _).bind fun _ => .unwrap _ _

theorem replaceWorkerAffinities_still (workerId : String) (repositories : List String) :
    (replaceWorkerAffinities c workerId repositories).Within (Db.Still op) := by
  refine (getWorker_still _).bind fun _ => (ofExcept_still _).bind fun _ => ?_
  refine (Within.atomically ?_).bind fun _ => .pure _
  refine (Within.write fun db => .of_lanes op (fun _ => rfl) rfl).bind fun _ => ?_
  refine Within.forEach fun _ repository => Within.bind ?_ fun _ => ?_
  · exact ensureRepositoryLane_still c repository op
  · exact Within.write fun db => .of_lanes op (fun _ => rfl) rfl

theorem enableFencedCutover_still (correlationId : String) (drained exclusive : Bool) :
    (enableFencedCutover c correlationId drained exclusive).Within (Db.Still op) := by
  refine (Within.require _ _).bind fun _ => (Within.require _ _).bind fun _ => ?_
  refine (Within.atomically (.write fun db => ?_)).bind fun _ => .read _
  exact .of_lanes op (fun _ => rfl) rfl

/-- A body of the call: where it returns it has made moves of the call, where it raises
no file has moved. -/
structure Op.Simulated (rt : Runtime) (op : Op) {α : Type} (m : Body α) (db : Db) : Prop where
  returns : ∀ {a db'}, m.Yields db a db' → ReflTransGen (Db.Move rt op) db db'
  raises : ∀ {e db'}, m.Fails db e db' → Db.Still op db db'

theorem Op.Simulated.map {α β : Type} {m : Body α} {f : α → β} (h : Op.Simulated rt op m db) :
    Op.Simulated rt op (m >>= fun a => pure (f a)) db where
  returns hy := by
    obtain ⟨a, t, hm, hk⟩ := bind_yields.mp hy
    obtain ⟨-, rfl⟩ := pure_yields.mp hk
    exact h.returns hm
  raises hf := by
    rcases bind_fails.mp hf with hm | ⟨a, t, hm, hk⟩
    · exact h.raises hm
    · exact absurd hk pure_fails

theorem Op.Simulated.of_atomic {α : Type} {m : Body α} {post : α → Db → Prop}
    (h : m.Atomic db post) (path : ∀ a db', post a db' → ReflTransGen (Db.Move rt op) db db') :
    Op.Simulated rt op m db where
  returns hy := path _ _ (h.returns hy)
  raises hf := h.raises hf ▸ .refl op _

theorem Op.Simulated.of_still {α : Type} {m : Body α} (h : m.Within (Db.Still op)) :
    Op.Simulated rt op m db where
  returns hy := .single (.still (h.yields hy))
  raises hf := h.fails hf

/-- An operation that performs one act and reads the row back. -/
theorem Op.Simulated.of_act {m : Body Task} {taskId : String} {acts : Act → Prop}
    (h : m.Atomic db fun t db' =>
      (∃ act, acts act ∧ db.Acts taskId act db') ∧ (db'.file taskId).task = some t)
    (may : ∀ act, acts act → op.May rt taskId act) : Op.Simulated rt op m db :=
  .of_atomic h fun _ _ ⟨⟨act, holds, acts⟩, _⟩ => .single (.act (may act holds) acts)

theorem recoverExpiredLeases_simulated (owned : db.Owned) :
    Op.Simulated rt .recoverExpiredLeases (recoverExpiredLeases rt c) db :=
  .of_atomic (Atomic.atomically fun _ _ h => recover_moves .expired owned h) fun _ _ h => h

theorem recoverStalledTasks_simulated (owned : db.Owned) :
    Op.Simulated rt .recoverStalledTasks (recoverStalledTasks rt c) db :=
  .of_atomic (Atomic.atomically fun _ _ h => recoverStalled_moves .stalled owned h) fun _ _ h => h

theorem reconcile_simulated (owned : db.Owned) :
    Op.Simulated rt .reconcile (reconcile rt c) db := by
  refine .of_atomic (Atomic.atomically fun _ _ h => ?_) fun _ _ h => h
  simp only [bind_yields, pure_yields] at h
  obtain ⟨_, _, expired, _, _, stalled, rfl, rfl⟩ := h
  have path := recover_moves .cycle owned expired
  exact path.trans (recoverStalled_moves .cycle (Db.Move.owned_path path owned) stalled)

/-- The simulation theorem: every call moves the files by acts that it may perform. -/
theorem Op.run_simulated (owned : db.Owned) : Op.Simulated rt op (op.run rt c) db := by
  cases op with
  | registerWorker a => exact .map (.of_still (registerWorker_still a))
  | heartbeatWorker a => exact .map (.of_still (heartbeatWorker_still a))
  | configureRepository repository enabled maxInFlight =>
    exact .map (.of_still (configureRepository_still repository enabled maxInFlight))
  | replaceWorkerAffinities workerId repositories =>
    exact .map (.of_still (replaceWorkerAffinities_still workerId repositories))
  | enableFencedCutover correlationId drained exclusive =>
    exact .map (.of_still (enableFencedCutover_still correlationId drained exclusive))
  | enqueueTask a =>
    refine .map (.of_atomic enqueueTask_atomic ?_)
    rintro r db' ⟨mid, still, ⟨-, rfl⟩ | ⟨-, acts⟩⟩
    · exact .single (.still (still _))
    · exact .tail (.single (.still (still _))) (.act .enqueue acts)
  | claimTask a token attemptId =>
    refine .map (.of_atomic (claimTask_atomic owned) ?_)
    rintro r db' ⟨mid, path, -, ⟨-, rfl⟩ | ⟨row, g, -, known, granted⟩⟩
    · exact path
    · exact path.tail (.act (.grant granted.worker known granted.token granted.attempt)
        granted.acts)
  | renewLease p correlationId seconds =>
    exact .map (.of_act (renewLease_atomic owned) fun _ h => h ▸ .renew)
  | startTask p correlationId => exact .map (.of_act startTask_atomic fun _ h => h ▸ .start)
  | submitForValidation p producedSha correlationId =>
    exact .map (.of_act (submitForValidation_atomic owned) fun _ h => h ▸ .handoff)
  | completeTask p correlationId =>
    exact .map (.of_act (completeTask_atomic owned) fun _ h => h ▸ .completion)
  | failTask p correlationId reason =>
    refine .map (.of_act (failTask_atomic owned) ?_)
    rintro _ (rfl | rfl)
    · exact .retry
    · exact .failure
  | blockTask p correlationId reason =>
    refine .map (.of_act (blockTask_atomic owned) ?_)
    rintro _ ⟨stated, rfl⟩
    exact .block
  | recordCheckpoint a =>
    refine .map (.of_atomic recordCheckpoint_atomic ?_)
    rintro r db' ⟨t, content, correlationId, -, -, -, -, -, ⟨-, rfl, -⟩ | ⟨-, acts, -⟩⟩
    · exact .refl
    · exact .single (.act .checkpoint acts)
  | reconcileEffect a =>
    refine .map (.of_atomic reconcileEffect_atomic ?_)
    rintro r db' (⟨-, rfl⟩ | ⟨-, acts⟩)
    · exact .refl
    · exact .single (.act .reconcile acts)
  | requeueBlocked taskId correlationId =>
    exact .map (.of_act requeueBlocked_atomic fun _ h => h ▸ .requeue)
  | recoverExpiredLeases => exact .map (recoverExpiredLeases_simulated owned)
  | recoverStalledTasks => exact .map (recoverStalledTasks_simulated owned)
  | reconcile => exact .map (reconcile_simulated owned)

end Run

/-! ### Runs -/

section Runs

open Transition.System (Reachable Steps)

variable {rt : Runtime} {op : Op} {db db' : Db}

/-- A move leaves a file alone or performs on it an act of the call. -/
theorem Db.Move.file (h : Db.Move rt op db db') (taskId : String) :
    db'.file taskId = db.file taskId ∨
      ∃ act, op.May rt taskId act ∧ Does (db.file taskId) act (db'.file taskId) := by
  cases h with
  | still still => exact .inl (still.files taskId)
  | @act moved act may acts =>
    by_cases same : taskId = moved
    · subst same
      exact .inr ⟨act, may, acts.file⟩
    · exact .inl (acts.others taskId same)

/-- What each act of the call preserves of a file, the whole call preserves. -/
theorem path_file {P : TaskFile → Prop} {taskId : String}
    (step : ∀ f act f', op.May rt taskId act → P f → Does f act f' → P f')
    (path : ReflTransGen (Db.Move rt op) db db') (start : P (db.file taskId)) :
    P (db'.file taskId) := by
  induction path with
  | refl => exact start
  | tail _ move ih =>
    rcases move.file taskId with same | ⟨act, may, does⟩
    · rwa [same]
    · exact step _ act _ may ih does

theorem Pool.empty_owned : Pool.empty.db.Owned := fun _ => .empty

/-- A step of the pool is a path of moves, also where its call raises. -/
theorem step_moves {s t : Pool} {l : Call × Op} (owned : s.db.Owned)
    (st : (pool rt).step s l t) : ReflTransGen (Db.Move rt l.2) s.db t.db := by
  obtain ⟨-, rfl⟩ := st
  have simulated : Op.Simulated rt l.2 (l.2.run rt l.1) s.db := Op.run_simulated owned
  rcases yields_or_fails (l.2.run rt l.1) s.db with ⟨r, db', h⟩ | ⟨e, db', h⟩
  · have stop : (s.after rt l.1 l.2).db = db' := congrArg Prod.snd h
    rw [stop]
    exact simulated.returns h
  · have stop : (s.after rt l.1 l.2).db = db' := congrArg Prod.snd h
    rw [stop]
    exact .single (.still (simulated.raises h))

theorem reachable_owned {s : Pool} (h : (pool rt).Reachable s) : s.db.Owned := by
  refine h.invariant (fun _ init => init ▸ Pool.empty_owned) fun _ _ _ owned st => ?_
  exact Db.Move.owned_path (step_moves owned st) owned

/-- The rule for an invariant of files: it holds of the empty file and each act keeps it. -/
theorem reachable_file {P : TaskFile → Prop} (empty : P .empty)
    (step : ∀ f act f', P f → Does f act f' → P f') {s : Pool} (h : (pool rt).Reachable s)
    (taskId : String) : P (s.db.file taskId) := by
  refine h.strengthen (P := fun s => P (s.db.file taskId)) (fun _ => reachable_owned) ?_ ?_
  · rintro _ rfl
    exact empty
  · exact fun _ _ _ owned holds st =>
      path_file (fun f act f' _ => step f act f') (step_moves owned st) holds

/-- What each act keeps of a file, any further steps keep. -/
theorem steps_file {P : TaskFile → Prop} (step : ∀ f act f', P f → Does f act f' → P f')
    {s t : Pool} (h : (pool rt).Reachable s) (steps : (pool rt).Steps s t) {taskId : String}
    (start : P (s.db.file taskId)) : P (t.db.file taskId) := by
  have both : (pool rt).Reachable t ∧ P (t.db.file taskId) := by
    refine steps.preserves (P := fun t => (pool rt).Reachable t ∧ P (t.db.file taskId)) ?_ ⟨h, start⟩
    rintro s l s' ⟨reach, holds⟩ st
    exact ⟨reach.step st,
      path_file (fun f act f' _ => step f act f') (step_moves (reachable_owned reach) st) holds⟩
  exact both.2

/-- What each act keeps of a file, a call that returns keeps. -/
theorem returned_file {P : TaskFile → Prop} (step : ∀ f act f', P f → Does f act f' → P f')
    {s : Pool} (h : (pool rt).Reachable s) {c : Call} {r : Reply}
    (returned : (op.run rt c).Yields s.db r db') {taskId : String}
    (start : P (s.db.file taskId)) : P (db'.file taskId) :=
  path_file (fun f act f' _ => step f act f')
    ((Op.run_simulated (reachable_owned h)).returns returned) start

end Runs

end WorkerPool
