import WorkerPool.Aside
import WorkerPool.LifeCycle
import WorkerPool.Ledger

/-!
# What a recovery pass does to one task

A pass visits each row that it has selected once. The file of a task is moved by the visit
of its own row and by no other, so what a pass does to a task is read off one visit.
-/

namespace WorkerPool

open PyText Transaction Transaction.Tx
open Relation (ReflTransGen)

/-- The tables that the search for another worker reads beside the tasks. -/
structure Db.Beside (db db' : Db) : Prop where
  workers : db'.workers = db.workers
  affinities : db'.affinities = db.affinities

instance : Std.Refl Db.Beside := ⟨fun _ => ⟨rfl, rfl⟩⟩

instance : IsTrans Db Db.Beside where
  trans _ _ _ h h' := ⟨h'.workers.trans h.workers, h'.affinities.trans h.affinities⟩

theorem Db.Aside.beside {db db' : Db} (h : db.Aside db') : db.Beside db' :=
  ⟨h.workers, h.affinities⟩

section Visits

variable {β : Type} {visit : β → Task → Body β} {P : Task → Prop} {A : Db → Task → Act → Prop}

/-- A row is visited where the tasks that are not selected are still as they were. -/
def Visited (A : Db → Task → Act → Prop) (db : Db) (rows : List Task) (row : Task) (db' : Db) : Prop :=
  ∃ mid act, db.Beside mid ∧
    (∀ taskId, (∀ r ∈ rows, r.taskId ≠ taskId) → mid.file taskId = db.file taskId) ∧
    A mid row act ∧ Does (db.file row.taskId) act (db'.file row.taskId)

theorem pass_files
    (visits : ∀ {db db' : Db} {row acc acc'}, P row → db.Owned → db.Current row →
      (visit acc row).Yields db acc' db' →
      (∃ act, A db row act ∧ db.Acts row.taskId act db') ∧ db.Beside db')
    {db db' : Db} {rows : List Task} {acc acc' : β} (owned : db.Owned) (pending : Pending db rows)
    (each : ∀ row ∈ rows, P row) (h : (forEach rows acc visit).Yields db acc' db') :
    (∀ taskId, (∀ row ∈ rows, row.taskId ≠ taskId) → db'.file taskId = db.file taskId) ∧
      db.Beside db' ∧ ∀ row ∈ rows, Visited A db rows row db' := by
  induction rows generalizing db acc with
  | nil =>
    obtain ⟨-, rfl⟩ := forEach_nil_yields.mp h
    refine ⟨fun _ _ => rfl, Std.Refl.refl _, fun row hrow => ?_⟩
    cases hrow
  | cons row rest ih =>
    obtain ⟨acc₁, mid, first, later⟩ := forEach_cons_yields.mp h
    have hrow : row ∈ row :: rest := List.mem_cons_self
    obtain ⟨⟨act, holds, acts⟩, beside⟩ :=
      visits (each row hrow) owned (pending.current row hrow) first
    have distinct := (List.nodup_cons.mp pending.distinct).1
    obtain ⟨others, beside', visited⟩ := ih (acts.owned owned) (pending.tail acts)
      (fun other hmem => each other (List.mem_cons_of_mem _ hmem)) later
    refine ⟨fun taskId absent => ?_, IsTrans.trans _ _ _ beside beside', fun other hmem => ?_⟩
    · have apart : taskId ≠ row.taskId := fun same => absent row hrow same.symm
      refine (others taskId fun o ho => absent o (List.mem_cons_of_mem _ ho)).trans ?_
      exact acts.others taskId apart
    · rcases List.mem_cons.mp hmem with rfl | hmem
      · have after := others other.taskId fun o ho same =>
          distinct (same ▸ List.mem_map_of_mem ho)
        refine ⟨db, act, Std.Refl.refl _, fun _ _ => rfl, holds, ?_⟩
        rw [after]
        exact acts.file
      · obtain ⟨mid', act', besides, untouched, holds', does⟩ := visited other hmem
        have apart : other.taskId ≠ row.taskId := fun same =>
          distinct (same ▸ List.mem_map_of_mem hmem)
        refine ⟨mid', act', IsTrans.trans _ _ _ beside besides, fun taskId absent => ?_, holds', ?_⟩
        · have moved : taskId ≠ row.taskId := fun same => absent row hrow same.symm
          refine (untouched taskId fun o ho => absent o (List.mem_cons_of_mem _ ho)).trans ?_
          exact acts.others taskId moved
        · rw [← acts.others other.taskId apart]
          exact does

end Visits

section Passes

variable {rt : Runtime} {c : Call} {db db' : Db}

/-- A selected row: where it is stored and what the query has tested. -/
theorem mem_expiredRows {stamp : String} {row : Task} : row ∈ db.expiredRows stamp ↔
    row ∈ db.tasks.rows ∧ row.state.active = true ∧
      ∃ at_, row.leaseExpiresAt = some at_ ∧ at_ ≤ stamp := by
  simp only [Db.expiredRows, List.mem_filter, Bool.and_eq_true, Option.any_eq_true,
    decide_eq_true_eq]

theorem mem_stalledRows {cutoff : String} {row : Task} : row ∈ db.stalledRows cutoff ↔
    row ∈ db.tasks.rows ∧ row.state.active = true ∧ row.lastMaterialProgressAt ≤ cutoff := by
  simp only [Db.stalledRows, List.mem_filter, Bool.and_eq_true, decide_eq_true_eq]

/-- `_recover` counts the rows it has selected, releases each of them, and touches no other
task. -/
structure Recovers (db : Db) (rows : List Task) (db' : Db) : Prop where
  others : ∀ taskId, (∀ row ∈ rows, row.taskId ≠ taskId) → db'.file taskId = db.file taskId
  beside : db.Beside db'
  released : ∀ row ∈ rows, ∃ e, Does (db.file row.taskId) (.release .expiry e) (db'.file row.taskId)

theorem recover_recovers {n : Nat} (owned : db.Owned) (h : (recover rt c).Yields db n db') :
    n = (db.expiredRows (c.iso .recover)).length ∧
      Recovers db (db.expiredRows (c.iso .recover)) db' := by
  simp only [recover, bind_yields, read_yields, pure_yields] at h
  obtain ⟨_, db, ⟨rfl, rfl⟩, _, _, loop, rfl, rfl⟩ := h
  have same : ∀ row, row ∈ c.rowOrder.arrange (db.expiredRows (c.iso .recover)) ↔
      row ∈ db.expiredRows (c.iso .recover) := fun row => (c.rowOrder.perm _).mem_iff
  have passed := pass_files (A := fun _ _ act => ∃ e, act = .release .expiry e)
    (P := fun row => row.state.active = true ∧ row.leaseExpiresAt ≠ none) ?_ owned
    (.of_filter c.rowOrder _) ?_ loop
  · obtain ⟨others, beside, visited⟩ := passed
    refine ⟨(c.rowOrder.perm _).length_eq, fun taskId absent => ?_, beside, fun row hrow => ?_⟩
    · exact others taskId fun row hrow => absent row ((same row).mp hrow)
    · obtain ⟨_, _, _, _, ⟨e, rfl⟩, does⟩ := visited row ((same row).mpr hrow)
      exact ⟨e, does⟩
  · rintro db db' row _ _ ⟨active, leased⟩ owned current visit
    obtain ⟨e, acts⟩ := recoverRow_acts owned current active leased visit
    exact ⟨⟨_, ⟨e, rfl⟩, acts⟩, ((recoverRow_within .aside rt _ row).yields visit).beside⟩
  · intro row hrow
    obtain ⟨-, active, at_, expires, -⟩ := mem_expiredRows.mp ((same row).mp hrow)
    exact ⟨active, by simp [expires]⟩

/-- Another worker that could take a stalled task once every stalled task has been released. -/
structure Db.Offers (db : Db) (c : Call) (stalled : List Task) (row : Task) (w : Worker) : Prop where
  other : row.leasedBy ≠ some w.workerId
  role : w.role = if truthy row.producedSha then .validator else .builder
  governed : w.profile = .normal ∧ w.gatewayOk = true ∧ w.stateValidated = true
  rules : c.store.expectedRulesSha ≠ none → w.rulesSha = c.store.expectedRulesSha
  fresh : ∃ heartbeat, Calendar.parseIso w.lastHeartbeatAt = some heartbeat ∧
    heartbeatStale c (c.clock (.alternative row.taskId w.workerId)) heartbeat = false
  free : ∀ t ∈ db.tasks.rows, t.leasedBy = some w.workerId → t.state.active = true → t ∈ stalled
  affine : db.affine w.workerId row.repository = true

theorem Db.Offers.of_alternative {mid : Db} {rows : List Task} {row : Task} {w : Worker}
    (found : (workerIsAlternative c row w).Yields mid true mid) (beside : db.Beside mid)
    (untouched : ∀ taskId, (∀ r ∈ rows, r.taskId ≠ taskId) → mid.file taskId = db.file taskId)
    (current : ∀ r ∈ rows, db.Current r) : db.Offers c rows row w := by
  simp only [workerIsAlternative] at found
  have refused : ¬ (pure false : Body Bool).Yields mid true mid := fun h =>
    Bool.false_ne_true (pure_yields.mp h).1.symm
  by_cases other : some w.workerId = row.leasedBy
  · rw [if_pos other] at found
    exact absurd found refused
  rw [if_neg other] at found
  by_cases role : w.role ≠ (if truthy row.producedSha then .validator else .builder) ∨
      w.profile ≠ .normal
  · rw [if_pos role] at found
    exact absurd found refused
  rw [if_neg role] at found
  by_cases governed : ¬ w.gatewayOk = true ∨ ¬ w.stateValidated = true
  · rw [if_pos governed] at found
    exact absurd found refused
  rw [if_neg governed] at found
  by_cases rules : c.store.expectedRulesSha ≠ none ∧ w.rulesSha ≠ c.store.expectedRulesSha
  · rw [if_pos rules] at found
    exact absurd found refused
  rw [if_neg rules] at found
  simp only [parseStamp, bind_yields, unwrap_yields] at found
  obtain ⟨heartbeat, _, ⟨parsed, rfl⟩, rest⟩ := found
  by_cases stale : heartbeatStale c (c.clock (.alternative row.taskId w.workerId)) heartbeat = true
  · rw [if_pos stale] at rest
    exact absurd rest refused
  rw [if_neg stale] at rest
  simp only [bind_yields, read_yields, pure_yields] at rest
  obtain ⟨_, _, ⟨rfl, rfl⟩, _, mid, ⟨rfl, rfl⟩, both, -⟩ := rest
  obtain ⟨idle, affine⟩ := Bool.and_eq_true_iff.mp both.symm
  push Not at role governed rules
  refine ⟨fun same => other same.symm, role.1, ⟨role.2, governed.1, governed.2⟩, rules,
    ⟨heartbeat, parsed, Bool.eq_false_iff.mpr stale⟩, fun t ht leased active => ?_, ?_⟩
  · -- a task that is not among the visited ones still keeps its worker busy
    by_contra spared
    have stored : (db.file t.taskId).task = some t := Db.current_of_mem ht
    have apart : ∀ r ∈ rows, r.taskId ≠ t.taskId := by
      intro r hr same
      rw [← same] at stored
      exact spared (Option.some.inj ((current r hr).symm.trans stored) ▸ hr)
    have still : t ∈ mid.tasks.rows := by
      rw [← untouched t.taskId apart] at stored
      exact (Db.mem_file_task.mp stored).1
    have busy : mid.workerBusy w.workerId = true :=
      List.any_eq_true.mpr ⟨t, still, by simp [leased, active]⟩
    rw [busy] at idle
    cases idle
  · rw [Db.affine, beside.affinities] at affine
    exact affine

/-- `_recover_stalled` counts each row it has selected once and releases it. A row that it
sends back to wait could be offered to another worker. -/
structure Reroutes (db : Db) (c : Call) (rows : List Task) (db' : Db) : Prop where
  others : ∀ taskId, (∀ row ∈ rows, row.taskId ≠ taskId) → db'.file taskId = db.file taskId
  beside : db.Beside db'
  released : ∀ row ∈ rows, ∃ e,
    Does (db.file row.taskId) (.release .watchdog e) (db'.file row.taskId) ∧
      (e = .retry → ∃ w ∈ db.workers.rows, db.Offers c rows row w)

/-- Each visit counts the row it has released. -/
theorem stalledRows_total {stamp : String} {workers : List Worker} {rows : List Task}
    {result result' : Stalled} (owned : db.Owned) (pending : Pending db rows)
    (active : ∀ row ∈ rows, row.state.active = true)
    (h : (forEach rows result fun result row =>
      recoverStalledRow rt c stamp workers result row).Yields db result' db') :
    result'.total = result.total + rows.length := by
  induction rows generalizing db result with
  | nil =>
    obtain ⟨rfl, -⟩ := forEach_nil_yields.mp h
    rfl
  | cons row rest ih =>
    obtain ⟨result₁, mid, first, later⟩ := forEach_cons_yields.mp h
    have hrow : row ∈ row :: rest := List.mem_cons_self
    obtain ⟨one, e, acts, -⟩ :=
      recoverStalledRow_acts owned (pending.current row hrow) (active row hrow) first
    have counted := ih (acts.owned owned) (pending.tail acts)
      (fun other hmem => active other (List.mem_cons_of_mem _ hmem)) later
    rw [List.length_cons]
    omega

theorem recoverStalled_reroutes {result : Stalled} (owned : db.Owned)
    (h : (recoverStalled rt c).Yields db result db') :
    ∃ cutoff, (c.clock .stalled).shift? (-c.store.progressStallSeconds) = some cutoff ∧
      result.total = (db.stalledRows (Calendar.iso cutoff)).length ∧
      Reroutes db c (db.stalledRows (Calendar.iso cutoff)) db' := by
  simp only [recoverStalled, shift, bind_yields, read_yields, unwrap_yields] at h
  obtain ⟨cutoff, _, ⟨shifted, rfl⟩, _, _, ⟨rfl, rfl⟩, _, db, ⟨rfl, rfl⟩, loop⟩ := h
  let selected := db.stalledRows (Calendar.iso cutoff)
  have same : ∀ row, row ∈ c.rowOrder.arrange selected ↔ row ∈ selected :=
    fun row => (c.rowOrder.perm _).mem_iff
  have pending : Pending db (c.rowOrder.arrange selected) := .of_filter c.rowOrder _
  have active : ∀ row ∈ c.rowOrder.arrange selected, row.state.active = true :=
    fun row hrow => (mem_stalledRows.mp ((same row).mp hrow)).2.1
  have passed := pass_files (A := fun mid row act => ∃ e, act = .release .watchdog e ∧
    (e = .retry → ∃ w ∈ db.workers.rows, (workerIsAlternative c row w).Yields mid true mid))
    (P := fun row => row.state.active = true) ?_ owned pending active loop
  · obtain ⟨others, beside, visited⟩ := passed
    refine ⟨cutoff, shifted, ?_, fun taskId absent => ?_, beside, fun row hrow => ?_⟩
    · have total := stalledRows_total owned pending active loop
      rw [(c.rowOrder.perm _).length_eq] at total
      simpa [Stalled.total] using total
    · exact others taskId fun row hrow => absent row ((same row).mp hrow)
    · obtain ⟨mid, _, besides, untouched, ⟨e, rfl, finds⟩, does⟩ :=
        visited row ((same row).mpr hrow)
      refine ⟨e, does, fun retried => ?_⟩
      obtain ⟨w, hw, found⟩ := finds retried
      refine ⟨w, hw, .of_alternative found besides (fun taskId absent => ?_) fun r hr => ?_⟩
      · exact untouched taskId fun r hr => absent r ((same r).mp hr)
      · exact Db.current_of_mem (mem_stalledRows.mp hr).1
  · intro db₁ db₂ row result₁ result₂ active owned current visit
    obtain ⟨-, e, acts, finds⟩ := recoverStalledRow_acts owned current active visit
    exact ⟨⟨_, ⟨e, rfl, finds⟩, acts⟩, ((recoverStalledRow_within .aside rt c _ _ _ row).yields visit).beside⟩

end Passes

end WorkerPool
