import WorkerPool.Sweeps

/-!
# The reconciliation cycle, twice

One run of `reconcile` releases what has expired and then what has stalled. A second run at
the same instant finds nothing left, except where the first has sent a task with a revision
back to wait with its old progress: the second pass selects by a timestamp that neither pass
writes.
-/

namespace WorkerPool

open Calendar PyText Transaction Transaction.Tx

/-! ### The progress column -/

/-- No task has made progress, and none is new. -/
def Db.SameProgress (db db' : Db) : Prop := ∀ taskId,
  (db'.file taskId).task.map Task.lastMaterialProgressAt =
    (db.file taskId).task.map Task.lastMaterialProgressAt

instance : Std.Refl Db.SameProgress := ⟨fun _ _ => rfl⟩

instance : IsTrans Db Db.SameProgress where
  trans _ _ _ h h' taskId := (h' taskId).trans (h taskId)

section Progress

theorem settle_sameProgress (row : Task) (stamp : String) (v : Verdict) :
    (settle row stamp v).Within Db.SameProgress := by
  refine Within.bind (.ite (.write fun _ _ => rfl) (.pure _)) fun _ => ?_
  refine (Within.read _).bind fun _ => (Within.require _ _).bind fun _ => ?_
  refine (Within.require _ _).bind fun _ => (Within.require _ _).bind fun _ => ?_
  refine .write fun db taskId => ?_
  rw [Db.file_modifyTask]
  split
  · cases (db.file taskId).task <;> rfl
  · rfl

theorem recoverRow_sameProgress (rt : Runtime) (stamp : String) (row : Task) :
    (recoverRow rt stamp row).Within Db.SameProgress := by
  have settled : ∀ v, (do let v ← pure v; settle row stamp v : Body Unit).Within Db.SameProgress :=
    fun v => (Within.pure _).bind fun _ => settle_sameProgress _ _ _
  refine (Within.read _).bind fun _ => .ite (settled _) (.ite ?_ (settled _))
  exact (Within.write fun _ _ => rfl).bind fun _ => settled _

theorem recover_sameProgress (rt : Runtime) (c : Call) : (recover rt c).Within Db.SameProgress := by
  refine (Within.read _).bind fun _ => Within.bind ?_ fun _ => .pure _
  exact .forEach fun _ row => recoverRow_sameProgress rt _ row

end Progress

/-! ### What a pass leaves active -/

section Acts

variable {f f' : TaskFile} {cause : Cause} {e : Ending} {t t' : Task}

/-- A task that a recovery pass leaves active goes back to wait for a validator. -/
theorem Does.waits_again (h : Does f (.release cause e) f') (other : ∀ p, cause ≠ .caller p)
    (ht : f.task = some t) (ht' : f'.task = some t') (active : t'.state.active = true) :
    e = .retry ∧ truthy t.producedSha = true ∧ t.attemptCount < t.maxAttempts ∧ ¬ f.InDoubt t := by
  cases h with
  | release m stamp reason q current _ fits ends =>
    obtain rfl := Option.some.inj (current.symm.trans ht)
    cases ht'
    cases ends with
    | @handoff p => exact absurd rfl (other p)
    | @completion p => exact absurd rfl (other p)
    | retry left settled =>
      refine ⟨rfl, ?_, left, settled⟩
      by_contra none_
      simp [Task.released, Task.marked, Ending.state, Task.resumeState, none_, TaskState.active]
        at active
    | failure => cases active
    | block => cases active

theorem Does.unleased (h : Does f (.release cause e) f') (ht' : f'.task = some t') :
    t'.leaseExpiresAt = none := by
  cases h with
  | release => cases ht'; rfl

end Acts

/-! ### The cycle -/

section Cycle

variable {rt : Runtime} {c : Call} {db mid db' : Db} {cutoff : Instant}

/-- A task with a revision and attempts left that a run of `reconcile` sends back to wait as
its last progress stands: as its lease has expired, or as another worker could take it once
everything that has expired or stalled is released. -/
structure Db.Recounted (db : Db) (c : Call) (cutoff : Instant) (t : Task) : Prop where
  active : t.state.active = true
  produced : truthy t.producedSha = true
  left : t.attemptCount < t.maxAttempts
  settled : ¬ (t.fencingRequired = true ∧ db.hasUnresolvedEffect t.taskId = true)
  old : t.lastMaterialProgressAt ≤ iso cutoff
  again : (∃ at_, t.leaseExpiresAt = some at_ ∧ at_ ≤ c.iso .recover) ∨ ∃ w ∈ db.workers.rows,
    db.Offers c (db.expiredRows (c.iso .recover) ++ db.stalledRows (iso cutoff)) t w

/-- The rows that the counters of one run stand for, no task among them twice. -/
def CountsOnce (rt : Runtime) (c : Call) (db : Db) (expired : Nat) (stalled : Stalled) : Prop :=
  ∃ mid cutoff, (recover rt c).Yields db expired mid ∧
    (c.clock .stalled).shift? (-c.store.progressStallSeconds) = some cutoff ∧
    expired = (db.expiredRows (c.iso .recover)).length ∧
    stalled.total = (mid.stalledRows (iso cutoff)).length ∧
    ((db.expiredRows (c.iso .recover) ++ mid.stalledRows (iso cutoff)).map Task.taskId).Nodup

/-- A row of the second pass is stored before the first, with the same progress. -/
theorem Db.SameProgress.stored (same : db.SameProgress mid) {u : Task}
    (hu : u ∈ mid.tasks.rows) : ∃ t ∈ db.tasks.rows, t.taskId = u.taskId ∧
      t.lastMaterialProgressAt = u.lastMaterialProgressAt := by
  have column := same u.taskId
  have current : (mid.file u.taskId).task = some u := Db.current_of_mem hu
  rw [current] at column
  obtain ⟨t, ht, progress⟩ := Option.map_eq_some_iff.mp column.symm
  obtain ⟨stored, name⟩ := Db.mem_file_task.mp ht
  exact ⟨t, stored, name, progress⟩

theorem Db.SameProgress.progress (same : db.SameProgress mid) {t u : Task}
    (ht : t ∈ db.tasks.rows) (hu : u ∈ mid.tasks.rows) (name : u.taskId = t.taskId) :
    u.lastMaterialProgressAt = t.lastMaterialProgressAt := by
  obtain ⟨t', ht', name', progress⟩ := same.stored hu
  rw [← progress, List.inj_on_of_nodup_map db.tasks.unique ht' ht (name'.trans name)]

/-- No task is released by both passes. -/
theorem expired_not_stalled
    (quiet : ∀ t ∈ db.tasks.rows, ¬ db.Recounted c cutoff t) (same : db.SameProgress mid)
    (expired : Recovers db (db.expiredRows (c.iso .recover)) mid) {t u : Task}
    (ht : t ∈ db.expiredRows (c.iso .recover)) (hu : u ∈ mid.stalledRows (iso cutoff)) :
    t.taskId ≠ u.taskId := by
  intro name
  obtain ⟨stored, active, at_, expires, passed⟩ := mem_expiredRows.mp ht
  obtain ⟨stored', active', old⟩ := mem_stalledRows.mp hu
  obtain ⟨e, does⟩ := expired.released t ht
  have current : (db.file t.taskId).task = some t := Db.current_of_mem stored
  have current' : (mid.file t.taskId).task = some u := name ▸ Db.current_of_mem stored'
  obtain ⟨-, produced, left, settled⟩ := does.waits_again nofun current current' active'
  refine quiet t stored ⟨active, produced, left, ?_, ?_, .inl ⟨at_, expires, passed⟩⟩
  · rw [Db.hasUnresolvedEffect_file]
    exact settled
  · rw [← same.progress stored stored' name.symm]
    exact old

/-- A task that no row of a pass names is the same before and after it. -/
theorem stored_before {before after : Db} {rows : List Task}
    (others : ∀ taskId, (∀ row ∈ rows, row.taskId ≠ taskId) → after.file taskId = before.file taskId)
    {u : Task} (hu : u ∈ after.tasks.rows) (absent : ∀ row ∈ rows, row.taskId ≠ u.taskId) :
    u ∈ before.tasks.rows := by
  have current : (after.file u.taskId).task = some u := Db.current_of_mem hu
  rw [others u.taskId absent] at current
  exact (Db.mem_file_task.mp current).1

theorem nothing_expired {stamp : String} {rows : List Task}
    (expired : Recovers db (db.expiredRows stamp) mid) (stalled : Reroutes mid c rows db') :
    db'.expiredRows stamp = [] := by
  refine List.eq_nil_iff_forall_not_mem.mpr fun u hu => ?_
  obtain ⟨stored, active, at_, expires, passed⟩ := mem_expiredRows.mp hu
  have current : (db'.file u.taskId).task = some u := Db.current_of_mem stored
  by_cases visited : ∃ row ∈ rows, row.taskId = u.taskId
  · obtain ⟨row, hrow, name⟩ := visited
    obtain ⟨e, does, -⟩ := stalled.released row hrow
    cases (does.unleased (name ▸ current)).symm.trans expires
  · have between := stored_before stalled.others stored fun row hrow name =>
      visited ⟨row, hrow, name⟩
    by_cases recovered : ∃ row ∈ db.expiredRows stamp, row.taskId = u.taskId
    · obtain ⟨row, hrow, name⟩ := recovered
      obtain ⟨e, does⟩ := expired.released row hrow
      cases (does.unleased (name ▸ Db.current_of_mem between)).symm.trans expires
    · have before := stored_before expired.others between fun row hrow name =>
        recovered ⟨row, hrow, name⟩
      exact recovered ⟨u, mem_expiredRows.mpr ⟨before, active, at_, expires, passed⟩, rfl⟩

/-- What is offered after the first pass would be offered once both have released. -/
theorem Db.Offers.before {row : Task} {w : Worker}
    (expired : Recovers db (db.expiredRows (c.iso .recover)) mid)
    (offers : mid.Offers c (mid.stalledRows (iso cutoff)) row w) :
    db.Offers c (db.expiredRows (c.iso .recover) ++ db.stalledRows (iso cutoff)) row w where
  other := offers.other
  role := offers.role
  governed := offers.governed
  rules := offers.rules
  fresh := offers.fresh
  affine := by
    have affine := offers.affine
    rwa [Db.affine, expired.beside.affinities] at affine
  free t ht leased active := by
    by_cases recovered : ∃ r ∈ db.expiredRows (c.iso .recover), r.taskId = t.taskId
    · obtain ⟨r, hr, name⟩ := recovered
      have same := List.inj_on_of_nodup_map db.tasks.unique (mem_expiredRows.mp hr).1 ht name
      exact List.mem_append_left _ (same ▸ hr)
    · have current : (mid.file t.taskId).task = some t := by
        rw [expired.others t.taskId fun r hr name => recovered ⟨r, hr, name⟩]
        exact Db.current_of_mem ht
      have stored := (Db.mem_file_task.mp current).1
      obtain ⟨-, -, old⟩ := mem_stalledRows.mp (offers.free t stored leased active)
      exact List.mem_append_right _ (mem_stalledRows.mpr ⟨ht, active, old⟩)

theorem nothing_stalled (quiet : ∀ t ∈ db.tasks.rows, ¬ db.Recounted c cutoff t)
    (same : db.SameProgress mid) (expired : Recovers db (db.expiredRows (c.iso .recover)) mid)
    (stalled : Reroutes mid c (mid.stalledRows (iso cutoff)) db') :
    db'.stalledRows (iso cutoff) = [] := by
  refine List.eq_nil_iff_forall_not_mem.mpr fun u hu => ?_
  obtain ⟨stored, active, old⟩ := mem_stalledRows.mp hu
  have current : (db'.file u.taskId).task = some u := Db.current_of_mem stored
  by_cases visited : ∃ row ∈ mid.stalledRows (iso cutoff), row.taskId = u.taskId
  · obtain ⟨row, hrow, name⟩ := visited
    obtain ⟨between, active', old'⟩ := mem_stalledRows.mp hrow
    obtain ⟨e, does, offered⟩ := stalled.released row hrow
    have found : (mid.file row.taskId).task = some row := Db.current_of_mem between
    obtain ⟨rfl, produced, left, settled⟩ :=
      does.waits_again nofun found (name ▸ current) active
    obtain ⟨w, hw, offers⟩ := offered rfl
    -- the first pass has left the row alone, so it is met in the first state
    have apart : ∀ r ∈ db.expiredRows (c.iso .recover), r.taskId ≠ row.taskId :=
      fun r hr => expired_not_stalled quiet same expired hr hrow
    have before := stored_before expired.others between apart
    refine quiet row before ⟨active', produced, left, ?_, old', .inr ⟨w, ?_, offers.before expired⟩⟩
    · rw [Db.hasUnresolvedEffect_file, ← expired.others row.taskId apart]
      exact settled
    · rw [← expired.beside.workers]
      exact hw
  · have between := stored_before stalled.others stored fun row hrow name =>
      visited ⟨row, hrow, name⟩
    exact visited ⟨u, mem_stalledRows.mpr ⟨between, active, old⟩, rfl⟩

/-- A pass that selects no row changes nothing. -/
theorem recover_idle (none_ : db.expiredRows (c.iso .recover) = []) :
    (recover rt c).Yields db 0 db := by
  have rows : c.rowOrder.arrange (db.expiredRows (c.iso .recover)) = [] := by
    have perm := c.rowOrder.perm (db.expiredRows (c.iso .recover))
    rw [none_] at perm ⊢
    exact perm.eq_nil
  refine bind_yields.mpr ⟨_, db, read_yields.mpr ⟨rfl, rfl⟩, ?_⟩
  simp only [rows]
  exact bind_yields.mpr ⟨(), db, forEach_nil_yields.mpr ⟨rfl, rfl⟩, pure_yields.mpr ⟨rfl, rfl⟩⟩

theorem recoverStalled_idle
    (shifted : (c.clock .stalled).shift? (-c.store.progressStallSeconds) = some cutoff)
    (none_ : db.stalledRows (iso cutoff) = []) :
    (recoverStalled rt c).Yields db ⟨0, 0, 0⟩ db := by
  have rows : c.rowOrder.arrange (db.stalledRows (iso cutoff)) = [] := by
    have perm := c.rowOrder.perm (db.stalledRows (iso cutoff))
    rw [none_] at perm ⊢
    exact perm.eq_nil
  refine bind_yields.mpr ⟨cutoff, db, unwrap_yields.mpr ⟨shifted, rfl⟩, ?_⟩
  refine bind_yields.mpr ⟨_, db, read_yields.mpr ⟨rfl, rfl⟩, ?_⟩
  refine bind_yields.mpr ⟨_, db, read_yields.mpr ⟨rfl, rfl⟩, ?_⟩
  simp only [rows]
  exact forEach_nil_yields.mpr ⟨rfl, rfl⟩

end Cycle

/-! ### Two runs -/

section Twice

open Transition.System (Reachable)

variable {rt : Runtime} {s : Pool} {c : Call} {now : Instant}

/-- Where no task is to be counted again, a second run of `reconcile` at the same instant
changes nothing and counts nothing, and each run counts a task once. -/
theorem reconcile_idempotent (h : (pool rt).Reachable s) (still : ∀ site, c.clock site = now)
    (quiet : ∀ cutoff, now.shift? (-c.store.progressStallSeconds) = some cutoff →
      ∀ t ∈ s.db.tasks.rows, ¬ s.db.Recounted c cutoff t)
    {expired : Nat} {stalled : Stalled} {db' : Db}
    (first : (reconcile rt c).Yields s.db (expired, stalled) db') :
    CountsOnce rt c s.db expired stalled ∧
      ∀ c', c'.store = c.store → (∀ site, c'.clock site = now) →
        (reconcile rt c').Yields db' (0, ⟨0, 0, 0⟩) db' ∧ CountsOnce rt c' db' 0 ⟨0, 0, 0⟩ := by
  simp only [reconcile, atomically_yields, bind_yields, pure_yields] at first
  obtain ⟨n, mid, recovered, result, _, rerouted, ⟨rfl, rfl⟩, rfl⟩ := first
  have owned := reachable_owned h
  have owned' := Db.Move.owned_path (recover_moves .cycle owned recovered) owned
  obtain ⟨count, recovers⟩ := recover_recovers owned recovered
  obtain ⟨cutoff, shifted, total, reroutes⟩ := recoverStalled_reroutes owned' rerouted
  have same := (recover_sameProgress rt c).yields recovered
  have calm := quiet cutoff (still .stalled ▸ shifted)
  refine ⟨⟨mid, cutoff, recovered, shifted, count, total, ?_⟩, fun c' store still' => ?_⟩
  · rw [List.map_append, List.nodup_append]
    refine ⟨s.db.tasks.unique.sublist (List.filter_sublist.map _),
      mid.tasks.unique.sublist (List.filter_sublist.map _), ?_⟩
    intro a ha b hb
    obtain ⟨t, ht, rfl⟩ := List.mem_map.mp ha
    obtain ⟨u, hu, rfl⟩ := List.mem_map.mp hb
    exact expired_not_stalled calm same recovers ht hu
  · have stamp : c'.iso .recover = c.iso .recover := by
      rw [Call.iso, Call.iso, still, still']
    have shifted' : (c'.clock .stalled).shift? (-c'.store.progressStallSeconds) = some cutoff := by
      rw [still', store, ← still .stalled]
      exact shifted
    have idle : db'.expiredRows (c'.iso .recover) = [] := by
      rw [stamp]
      exact nothing_expired recovers reroutes
    have calm' := nothing_stalled calm same recovers reroutes
    refine ⟨?_, db', cutoff, recover_idle idle, shifted', by rw [idle]; rfl, by rw [calm']; rfl, ?_⟩
    · simp only [reconcile, atomically_yields, bind_yields, pure_yields]
      exact ⟨0, db', recover_idle idle, ⟨0, 0, 0⟩, db', recoverStalled_idle shifted' calm', rfl, rfl⟩
    · rw [idle, calm']
      exact List.nodup_nil

namespace Sample

/-- More than three minutes after `start`: the lease of `leased` has ended. -/
def leaseOver : Instant := ⟨start.micros + 200000000, by decide⟩

/-- More than five minutes after `start`: progress made there is too old. -/
def progressOver : Instant := ⟨start.micros + 301000000, by decide⟩

/-- A revision that has waited too long, and a validator that could take it. -/
def waitedTooLong : List (Call × Op) :=
  produced ++ [(.at progressOver, .heartbeatWorker ⟨"v1", "corr", none, none, none⟩)]

end Sample

/-- An expired lease without a revision is counted by the first run alone. -/
theorem leased_reconciled_once :
    let db := (Pool.empty.run .ascii Sample.leased).db
    let run : Body (Nat × Stalled) := reconcile .ascii (.at Sample.leaseOver)
    ∃ db', run.Yields db (1, ⟨0, 0, 0⟩) db' ∧ run.Yields db' (0, ⟨0, 0, 0⟩) db' := by
  intro db run
  have counted : run.test db (fun r _ => decide (r = (1, ⟨0, 0, 0⟩))) = true ∧
      ∀ t ∈ db.tasks.rows, truthy t.producedSha = false := by decide +kernel
  obtain ⟨_, db', first, counts⟩ := test_iff.mp counted.1
  obtain rfl := of_decide_eq_true counts
  refine ⟨db', first, ?_⟩
  have still : ∀ site, (Call.at Sample.leaseOver).clock site = Sample.leaseOver := fun _ => rfl
  have twice := reconcile_idempotent (Pool.reachable_run (by decide)) still ?_ first
  · exact (twice.2 _ rfl still).1
  · intro cutoff _ t ht again
    have produced := again.produced
    rw [counted.2 t ht] at produced
    cases produced

/-- A revision that waits for a validator is rerouted by each run. -/
theorem waiting_rerouted_again :
    let s := Pool.empty.run .ascii Sample.waitedTooLong
    let run : Body (Nat × Stalled) := reconcile .ascii (.at Sample.progressOver)
    (pool .ascii).Reachable s ∧ ∃ db', run.Yields s.db (0, ⟨1, 0, 0⟩) db' ∧
      ¬ run.Yields db' (0, ⟨0, 0, 0⟩) db' := by
  intro s run
  have counted : run.test s.db (fun r db' => decide (r = (0, ⟨1, 0, 0⟩)) &&
      run.test db' fun r' _ => decide (r' = (0, ⟨1, 0, 0⟩))) = true := by decide +kernel
  obtain ⟨_, db', first, both⟩ := test_iff.mp counted
  obtain ⟨counts, again⟩ := Bool.and_eq_true_iff.mp both
  obtain rfl := of_decide_eq_true counts
  refine ⟨Pool.reachable_run (by decide), db', first, fun idle => ?_⟩
  obtain ⟨_, _, second, counts⟩ := test_iff.mp again
  obtain rfl := of_decide_eq_true counts
  cases idle.symm.trans second

end Twice

end WorkerPool
