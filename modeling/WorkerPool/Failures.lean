import WorkerPool.Sweeps

/-!
# How a task fails

A task fails where an attempt ends with the limit reached. The watchdog selects tasks by
their state and their progress and not by their lease, so it may also fail a task whose
revision is waiting for a validator, unless no such task stands still when it looks.
-/

namespace WorkerPool

open PyText Transaction Transaction.Tx
open Transition.System (Reachable)
open Relation (ReflTransGen)

/-- The calls that run the watchdog. -/
def Op.watches : Op → Bool
  | .recoverStalledTasks | .reconcile => true
  | .claimTask a _ _ => a.onlyTaskId.isNone
  | _ => false

/-- The watchdog of the call counts the task as standing still. -/
def Task.StandsStill (t : Task) (c : Call) : Prop :=
  ∃ cutoff, (c.clock .stalled).shift? (-c.store.progressStallSeconds) = some cutoff ∧
    t.lastMaterialProgressAt ≤ Calendar.iso cutoff

/-- No task that waits for a validator with all its attempts made stands still when the
watchdog looks. -/
def SparesFinished (s : Pool) (l : Call × Op) (_ : Pool) : Prop :=
  l.2.watches = true → ∀ t ∈ s.db.tasks.rows, t.state = .validating → t.leasedBy = none →
    t.maxAttempts ≤ t.attemptCount →
    ¬ (t.fencingRequired = true ∧ s.db.hasUnresolvedEffect t.taskId = true) → ¬ t.StandsStill l.1

/-- The task was leased under an attempt that was open and is now ended. -/
def TaskFile.EndsAttempt (f f' : TaskFile) : Prop :=
  ∃ t ∈ f.task, t.Leased ∧ ∃ a ∈ f.attempts, a.endedAt = none ∧ t.attemptId = some a.attemptId ∧
    ∃ a' ∈ f'.attempts, a'.attemptId = a.attemptId ∧ a'.endedAt ≠ none

section Acts

variable {f f' : TaskFile} {act : Act} {t t' : Task}

/-- A task fails by a release alone. -/
theorem Does.failed (h : Does f act f') (cycle : LifeCycle.OfFile f) (ht : t' ∈ f'.task)
    (failed : t'.state = .failed) : t' ∈ f.task ∨ ∃ cause, act = .release cause .failure := by
  cases h with
  | enqueue absent admitted =>
    cases ht
    rw [admitted.state] at failed
    cases failed
  | @grant t g current =>
    cases ht
    cases hr : g.role <;> simp [Grant.row, hr, Role.nextState] at failed
  | @renew t p expires m current active =>
    cases ht
    have state : t.state = .failed := failed
    rw [state] at active
    cases active
  | start => cases ht; cases failed
  | @release t cause e m stamp reason q current active fits ends =>
    cases ht
    cases ends with
    | handoff => cases failed
    | completion => cases failed
    | retry =>
      have waiting := (cycle.2 t current).resumeState_eq
      rcases waiting with ⟨other, -⟩ | ⟨other, -⟩ <;>
        simp [Task.released, Task.marked, Ending.state, other] at failed
    | failure => exact .inr ⟨cause, rfl⟩
    | block => cases failed
  | @checkpoint t p c m current active =>
    cases ht
    have state : t.state = .failed := failed
    rw [state] at active
    cases active
  | reconcile => exact .inl ht
  | @requeue t m current blocked =>
    cases ht
    have waiting := (cycle.2 t current).resumeState_eq
    rcases waiting with ⟨other, -⟩ | ⟨other, -⟩ <;> simp [Task.marked, other] at failed

/-- What sets the release of a task that is not leased off is the watchdog. -/
theorem Cause.Fits.leased {cause : Cause} (fits : cause.Fits t) {attempts : List Attempt}
    (book : Ledger t attempts) (other : cause ≠ .watchdog) : t.leasedBy ≠ none := by
  cases cause with
  | caller p =>
    have worker := fits.worker
    simp [worker]
  | expiry => exact fun free => fits (book.unleased_of_worker free).expires
  | watchdog => exact absurd rfl other

theorem Does.grants {g : Grant} (h : Does f (.grant g) f') :
    ∃ t ∈ f.task, f'.task = some (g.row t) := by
  cases h with
  | grant current => exact ⟨_, current, rfl⟩

/-- What a release has found. -/
theorem Does.released_from {cause : Cause} {e : Ending} (h : Does f (.release cause e) f') :
    ∃ t ∈ f.task, t.state.active = true ∧ cause.Fits t ∧ Ends f t cause e := by
  cases h with
  | release m stamp reason q current active fits ends => exact ⟨_, current, active, fits, ends⟩

/-- A release of a leased task ends its attempt. -/
theorem Does.endsAttempt {cause : Cause} {e : Ending} (h : Does f (.release cause e) f')
    (ledger : Ledger.OfFile f) (leased : cause = .watchdog → ∀ t ∈ f.task, t.leasedBy ≠ none) :
    f.EndsAttempt f' := by
  cases h with
  | @release t _ _ m stamp reason q current active fits ends recorded =>
    have book := ledger.2 t current
    have worker : t.leasedBy ≠ none := by
      by_cases watchdog : cause = .watchdog
      · exact leased watchdog t current
      · exact fits.leased book watchdog
    have held := book.leased_of_worker worker
    obtain ⟨a, only, under⟩ := book.current held
    have still : a ∈ openAttempts f.attempts := only ▸ List.mem_singleton.mpr rfl
    obtain ⟨ha, isOpen⟩ := List.mem_filter.mp still
    refine ⟨t, current, held, a, ha, Option.isNone_iff_eq_none.mp isOpen, under.name, ?_⟩
    refine ⟨a.closedBy t.attemptId stamp reason, List.mem_map_of_mem ha,
      Attempt.closedBy_attemptId _ _ _ a, ?_⟩
    rw [Attempt.closedBy, if_pos under.name.symm]
    simp [Option.isNone_iff_eq_none.mp isOpen]

/-- A task that is active without a lease waits for its validator. -/
theorem Ledger.waits {attempts : List Attempt} (book : Ledger t attempts)
    (active : t.state.active = true) (free : t.leasedBy = none) : t.state = .validating := by
  have idle : ¬ t.Leased := fun l => l.worker free
  cases hs : t.state with
  | validating => rfl
  | leased => exact absurd (book.held (.inl hs)) idle
  | running => exact absurd (book.held (.inr hs)) idle
  | queued | blocked | completed | failed => simp [hs, TaskState.active] at active

/-- A release carried out by a recovery pass leaves the task active only where attempts are
left. -/
theorem Does.resumed {cause : Cause} {e : Ending} (h : Does f (.release cause e) f')
    (other : ∀ p, cause ≠ .caller p) (ht : t' ∈ f'.task) (active : t'.state.active = true) :
    t'.attemptCount < t'.maxAttempts := by
  cases h with
  | @release t _ _ m stamp reason q current _ fits ends =>
    cases ht
    cases ends with
    | @handoff p => exact absurd rfl (other p)
    | @completion p => exact absurd rfl (other p)
    | retry left => exact left
    | failure => cases active
    | block => cases active

end Acts

/-! ### The recovery passes -/

section Passes

variable {rt : Runtime} {s s' : Pool} {c : Call} {db mid db' : Db} {taskId : String} {t' : Task}

/-- Whatever fails in this change of the database is leased before it. -/
def Db.FailsLeased (db db' : Db) : Prop :=
  ∀ taskId, ∀ t' ∈ (db'.file taskId).task, t'.state = .failed →
    t' ∈ (db.file taskId).task ∨ (db.file taskId).EndsAttempt (db'.file taskId)

theorem Db.FailsLeased.of_files (h : ∀ taskId, db'.file taskId = db.file taskId) :
    db.FailsLeased db' := by
  intro taskId t' ht' _
  rw [h] at ht'
  exact .inl ht'

/-- The two passes, one after the other, either of which may have selected nothing. -/
theorem passes_failsLeased {expired stalled : List Task}
    (cycles : ∀ taskId, LifeCycle.OfFile (db.file taskId))
    (ledgers : ∀ taskId, Ledger.OfFile (db.file taskId)) (recovers : Recovers db expired mid)
    (reroutes : Reroutes mid c stalled db')
    (still : ∀ row ∈ stalled, mid.Current row ∧ row.StandsStill c)
    (spared : ∀ t ∈ db.tasks.rows, t.state = .validating → t.leasedBy = none →
      t.maxAttempts ≤ t.attemptCount → ¬ (db.file t.taskId).InDoubt t → ¬ t.StandsStill c) :
    db.FailsLeased db' := by
  intro taskId t' ht' failed
  -- the watchdog's visit of a task, if there is one
  have second : db'.file taskId = mid.file taskId ∨ ∃ row ∈ stalled, row.taskId = taskId ∧ ∃ e,
      Does (mid.file taskId) (.release .watchdog e) (db'.file taskId) := by
    by_cases visited : ∃ row ∈ stalled, row.taskId = taskId
    · obtain ⟨row, hrow, rfl⟩ := visited
      obtain ⟨e, does, -⟩ := reroutes.released row hrow
      exact .inr ⟨row, hrow, rfl, e, does⟩
    · exact .inl (reroutes.others taskId fun row hrow same => visited ⟨row, hrow, same⟩)
  by_cases visited : ∃ row ∈ expired, row.taskId = taskId
  · obtain ⟨row, hrow, rfl⟩ := visited
    obtain ⟨e, first⟩ := recovers.released row hrow
    rcases second with same | ⟨row', -, -, e', does⟩
    · rw [same] at ht' ⊢
      rcases first.failed (cycles _) ht' failed with before | -
      · exact .inl before
      · exact .inr (first.endsAttempt (ledgers _) nofun)
    · -- what the first pass leaves active has attempts left, so the second does not fail it
      obtain ⟨t, ht, active, -, ends⟩ := does.released_from
      have left := first.resumed nofun ht active
      rcases does.failed ((cycles _).does first) ht' failed with between | ⟨cause, hact⟩
      · rw [Option.some.inj (ht.symm.trans between), failed] at active
        cases active
      · cases hact
        cases ends with
        | failure exhausted => omega
  · have same : mid.file taskId = db.file taskId :=
      recovers.others taskId fun row hrow same => visited ⟨row, hrow, same⟩
    rcases second with unmoved | ⟨row, hrow, rfl, e, does⟩
    · rw [unmoved, same] at ht'
      exact .inl ht'
    · rw [same] at does
      rcases does.failed (cycles _) ht' failed with before | ⟨cause, hact⟩
      · exact .inl before
      · cases hact
        refine .inr (does.endsAttempt (ledgers _) fun _ t ht free => ?_)
        obtain ⟨u, hu, active, -, ends⟩ := does.released_from
        obtain rfl := Option.some.inj (ht.symm.trans hu)
        obtain ⟨current, still⟩ := still row hrow
        rw [Db.Current, same] at current
        obtain rfl := Option.some.inj (ht.symm.trans current)
        cases ends with
        | failure exhausted settled =>
          have waits := ((ledgers _).2 t ht).waits active free
          exact spared t (Db.mem_file_task.mp ht).1 waits free exhausted settled still

/-- What the condition spares, in terms of the files. -/
def Db.Spares (db : Db) (c : Call) : Prop :=
  ∀ t ∈ db.tasks.rows, t.state = .validating → t.leasedBy = none → t.maxAttempts ≤ t.attemptCount →
    ¬ (db.file t.taskId).InDoubt t → ¬ t.StandsStill c

variable (reach : (pool rt).Reachable s)

include reach

theorem recover_failsLeased {n : Nat} (h : (recover rt c).Yields s.db n db') :
    s.db.FailsLeased db' := by
  intro taskId t' ht' failed
  obtain ⟨-, recovers⟩ := recover_recovers (reachable_owned reach) h
  by_cases visited : ∃ row ∈ s.db.expiredRows (c.iso .recover), row.taskId = taskId
  · obtain ⟨row, hrow, rfl⟩ := visited
    obtain ⟨e, does⟩ := recovers.released row hrow
    rcases does.failed (file_lifeCycle reach _) ht' failed with before | -
    · exact .inl before
    · exact .inr (does.endsAttempt (file_ledger reach _) nofun)
  · rw [recovers.others taskId fun row hrow same => visited ⟨row, hrow, same⟩] at ht'
    exact .inl ht'

theorem recoverStalled_failsLeased {expired : List Task} {result : Stalled} (spared : s.db.Spares c)
    (owned : mid.Owned) (recovers : Recovers s.db expired mid)
    (h : (recoverStalled rt c).Yields mid result db') : s.db.FailsLeased db' := by
  obtain ⟨cutoff, shifted, -, reroutes⟩ := recoverStalled_reroutes owned h
  refine passes_failsLeased (file_lifeCycle reach) (file_ledger reach) recovers reroutes ?_ spared
  intro row hrow
  obtain ⟨stored, -, late⟩ := mem_stalledRows.mp hrow
  exact ⟨Db.current_of_mem stored, cutoff, shifted, late⟩

theorem cycle_failsLeased {n : Nat} {result : Stalled} (spared : s.db.Spares c)
    (expired : (recover rt c).Yields s.db n mid)
    (stalled : (recoverStalled rt c).Yields mid result db') : s.db.FailsLeased db' := by
  have owned := reachable_owned reach
  have path : ReflTransGen (Db.Move rt .reconcile) s.db mid := recover_moves .cycle owned expired
  exact recoverStalled_failsLeased reach spared (Db.Move.owned_path path owned)
    (recover_recovers owned expired).2 stalled

omit reach in
theorem Recovers.nothing (db : Db) : Recovers db [] db where
  others _ _ := rfl
  beside := Std.Refl.refl db
  released row hrow := by cases hrow

theorem claimTask_failsLeased {a : ClaimTask} {token attemptId : Uuid}
    {r : Option (Task × Lease)} (spared : a.onlyTaskId.isNone = true → s.db.Spares c)
    (h : (claimTask rt c a token attemptId).Yields s.db r db') : s.db.FailsLeased db' := by
  obtain ⟨mid, recovered, outcome⟩ := claimTask_claims.returns h
  have before : s.db.FailsLeased mid := by
    unfold claimRecovery at recovered
    split at recovered
    · rename_i general
      simp only [bind_yields, pure_yields] at recovered
      obtain ⟨_, _, expired, _, _, stalled, -, rfl⟩ := recovered
      exact cycle_failsLeased reach (spared general) expired stalled
    · obtain ⟨-, rfl⟩ := pure_yields.mp recovered
      exact .of_files fun _ => rfl
  rcases outcome with ⟨-, rfl⟩ | ⟨row, g, -, -, granted⟩
  · exact before
  · intro taskId t' ht' failed
    by_cases same : taskId = row.taskId
    · -- a grant fails nothing
      subst same
      obtain ⟨t, -, given⟩ := granted.acts.file.grants
      rw [given] at ht'
      cases ht'
      cases hr : g.role <;> simp [Grant.row, hr, Role.nextState] at failed
    · rw [granted.acts.others taskId same] at ht' ⊢
      exact before taskId t' ht' failed

theorem failTask_failsLeased {p : Credential} {correlationId reason : String} {t : Task}
    (h : (failTask rt c p correlationId reason).Yields s.db t db') : s.db.FailsLeased db' := by
  obtain ⟨⟨act, caller, acts⟩, -⟩ := (failTask_atomic (reachable_owned reach)).returns h
  intro taskId t' ht' failed
  by_cases same : taskId = p.taskId
  · subst same
    have file := acts.file
    rcases caller with rfl | rfl
    · exact .inr (file.endsAttempt (file_ledger reach _) nofun)
    · exact .inr (file.endsAttempt (file_ledger reach _) nofun)
  · rw [acts.others taskId same] at ht'
    exact .inl ht'

/-- A call that neither recovers nor fails a task of its caller. -/
theorem quiet_failsLeased {op : Op} {r : Reply} (h : (op.run rt c).Yields s.db r db')
    (quiet : ∀ taskId act, op.May rt taskId act → ∀ cause, act ≠ .release cause .failure) :
    s.db.FailsLeased db' := by
  intro taskId t' ht' failed
  have path := (Op.run_simulated (reachable_owned reach)).returns h
  have both := path_file (P := fun f => LifeCycle.OfFile f ∧
    ∀ t' ∈ f.task, t'.state = .failed → t' ∈ (s.db.file taskId).task) ?_ path
    ⟨file_lifeCycle reach taskId, fun _ ht _ => ht⟩
  · exact .inl (both.2 t' ht' failed)
  · rintro f act f' may ⟨cycle, before⟩ does
    refine ⟨cycle.does does, fun u hu failed => ?_⟩
    rcases does.failed cycle hu failed with old | ⟨cause, rfl⟩
    · exact before u old failed
    · exact absurd rfl (quiet taskId _ may cause)

theorem call_failsLeased {op : Op} {r : Reply} (spared : op.watches = true → s.db.Spares c)
    (h : (op.run rt c).Yields s.db r db') : s.db.FailsLeased db' := by
  cases op with
  | failTask p correlationId reason =>
    obtain ⟨_, _, returned, ended⟩ := bind_yields.mp h
    obtain ⟨-, rfl⟩ := pure_yields.mp ended
    exact failTask_failsLeased reach returned
  | claimTask a token attemptId =>
    obtain ⟨_, _, returned, ended⟩ := bind_yields.mp h
    obtain ⟨-, rfl⟩ := pure_yields.mp ended
    exact claimTask_failsLeased reach spared returned
  | recoverExpiredLeases =>
    obtain ⟨_, _, returned, ended⟩ := bind_yields.mp h
    obtain ⟨-, rfl⟩ := pure_yields.mp ended
    exact recover_failsLeased reach (atomically_yields.mp returned)
  | recoverStalledTasks =>
    obtain ⟨_, _, returned, ended⟩ := bind_yields.mp h
    obtain ⟨-, rfl⟩ := pure_yields.mp ended
    exact recoverStalled_failsLeased reach (spared rfl) (reachable_owned reach) (.nothing s.db)
      (atomically_yields.mp returned)
  | reconcile =>
    obtain ⟨_, _, returned, ended⟩ := bind_yields.mp h
    obtain ⟨-, rfl⟩ := pure_yields.mp ended
    simp only [reconcile, atomically_yields, bind_yields, pure_yields] at returned
    obtain ⟨_, _, expired, _, _, stalled, -, rfl⟩ := returned
    exact cycle_failsLeased reach (spared rfl) expired stalled
  | _ =>
    refine quiet_failsLeased reach h fun taskId act may cause hact => ?_
    subst hact
    cases may with
    | expiry recovers => cases recovers
    | watchdog recovers => cases recovers

end Passes

/-! ### Runs -/

section Runs

variable {rt : Runtime} {s s' : Pool} {l : Call × Op}

/-- In every run in which the watchdog never meets finished work that waits for its validator
with all its attempts made, a task that fails was leased, and its open attempt has ended. -/
theorem failures_end_attempts (h : ((pool rt).restrict SparesFinished).Reachable s)
    (st : ((pool rt).restrict SparesFinished).step s l s') :
    (∀ t' ∈ s'.db.tasks.rows, t'.state = .failed → t' ∈ s.db.tasks.rows ∨
      ∃ t ∈ s.db.tasks.rows, t.taskId = t'.taskId ∧ t.Leased ∧
        ∃ a ∈ s.db.attempts.rows, a.taskId = t.taskId ∧ t.attemptId = some a.attemptId ∧
          a.endedAt = none ∧
          ∃ a' ∈ s'.db.attempts.rows, a'.attemptId = a.attemptId ∧ a'.endedAt ≠ none) ∧
    ∀ t ∈ s.db.tasks.rows, t.state = .validating → t.leasedBy = none →
      ∀ t' ∈ s'.db.tasks.rows, t'.taskId = t.taskId → t'.state ≠ .failed := by
  have reach := h.of_restrict
  have fails : s.db.FailsLeased s'.db := by
    obtain ⟨⟨-, rfl⟩, spares⟩ := st
    have spared : l.2.watches = true → s.db.Spares l.1 := by
      intro watches t ht waits free exhausted settled
      refine spares watches t ht waits free exhausted ?_
      rwa [Db.hasUnresolvedEffect_file]
    rcases yields_or_fails (l.2.run rt l.1) s.db with ⟨r, db', returned⟩ | ⟨e, db', raised⟩
    · have stop : (s.after rt l.1 l.2).db = db' := congrArg Prod.snd returned
      rw [stop]
      exact call_failsLeased reach spared returned
    · have stop : (s.after rt l.1 l.2).db = db' := congrArg Prod.snd raised
      rw [stop]
      exact .of_files ((Op.run_simulated (reachable_owned reach)).raises raised).files
  have ended : ∀ t' ∈ s'.db.tasks.rows, t'.state = .failed → t' ∈ s.db.tasks.rows ∨
      (s.db.file t'.taskId).EndsAttempt (s'.db.file t'.taskId) := by
    intro t' ht' failed
    exact (fails t'.taskId t' (Db.current_of_mem ht') failed).imp_left fun old =>
      (Db.mem_file_task.mp old).1
  refine ⟨fun t' ht' failed => (ended t' ht' failed).imp_right ?_, ?_⟩
  · rintro ⟨t, ht, leased, a, ha, isOpen, named, a', ha', same, closed⟩
    obtain ⟨stored, task⟩ := Db.mem_file_task.mp ht
    obtain ⟨mem, owner⟩ := List.mem_filter.mp ha
    exact ⟨t, stored, task, leased, a, mem, (of_decide_eq_true owner).trans task.symm, named, isOpen,
      a', (List.mem_filter.mp ha').1, same, closed⟩
  · intro t ht waits free t' ht' same failed
    have current : (s.db.file t'.taskId).task = some t := same ▸ Db.current_of_mem ht
    rcases ended t' ht' failed with old | ⟨u, hu, leased, -⟩
    · have kept : (s.db.file t'.taskId).task = some t' := Db.current_of_mem old
      rw [Option.some.inj (kept.symm.trans current), waits] at failed
      cases failed
    · rw [Option.some.inj (hu.symm.trans current)] at leased
      exact leased.worker free

end Runs

/-! ### A task of one attempt -/

namespace Sample

/-- A task of one attempt under the lease of its builder. -/
def onlyAttempt : List (Call × Op) :=
  [register "b1" "builder", register "v1" "validator", cutover,
    (.at start, .enqueueTask ⟨"o/r", 1, "r1", "corr", 100, none, some 1, none, true⟩),
    (.at start, .claimTask ⟨"b1", "builder", "corr", none, some taskId, true⟩ (uuid 'a') (uuid 'b'))]

def giveUp : Call × Op :=
  (.at start, .failTask (credential "b1" (uuid 'a') (uuid 'b') 1) "corr" "no luck")

/-- Its builder hands the revision over. -/
def onlyProduced : List (Call × Op) :=
  onlyAttempt ++ [startTask (credential "b1" (uuid 'a') (uuid 'b') 1),
    submit (credential "b1" (uuid 'a') (uuid 'b') 1)]

theorem later_inCalendar :
    start.micros + 301000000 < Calendar.calendarDays * Calendar.secondsPerDay * Calendar.microsPerSecond := by decide

/-- A reconciliation 301 seconds later. -/
def reconcileLater : Call × Op := (.at ⟨start.micros + 301000000, later_inCalendar⟩, .reconcile)

end Sample

theorem failed_attempt_ended :
    ∃ t ∈ (Pool.empty.run .ascii Sample.onlyAttempt).db.tasks.rows, t.Leased ∧
      ∃ a ∈ (Pool.empty.run .ascii Sample.onlyAttempt).db.attempts.rows, a.taskId = t.taskId ∧
        a.endedAt = none ∧ ∃ a' ∈ ((Pool.empty.run .ascii Sample.onlyAttempt).after .ascii
          Sample.giveUp.1 Sample.giveUp.2).db.attempts.rows,
            a'.attemptId = a.attemptId ∧ a'.endedAt ≠ none := by
  have reach : ((pool .ascii).restrict SparesFinished).Reachable
      (Pool.empty.run .ascii Sample.onlyAttempt) := by
    refine Pool.reachable_restrict_run (by decide) fun l hl s s' _ _ watches => ?_
    have blind : ∀ l ∈ Sample.onlyAttempt, l.2.watches = false := by decide
    rw [blind l hl] at watches
    cases watches
  have st : ((pool .ascii).restrict SparesFinished).step (Pool.empty.run .ascii Sample.onlyAttempt)
      Sample.giveUp ((Pool.empty.run .ascii Sample.onlyAttempt).after .ascii Sample.giveUp.1
        Sample.giveUp.2) := by
    refine ⟨⟨by decide, rfl⟩, fun watches => ?_⟩
    cases watches
  have failed : ∃ t' ∈ ((Pool.empty.run .ascii Sample.onlyAttempt).after .ascii Sample.giveUp.1
      Sample.giveUp.2).db.tasks.rows, t'.state = .failed ∧
        ∀ t ∈ (Pool.empty.run .ascii Sample.onlyAttempt).db.tasks.rows, t.state ≠ .failed := by
    decide +kernel
  obtain ⟨t', ht', failed, before⟩ := failed
  rcases (failures_end_attempts reach st).1 t' ht' failed with old | ⟨t, ht, -, leased, a, ha, ended⟩
  · exact absurd failed (before t' old)
  · obtain ⟨task, -, isOpen, a', ha', same, closed⟩ := ended
    exact ⟨t, ht, leased, a, ha, task, isOpen, a', ha', same, closed⟩

/-- The watchdog fails the task while its revision waits for a validator. -/
theorem finished_work_failed :
    ∃ s s' t t', (pool .ascii).Reachable s ∧ (pool .ascii).step s Sample.reconcileLater s' ∧
      t ∈ s.db.tasks.rows ∧ t.state = .validating ∧ t.leasedBy = none ∧ t.producedSha ≠ none ∧
      t' ∈ s'.db.tasks.rows ∧ t'.taskId = t.taskId ∧ t'.state = .failed := by
  let s := Pool.empty.run .ascii Sample.onlyProduced
  let s' := s.after .ascii Sample.reconcileLater.1 Sample.reconcileLater.2
  have waits : ∃ t ∈ s.db.tasks.rows, t.state = .validating ∧ t.leasedBy = none ∧
      t.producedSha ≠ none ∧ ∃ t' ∈ s'.db.tasks.rows, t'.taskId = t.taskId ∧ t'.state = .failed := by
    decide +kernel
  obtain ⟨t, ht, state, free, produced, t', ht', same, failed⟩ := waits
  exact ⟨s, s', t, t', Pool.reachable_run (by decide), ⟨⟨by decide, nofun⟩, rfl⟩, ht, state, free,
    produced, ht', same, failed⟩

end WorkerPool
