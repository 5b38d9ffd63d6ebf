import WorkerPool.Passes

/-!
# The life cycle of a task

Which states go with a produced revision, who built and who validated it, and that a
completed or failed task is never touched again. The roles in the table of workers may
change at any time: nothing here depends on them.
-/

namespace WorkerPool

open PyText Transaction Transaction.Tx
open Transition.System (Reachable)
open Relation (ReflTransGen)

/-- The columns of a task and the number of its quarantine records, in each state. The
validator of a leased validation is its leaseholder. -/
structure LifeCycle (t : Task) (records : Nat) : Prop where
  working : t.state = .queued ∨ t.state = .leased ∨ t.state = .running → t.producedSha = none
  produced : t.state = .validating ∨ t.state = .completed → t.producedSha ≠ none
  shape : ∀ sha ∈ t.producedSha, isSha40 sha = true
  built : t.producedSha ≠ none → t.builderWorkerId ≠ none
  validating : t.state = .validating → ∀ w ∈ t.leasedBy, t.validatorWorkerId = some w
  independent : t.state = .completed →
    t.validatorWorkerId ≠ none ∧ t.builderWorkerId ≠ t.validatorWorkerId
  quarantined : records = if t.state = .failed then 1 else 0
  idle : t.state.active = false → t.leasedBy = none

namespace LifeCycle

variable {t t' : Task} {records : Nat}

theorem sha_ne_empty {sha : String} (h : isSha40 sha = true) : sha ≠ "" := by
  rintro rfl
  revert h
  decide

/-- A stored revision is never the empty text, so Python's truth of it is its presence. -/
theorem truthy_iff (h : LifeCycle t records) : truthy t.producedSha = true ↔ t.producedSha ≠ none := by
  cases hs : t.producedSha with
  | none => simp
  | some sha => simpa [truthy] using sha_ne_empty (h.shape sha hs)

theorem resumeState_eq (h : LifeCycle t records) :
    (t.resumeState = .validating ∧ t.producedSha ≠ none) ∨
      (t.resumeState = .queued ∧ t.producedSha = none) := by
  unfold Task.resumeState
  by_cases given : truthy t.producedSha = true
  · exact .inl ⟨if_pos given, h.truthy_iff.mp given⟩
  · refine .inr ⟨if_neg given, ?_⟩
    by_contra some_sha
    exact given (h.truthy_iff.mpr some_sha)

theorem active_records (h : LifeCycle t records) (active : t.state.active = true) :
    records = 0 := by
  refine h.quarantined.trans (if_neg fun failed => ?_)
  rw [failed] at active
  cases active

/-- Rewriting columns that the life cycle does not speak of. -/
theorem keep (h : LifeCycle t records) (state : t'.state = t.state)
    (produced : t'.producedSha = t.producedSha) (builder : t'.builderWorkerId = t.builderWorkerId)
    (validator : t'.validatorWorkerId = t.validatorWorkerId) (worker : t'.leasedBy = t.leasedBy) :
    LifeCycle t' records where
  working s := produced.trans (h.working (state ▸ s))
  produced s := produced ▸ h.produced (state ▸ s)
  shape sha hs := h.shape sha (produced ▸ hs)
  built s := builder ▸ h.built (produced ▸ s)
  validating s w hw := validator.trans (h.validating (state ▸ s) w (worker ▸ hw))
  independent s := by
    rw [builder, validator]
    exact h.independent (state ▸ s)
  quarantined := by rw [state, h.quarantined]
  idle s := worker.trans (h.idle (state ▸ s))

theorem enqueued (admitted : t.Admitted) : LifeCycle t 0 where
  working _ := admitted.produced
  produced s := by simp [admitted.state] at s
  shape sha hs := by simp [admitted.produced] at hs
  built s := absurd admitted.produced s
  validating s := by simp [admitted.state] at s
  independent s := by simp [admitted.state] at s
  quarantined := by simp [admitted.state]
  idle _ := admitted.worker

theorem granted (h : LifeCycle t records) {g : Grant} (wanted : t.state = g.role.wanted) :
    LifeCycle (g.row t) records := by
  cases hr : g.role with
  | builder =>
    rw [hr] at wanted
    have none_yet : t.producedSha = none := h.working (.inl wanted)
    have state : (g.row t).state = .leased := by simp [Grant.row, hr, Role.nextState]
    refine ⟨fun _ => none_yet, ?_, h.shape, h.built, ?_, ?_, ?_, ?_⟩
    · simp [state]
    · simp [state]
    · simp [state]
    · rw [state, h.quarantined, wanted]
      rfl
    · simp [state, TaskState.active]
  | validator =>
    rw [hr] at wanted
    have given : t.producedSha ≠ none := h.produced (.inl wanted)
    have state : (g.row t).state = .validating := by simp [Grant.row, hr, Role.nextState]
    refine ⟨?_, fun _ => given, h.shape, h.built, ?_, ?_, ?_, ?_⟩
    · simp [state]
    · rintro - w ⟨⟩
      simp [Grant.row, hr]
    · simp [state]
    · rw [state, h.quarantined, wanted]
      rfl
    · simp [state, TaskState.active]

theorem started (h : LifeCycle t records) (leased : t.state = .leased) (worker : String) (m : Trail) :
    LifeCycle (({ t with state := .running, builderWorkerId := some worker } : Task).marked m)
      records where
  working _ := h.working (.inr (.inl leased))
  produced s := by simp [Task.marked] at s
  shape := h.shape
  built _ := nofun
  validating s := by simp [Task.marked] at s
  independent s := by simp [Task.marked] at s
  quarantined := by
    rw [h.quarantined, leased]
    rfl
  idle s := by simp [Task.marked, TaskState.active] at s

/-- A task sent back to wait goes where its revision says. -/
theorem resumed (h : LifeCycle t records) (state : t'.state = t.resumeState)
    (produced : t'.producedSha = t.producedSha) (builder : t'.builderWorkerId = t.builderWorkerId)
    (free : t'.leasedBy = none) : LifeCycle t' 0 := by
  have waiting := h.resumeState_eq
  rw [← state, ← produced] at waiting
  refine ⟨?_, ?_, fun sha hs => h.shape sha (produced ▸ hs), ?_, ?_, ?_, ?_, fun _ => free⟩
  · intro s
    rcases waiting with ⟨validating, -⟩ | ⟨-, absent⟩
    · simp [validating] at s
    · exact absent
  · intro s
    rcases waiting with ⟨-, given⟩ | ⟨queued, -⟩
    · exact given
    · simp [queued] at s
  · exact fun s => builder ▸ h.built (produced ▸ s)
  · intro _ w hw
    rw [free] at hw
    cases hw
  · intro s
    rcases waiting with ⟨other, -⟩ | ⟨other, -⟩ <;> simp [other] at s
  · rcases waiting with ⟨other, -⟩ | ⟨other, -⟩ <;> simp [other]

theorem released {f : TaskFile} {cause : Cause} {e : Ending} (h : LifeCycle t records)
    (active : t.state.active = true) (fits : cause.Fits t) (ends : Ends f t cause e) (m : Trail) :
    LifeCycle (t.released cause e m) (records + e.records) := by
  have none_yet := h.active_records active
  cases ends with
  | @handoff p sha running builder shape settled =>
    refine ⟨?_, fun _ => nofun, ?_, fun _ => ?_, ?_, ?_, ?_, fun _ => rfl⟩
    · simp [Task.released, Task.marked, Ending.state]
    · rintro _ ⟨⟩
      exact shape
    · simp [Task.released, Task.marked, builder]
    · rintro - w ⟨⟩
    · simp [Task.released, Task.marked, Ending.state]
    · simp [Task.released, Task.marked, Ending.state, Ending.records, none_yet]
  | completion validating independent produced settled =>
    have given := h.truthy_iff.mp produced
    have validator := h.validating validating _ fits.worker
    refine ⟨?_, fun _ => given, h.shape, h.built, ?_, fun _ => ⟨?_, ?_⟩, ?_, fun _ => rfl⟩
    · simp [Task.released, Task.marked, Ending.state]
    · simp [Task.released, Task.marked, Ending.state]
    · simp [Task.released, Task.marked, validator]
    · simpa [Task.released, Task.marked, validator] using independent
    · simp [Task.released, Task.marked, Ending.state, Ending.records, none_yet]
  | retry left settled =>
    have waiting : LifeCycle (t.released cause .retry m) 0 := h.resumed rfl rfl rfl rfl
    rw [none_yet]
    exact waiting
  | failure exhausted settled =>
    refine ⟨?_, ?_, h.shape, h.built, ?_, ?_, ?_, fun _ => rfl⟩
    all_goals simp [Task.released, Task.marked, Ending.state, Ending.records, none_yet]
  | block named =>
    refine ⟨?_, ?_, h.shape, h.built, ?_, ?_, ?_, fun _ => rfl⟩
    all_goals simp [Task.released, Task.marked, Ending.state, Ending.records, none_yet]

/-- The life cycle of a file: before the task is admitted there are no records. -/
def OfFile (f : TaskFile) : Prop :=
  (f.task = none → f.quarantine = []) ∧ ∀ t ∈ f.task, LifeCycle t f.quarantine.length

theorem OfFile.empty : OfFile .empty := by
  refine ⟨fun _ => rfl, fun t ht => ?_⟩
  cases ht

/-- Each act keeps the life cycle of the file. -/
theorem OfFile.does {f f' : TaskFile} {act : Act} (h : OfFile f) (does : Does f act f') :
    OfFile f' := by
  cases does with
  | enqueue absent admitted =>
    refine ⟨nofun, ?_⟩
    rintro _ ⟨⟩
    rw [h.1 absent]
    exact enqueued admitted
  | grant current wanted free named validates =>
    refine ⟨nofun, ?_⟩
    rintro _ ⟨⟩
    exact (h.2 _ current).granted wanted
  | renew expires m current active presented =>
    refine ⟨nofun, ?_⟩
    rintro _ ⟨⟩
    exact (h.2 _ current).keep rfl rfl rfl rfl rfl
  | start m current leased presented =>
    refine ⟨nofun, ?_⟩
    rintro _ ⟨⟩
    exact (h.2 _ current).started leased _ m
  | release m stamp reason q current active fits ends recorded =>
    refine ⟨nofun, ?_⟩
    rintro _ ⟨⟩
    rw [List.length_append, recorded]
    exact (h.2 _ current).released active fits ends m
  | checkpoint c m current =>
    refine ⟨nofun, ?_⟩
    rintro _ ⟨⟩
    exact (h.2 _ current).keep rfl rfl rfl rfl rfl
  | reconcile r current => exact h
  | requeue m current blocked settled =>
    refine ⟨nofun, ?_⟩
    rintro _ ⟨⟩
    have before := h.2 _ current
    have none_yet : f.quarantine.length = 0 := by
      refine before.quarantined.trans (if_neg fun failed => ?_)
      rw [blocked] at failed
      cases failed
    rw [none_yet]
    exact before.resumed rfl rfl rfl (before.idle (by rw [blocked]; rfl))

end LifeCycle

/-! ### What an act can change -/

section Acts

variable {f f' : TaskFile} {act : Act} {t t' : Task}

/-- A revision appears by a handoff alone. -/
theorem Does.produced {sha : String} (h : Does f act f') (ht : t' ∈ f'.task)
    (hs : t'.producedSha = some sha) :
    (∃ t ∈ f.task, t.producedSha = some sha) ∨ ∃ p, act = .release (.caller p) (.handoff sha) := by
  cases h with
  | enqueue absent admitted =>
    cases ht
    rw [admitted.produced] at hs
    cases hs
  | grant current =>
    cases ht
    exact .inl ⟨_, current, hs⟩
  | renew expires m current =>
    cases ht
    exact .inl ⟨_, current, hs⟩
  | start m current =>
    cases ht
    exact .inl ⟨_, current, hs⟩
  | @release t cause e m stamp reason q current active fits ends recorded =>
    cases ht
    cases ends with
    | @handoff p sha' =>
      cases hs
      exact .inr ⟨p, rfl⟩
    | completion => exact .inl ⟨_, current, hs⟩
    | retry => exact .inl ⟨_, current, hs⟩
    | failure => exact .inl ⟨_, current, hs⟩
    | block => exact .inl ⟨_, current, hs⟩
  | checkpoint c m current =>
    cases ht
    exact .inl ⟨_, current, hs⟩
  | reconcile r current => exact .inl ⟨t', ht, hs⟩
  | requeue m current =>
    cases ht
    exact .inl ⟨_, current, hs⟩

/-- A revision, once there, stays as it is. -/
theorem Does.produced_kept {sha : String} (h : Does f act f') (cycle : LifeCycle.OfFile f)
    (ht : ∃ t ∈ f.task, t.producedSha = some sha) : ∃ t ∈ f'.task, t.producedSha = some sha := by
  obtain ⟨t, ht, hs⟩ := ht
  cases h with
  | enqueue absent => cases absent.symm.trans ht
  | grant current =>
    cases Option.some.inj (current.symm.trans ht)
    exact ⟨_, rfl, hs⟩
  | renew expires m current =>
    cases Option.some.inj (current.symm.trans ht)
    exact ⟨_, rfl, hs⟩
  | start m current =>
    cases Option.some.inj (current.symm.trans ht)
    exact ⟨_, rfl, hs⟩
  | release m stamp reason q current active fits ends recorded =>
    cases Option.some.inj (current.symm.trans ht)
    refine ⟨_, rfl, ?_⟩
    cases ends with
    | handoff running =>
      rw [(cycle.2 t ht).working (.inr (.inr running))] at hs
      cases hs
    | completion => exact hs
    | retry => exact hs
    | failure => exact hs
    | block => exact hs
  | checkpoint c m current =>
    cases Option.some.inj (current.symm.trans ht)
    exact ⟨_, rfl, hs⟩
  | reconcile r current => exact ⟨t, ht, hs⟩
  | requeue m current =>
    cases Option.some.inj (current.symm.trans ht)
    exact ⟨_, rfl, hs⟩

/-- The last states. -/
def TaskState.final : TaskState → Bool
  | .completed | .failed => true
  | _ => false

theorem TaskState.final_not_active {s : TaskState} (h : s.final = true) : s.active = false := by
  cases s <;> first | rfl | cases h

/-- No act applies to the row of a completed or failed task. -/
theorem Does.final (h : Does f act f') (ht : t ∈ f.task) (last : t.state.final = true) :
    t ∈ f'.task := by
  have idle := TaskState.final_not_active last
  cases h with
  | enqueue absent => cases absent.symm.trans ht
  | @grant u g current wanted =>
    cases Option.some.inj (current.symm.trans ht)
    rw [wanted] at last
    cases hr : g.role <;> rw [hr] at last <;> cases last
  | renew expires m current active =>
    cases Option.some.inj (current.symm.trans ht)
    cases active.symm.trans idle
  | start m current leased =>
    cases Option.some.inj (current.symm.trans ht)
    rw [leased] at last
    cases last
  | release m stamp reason q current active =>
    cases Option.some.inj (current.symm.trans ht)
    cases active.symm.trans idle
  | checkpoint c m current active =>
    cases Option.some.inj (current.symm.trans ht)
    cases active.symm.trans idle
  | reconcile => exact ht
  | requeue m current blocked =>
    cases Option.some.inj (current.symm.trans ht)
    rw [blocked] at last
    cases last

/-- A task is completed by its leaseholder, who is then its validator. -/
theorem Does.completed (h : Does f act f') (cycle : LifeCycle.OfFile f) (ht : t' ∈ f'.task)
    (done : t'.state = .completed) :
    t' ∈ f.task ∨ ∃ p, act = .release (.caller p) .completion ∧
      t'.validatorWorkerId = some p.workerId := by
  cases h with
  | enqueue absent admitted =>
    cases ht
    rw [admitted.state] at done
    cases done
  | @grant u g current wanted =>
    cases ht
    cases hr : g.role <;> simp [Grant.row, hr, Role.nextState] at done
  | @renew u p expires m current active =>
    cases ht
    have state : u.state = .completed := done
    rw [state] at active
    cases active
  | start => cases ht; cases done
  | release m stamp reason q current active fits ends recorded =>
    cases ht
    cases ends with
    | handoff => cases done
    | completion validating =>
      exact .inr ⟨_, rfl, (cycle.2 _ current).validating validating _ fits.worker⟩
    | retry =>
      have waiting := (cycle.2 _ current).resumeState_eq
      rcases waiting with ⟨other, -⟩ | ⟨other, -⟩ <;>
        simp [Task.released, Task.marked, Ending.state, other] at done
    | failure => cases done
    | block => cases done
  | @checkpoint u p c m current active =>
    cases ht
    have state : u.state = .completed := done
    rw [state] at active
    cases active
  | reconcile => exact .inl ht
  | requeue m current blocked =>
    cases ht
    have waiting := (cycle.2 _ current).resumeState_eq
    rcases waiting with ⟨other, -⟩ | ⟨other, -⟩ <;> simp [Task.marked, other] at done

end Acts

/-! ### Runs -/

section Runs

variable {rt : Runtime} {s s' : Pool} {c : Call} {op : Op}

theorem file_lifeCycle (h : (pool rt).Reachable s) (taskId : String) :
    LifeCycle.OfFile (s.db.file taskId) :=
  reachable_file LifeCycle.OfFile.empty (fun _ _ _ => LifeCycle.OfFile.does) h taskId

/-- What holds of a file together with its life cycle is carried through a whole call. -/
theorem step_lifeCycle {P : TaskFile → Prop} (h : (pool rt).Reachable s)
    (st : (pool rt).step s (c, op) s') (taskId : String)
    (step : ∀ f act f', op.May rt taskId act → LifeCycle.OfFile f → P f → Does f act f' → P f')
    (start : P (s.db.file taskId)) : P (s'.db.file taskId) := by
  have both := path_file (P := fun f => LifeCycle.OfFile f ∧ P f) ?_
    (step_moves (reachable_owned h) st) ⟨file_lifeCycle h taskId, start⟩
  · exact both.2
  · rintro f act f' may ⟨cycle, holds⟩ does
    exact ⟨cycle.does does, step f act f' may cycle holds does⟩

/-- A call that changes a file has returned. -/
theorem step_returned (h : (pool rt).Reachable s) (st : (pool rt).step s (c, op) s')
    {taskId : String} (changed : s'.db.file taskId ≠ s.db.file taskId) :
    ∃ r, (op.run rt c).Yields s.db r s'.db := by
  obtain ⟨-, rfl⟩ := st
  rcases yields_or_fails (op.run rt c) s.db with ⟨r, db', returned⟩ | ⟨e, db', raised⟩
  · have stop : (s.after rt c op).db = db' := congrArg Prod.snd returned
    exact ⟨r, stop ▸ returned⟩
  · have stop : (s.after rt c op).db = db' := congrArg Prod.snd raised
    have still := (Op.run_simulated (reachable_owned h)).raises raised
    exact absurd (stop ▸ still.files taskId) changed

/-- The revision of a task was handed over by an accepted `submit_for_validation`. -/
def Submitted (rt : Runtime) (s : Pool) (c : Call) (op : Op) (taskId sha : String) : Prop :=
  ∃ p producedSha correlationId, op = .submitForValidation p producedSha correlationId ∧
    p.taskId = taskId ∧ sha = rt.lower producedSha ∧ ∃ r db', (op.run rt c).Yields s.db r db'

/-- The task was completed by an accepted `complete_task` of this worker. -/
def CompletedBy (rt : Runtime) (s : Pool) (c : Call) (op : Op) (taskId workerId : String) : Prop :=
  ∃ p correlationId, op = .completeTask p correlationId ∧ p.taskId = taskId ∧
    p.workerId = workerId ∧ ∃ r db', (op.run rt c).Yields s.db r db'

theorem step_produced (h : (pool rt).Reachable s) (st : (pool rt).step s (c, op) s')
    {taskId sha : String} (ht : ∃ t ∈ (s'.db.file taskId).task, t.producedSha = some sha) :
    (∃ t ∈ (s.db.file taskId).task, t.producedSha = some sha) ∨
      Submitted rt s c op taskId sha := by
  by_cases before : ∃ t ∈ (s.db.file taskId).task, t.producedSha = some sha
  · exact .inl before
  · have changed : s'.db.file taskId ≠ s.db.file taskId := by
      intro same
      exact before (same ▸ ht)
    have call := step_lifeCycle (P := fun f => (∃ t ∈ f.task, t.producedSha = some sha) →
      ∃ p producedSha correlationId, op = .submitForValidation p producedSha correlationId ∧
        p.taskId = taskId ∧ sha = rt.lower producedSha) h st taskId ?_
      (fun found => absurd found before) ht
    · obtain ⟨p, producedSha, correlationId, hop, task, lower⟩ := call
      obtain ⟨r, returned⟩ := step_returned h st changed
      exact .inr ⟨p, producedSha, correlationId, hop, task, lower, r, _, returned⟩
    · rintro f act f' may - holds does ⟨t', ht', hs⟩
      rcases does.produced ht' hs with old | ⟨p, rfl⟩
      · exact holds old
      · cases may with
        | handoff => exact ⟨p, _, _, rfl, rfl, rfl⟩

theorem step_completed (h : (pool rt).Reachable s) (st : (pool rt).step s (c, op) s')
    {taskId : String} {t : Task} (ht : t ∈ (s'.db.file taskId).task)
    (done : t.state = .completed) :
    t ∈ (s.db.file taskId).task ∨
      ∃ w, t.validatorWorkerId = some w ∧ CompletedBy rt s c op taskId w := by
  by_cases before : t ∈ (s.db.file taskId).task
  · exact .inl before
  · have changed : s'.db.file taskId ≠ s.db.file taskId := by
      intro same
      exact before (same ▸ ht)
    have call := step_lifeCycle (P := fun f => t ∈ f.task →
      ∃ p correlationId, op = .completeTask p correlationId ∧ p.taskId = taskId ∧
        t.validatorWorkerId = some p.workerId) h st taskId ?_ (fun found => absurd found before) ht
    · obtain ⟨p, correlationId, hop, task, validator⟩ := call
      obtain ⟨r, returned⟩ := step_returned h st changed
      exact .inr ⟨p.workerId, validator, p, correlationId, hop, task, rfl, r, _, returned⟩
    · rintro f act f' may cycle holds does ht'
      rcases does.completed cycle ht' done with old | ⟨p, rfl, validator⟩
      · exact holds old
      · cases may with
        | completion => exact ⟨p, _, rfl, rfl, validator⟩

/-- The life cycle of every task in every reachable state, and what one more call of
the pool can do to it. -/
theorem task_lifeCycle (h : (pool rt).Reachable s) :
    (∀ t ∈ s.db.tasks.rows,
      (t.state = .queued ∨ t.state = .leased ∨ t.state = .running → t.producedSha = none) ∧
      (t.state = .validating ∨ t.state = .completed → t.producedSha ≠ none) ∧
      (t.state = .completed → t.builderWorkerId ≠ none ∧ t.validatorWorkerId ≠ none ∧
        t.builderWorkerId ≠ t.validatorWorkerId) ∧
      (s.db.quarantine.filter fun q => q.taskId = t.taskId).length =
        if t.state = .failed then 1 else 0) ∧
    ∀ {c : Call} {op : Op} {s' : Pool}, (pool rt).step s (c, op) s' →
      (∀ t ∈ s.db.tasks.rows, ∀ sha ∈ t.producedSha,
        ∃ t' ∈ s'.db.tasks.rows, t'.taskId = t.taskId ∧ t'.producedSha = some sha) ∧
      (∀ t' ∈ s'.db.tasks.rows, ∀ sha ∈ t'.producedSha,
        (∃ t ∈ s.db.tasks.rows, t.taskId = t'.taskId ∧ t.producedSha = some sha) ∨
          Submitted rt s c op t'.taskId sha) ∧
      (∀ t' ∈ s'.db.tasks.rows, t'.state = .completed → t' ∈ s.db.tasks.rows ∨
        ∃ w, t'.validatorWorkerId = some w ∧ CompletedBy rt s c op t'.taskId w) ∧
      ∀ t ∈ s.db.tasks.rows, t.state = .completed ∨ t.state = .failed → t ∈ s'.db.tasks.rows := by
  refine ⟨fun t ht => ?_, fun {c op s'} st => ⟨?_, ?_, ?_, ?_⟩⟩
  · have cycle := (file_lifeCycle h t.taskId).2 t (Db.current_of_mem ht)
    refine ⟨cycle.working, cycle.produced, fun done => ?_, cycle.quarantined⟩
    exact ⟨cycle.built (cycle.produced (.inr done)), cycle.independent done⟩
  · intro t ht sha hs
    obtain ⟨t', ht', kept⟩ := step_lifeCycle (P := fun f => ∃ t ∈ f.task, t.producedSha = some sha)
      h st t.taskId (fun f act f' _ cycle holds does => does.produced_kept cycle holds)
      ⟨t, Db.current_of_mem ht, hs⟩
    obtain ⟨mem, same⟩ := Db.mem_file_task.mp ht'
    exact ⟨t', mem, same, kept⟩
  · intro t' ht' sha hs
    rcases step_produced h st ⟨t', Db.current_of_mem ht', hs⟩ with ⟨t, ht, same⟩ | submitted
    · obtain ⟨mem, task⟩ := Db.mem_file_task.mp ht
      exact .inl ⟨t, mem, task, same⟩
    · exact .inr submitted
  · intro t' ht' done
    rcases step_completed h st (Db.current_of_mem ht') done with ht | by_
    · exact .inl (Db.mem_file_task.mp ht).1
    · exact .inr by_
  · intro t ht last
    have final : t.state.final = true := by rcases last with last | last <;> rw [last] <;> rfl
    have kept := step_lifeCycle (P := fun f => t ∈ f.task) h st t.taskId
      (fun f act f' _ _ holds does => does.final holds final) (Db.current_of_mem ht)
    exact (Db.mem_file_task.mp kept).1

/-- A completed task, its builder and its validator, and its row after one more call. -/
theorem completed_lifeCycle :
    let s := Pool.empty.run .ascii Sample.completed
    ∃ t ∈ s.db.tasks.rows, t.state = .completed ∧ t.builderWorkerId ≠ t.validatorWorkerId ∧
      t ∈ (s.after .ascii Sample.requeue.1 Sample.requeue.2).db.tasks.rows := by
  intro s
  have found : ∃ t ∈ s.db.tasks.rows, t.state = .completed := by decide +kernel
  obtain ⟨t, ht, done⟩ := found
  have reach : (pool .ascii).Reachable s := Pool.reachable_run (by decide)
  have st : (pool .ascii).step s Sample.requeue (s.after .ascii Sample.requeue.1 Sample.requeue.2) :=
    ⟨⟨by decide, nofun⟩, rfl⟩
  obtain ⟨facts, steps⟩ := task_lifeCycle reach
  exact ⟨t, ht, done, ((facts t ht).2.2.1 done).2.2, (steps st).2.2.2 t ht (.inl done)⟩

end Runs

end WorkerPool
