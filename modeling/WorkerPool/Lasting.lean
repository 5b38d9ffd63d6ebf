import WorkerPool.Claimable

/-!
# What no call undoes

The columns that an admission writes stay as they are, whatever is done to the task, and the
cutover stays enabled.
-/

namespace WorkerPool

open PyText Transaction Transaction.Tx
open Transition.System (Reachable Steps)

/-! ### Admitted columns -/

/-- The columns that an admission writes and no other call. -/
structure Task.SameAdmission (t t' : Task) : Prop extends t.SameIdentity t' where
  repository : t'.repository = t.repository
  issueNumber : t'.issueNumber = t.issueNumber
  requestId : t'.requestId = t.requestId
  priority : t'.priority = t.priority
  branch : t'.branch = t.branch
  baseSha : t'.baseSha = t.baseSha
  fencingRequired : t'.fencingRequired = t.fencingRequired
  maxAttempts : t'.maxAttempts = t.maxAttempts

theorem Task.SameAdmission.refl (t : Task) : t.SameAdmission t :=
  ⟨⟨rfl, rfl⟩, rfl, rfl, rfl, rfl, rfl, rfl, rfl, rfl⟩

theorem Task.SameAdmission.trans {t u w : Task} (h : t.SameAdmission u) (h' : u.SameAdmission w) :
    t.SameAdmission w where
  taskId := h'.taskId.trans h.taskId
  key := h'.key.trans h.key
  repository := h'.repository.trans h.repository
  issueNumber := h'.issueNumber.trans h.issueNumber
  requestId := h'.requestId.trans h.requestId
  priority := h'.priority.trans h.priority
  branch := h'.branch.trans h.branch
  baseSha := h'.baseSha.trans h.baseSha
  fencingRequired := h'.fencingRequired.trans h.fencingRequired
  maxAttempts := h'.maxAttempts.trans h.maxAttempts

/-- No act takes a task away or changes what its admission wrote. -/
theorem Does.admitted {f f' : TaskFile} {act : Act} (h : Does f act f') {t : Task}
    (ht : f.task = some t) : ∃ t', f'.task = some t' ∧ t.SameAdmission t' := by
  cases h with
  | enqueue absent => cases absent.symm.trans ht
  | reconcile r current => exact ⟨t, ht, .refl t⟩
  | grant current | renew _ _ current | start _ current | release _ _ _ _ current
  | checkpoint _ _ current | requeue _ current =>
    obtain rfl := Option.some.inj (current.symm.trans ht)
    exact ⟨_, rfl, ⟨⟨rfl, rfl⟩, rfl, rfl, rfl, rfl, rfl, rfl, rfl, rfl⟩⟩

section Later

variable {rt : Runtime} {s s' : Pool} {t : Task} {taskId : String}

theorem step_admitted {l : Call × Op} (h : (pool rt).Reachable s) (st : (pool rt).step s l s')
    (ht : s.db.tasks.find? taskId = some t) :
    ∃ t', s'.db.tasks.find? taskId = some t' ∧ t.SameAdmission t' := by
  refine path_file (P := fun f => ∃ t', f.task = some t' ∧ t.SameAdmission t') ?_
    (step_moves (reachable_owned h) st) ⟨t, ht, .refl t⟩
  rintro f act f' - ⟨u, current, same⟩ does
  obtain ⟨u', stored, same'⟩ := does.admitted current
  exact ⟨u', stored, same.trans same'⟩

/-- A task stays, with what its admission wrote. -/
theorem steps_admitted (h : (pool rt).Reachable s) (steps : (pool rt).Steps s s')
    (ht : s.db.tasks.find? taskId = some t) :
    ∃ t', s'.db.tasks.find? taskId = some t' ∧ t.SameAdmission t' := by
  induction steps with
  | refl => exact ⟨t, ht, .refl t⟩
  | tail before st ih =>
    obtain ⟨u, stored, same⟩ := ih
    obtain ⟨u', stored', same'⟩ := step_admitted (h.steps before) st stored
    exact ⟨u', stored', same.trans same'⟩

/-! ### The cutover -/

/-- The cutover, once enabled, is enabled. -/
def Db.CutoverStays (db db' : Db) : Prop := db.cutover.enabled = true → db'.cutover.enabled = true

instance : Std.Refl Db.CutoverStays := ⟨fun _ => id⟩

instance : IsTrans Db Db.CutoverStays := ⟨fun _ _ _ h h' enabled => h' (h enabled)⟩

theorem Db.Aside.cutoverStays {db db' : Db} (h : db.Aside db') : db.CutoverStays db' := by
  intro enabled
  rw [h.cutover]
  exact enabled

/-- Only `enable_fenced_cutover` writes the control row, and it enables the cutover. -/
theorem Op.run_cutoverStays {c : Call} {op : Op} : (op.run rt c).Within Db.CutoverStays := by
  have returned : ∀ {α β : Type} {m : Body α} {f : α → β}, m.Within Db.CutoverStays →
      (m >>= fun a => pure (f a)).Within Db.CutoverStays := fun h => h.bind fun _ => .pure _
  have aside : ∀ {α : Type} {m : Body α}, m.Within Db.Aside → m.Within Db.CutoverStays :=
    fun h => h.mono fun _ _ => Db.Aside.cutoverStays
  have elsewhere : ∀ {f : Db → Db}, (∀ db, (f db).cutover = db.cutover) →
      (write f : Body Unit).Within Db.CutoverStays := by
    intro f same
    refine .write fun db enabled => ?_
    rw [same]
    exact enabled
  cases op with
  | registerWorker a =>
    refine returned ((Within.require _ _).bind fun _ => (Within.unwrap _ _).bind fun _ => ?_)
    refine (Within.unwrap _ _).bind fun _ => (Within.require _ _).bind fun _ => ?_
    refine Within.bind (.atomically (elsewhere fun _ => rfl)) fun _ => ?_
    exact (Within.read _).bind fun _ => .unwrap _ _
  | heartbeatWorker a =>
    refine returned (Within.bind ((Within.read _).bind fun _ => .unwrap _ _) fun _ => ?_)
    refine (Within.unwrap _ _).bind fun _ => ?_
    refine Within.bind (.atomically (elsewhere fun _ => rfl)) fun _ => ?_
    exact (Within.read _).bind fun _ => .unwrap _ _
  | configureRepository repository enabled maxInFlight =>
    refine returned (Within.bind (.of_reads (ofExcept_reads _)) fun _ => ?_)
    split
    · exact .raise _
    · refine Within.bind (.atomically (elsewhere fun _ => rfl)) fun _ => ?_
      exact (Within.of_reads (ofExcept_reads _)).bind fun _ => (Within.read _).bind fun _ => .unwrap _ _
  | replaceWorkerAffinities =>
    refine returned (((Within.read _).bind fun _ => .unwrap _ _).bind fun _ => ?_)
    refine (Within.of_reads (ofExcept_reads _)).bind fun _ => (Within.atomically ?_).bind fun _ => .pure _
    refine Within.bind (elsewhere fun _ => rfl) fun _ => .forEach fun _ _ => ?_
    exact Within.bind (elsewhere fun _ => rfl) fun _ => elsewhere fun _ => rfl
  | enableFencedCutover =>
    refine returned ((Within.require _ _).bind fun _ => (Within.require _ _).bind fun _ => ?_)
    exact Within.bind (.atomically (.write fun _ _ => rfl)) fun _ => .read _
  | enqueueTask a =>
    refine returned ((Within.require _ _).bind fun _ => (Within.require _ _).bind fun _ => ?_)
    refine (Within.of_reads (ofExcept_reads _)).bind fun _ => (Within.require _ _).bind fun _ => ?_
    refine Within.atomically ((Within.read _).bind fun _ => (Within.require _ _).bind fun _ => ?_)
    refine Within.bind (elsewhere fun _ => rfl) fun _ => (Within.read _).bind fun found => ?_
    cases found with
    | some row =>
      exact (Within.require _ _).bind fun _ => (Within.require _ _).bind fun _ => .pure _
    | none =>
      refine Within.bind (aside (insertTask_aside _)) fun _ => ?_
      exact Within.bind (.of_reads (getTask_reads _)) fun _ => .pure _
  | claimTask a token attemptId =>
    refine returned ((Within.unwrap _ _).bind fun role => (Within.require _ _).bind fun _ => ?_)
    refine (Within.require _ _).bind fun _ => Within.atomically ?_
    refine Within.bind (aside (claimRecovery_within .aside a)) fun _ => ?_
    refine Within.bind (.of_reads (ready_reads c a.workerId role)) fun _ => ?_
    refine (Within.read _).bind fun selected => ?_
    cases selected with
    | none => exact .pure _
    | some row =>
      refine Within.bind ?_ fun _ => .pure _
      refine (Within.unwrap _ _).bind fun _ => (Within.read _).bind fun _ => ?_
      refine (Within.require _ _).bind fun _ => ?_
      refine Within.bind (aside (updateTask_aside _ _ _)) fun _ => ?_
      refine Within.bind (elsewhere fun _ => rfl) fun _ => ?_
      refine Within.bind (.of_reads (getTask_reads _)) fun _ => ?_
      exact Within.bind (aside (insertAttempt_within .aside _)) fun _ => .pure _
  | _ => exact aside (Op.run_aside rfl)

theorem steps_cutoverStays (steps : (pool rt).Steps s s') : s.db.CutoverStays s'.db := by
  induction steps with
  | refl => exact fun enabled => enabled
  | @tail u w l before st ih =>
    intro enabled
    obtain ⟨-, rfl⟩ := st
    exact Op.run_cutoverStays u.db (ih enabled)

end Later

end WorkerPool
