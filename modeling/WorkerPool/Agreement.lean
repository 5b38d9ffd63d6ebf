import WorkerPool.EvidenceChain

/-!
# Agreement on evidence

The evidence of a work item is the first that a call has stored. A call that has read the item
before is not told that its own `UPDATE` was skipped: its return means that its evidence is
stored only where the `UPDATE` finds no other.
-/

namespace WorkerPool

open PyText Transaction Transaction.Tx Transition Program
open Transition.System (Reachable Steps)

/-- The row holds the evidence that the call submits. -/
structure WorkRun.Holds (rt : Runtime) (a : RecordEvidence) (row : WorkRun) : Prop where
  verified : row.evidenceState = .verified
  run : row.validationRunId = some (strip a.validationRunId)
  sha : row.validationSha = some (rt.lower (strip a.validationSha))
  reference : row.evidenceReference = some (strip a.evidenceReference)

/-- The call does not fail before its first read, other than for its controls. -/
structure RecordEvidence.WellFormed (rt : Runtime) (a : RecordEvidence) : Prop where
  sha : isSha40 (rt.lower (strip a.validationSha)) = true
  identity : strip a.validationRunId ≠ "" ∧ strip a.evidenceReference ≠ ""

/-- The `UPDATE` of the call. -/
abbrev RecordEvidence.update (rt : Runtime) (c : Call) (a : RecordEvidence) : WorkRequest :=
  .verify a.workId (strip a.validationRunId) (rt.lower (strip a.validationSha))
    (strip a.evidenceReference) (strip a.correlationId) (c.iso .stamp)

/-- An `UPDATE` of evidence finds no other evidence. -/
def WorkRequest.Agrees (s : WorkDb) : WorkRequest → Prop
  | .verify workId runId sha reference _ _ => ∀ row ∈ s.runs.find? workId,
      row.evidenceState = .verified → row.validationRunId = some runId ∧
        row.validationSha = some sha ∧ row.evidenceReference = some reference
  | _ => True

instance WorkRequest.agreesDecidable (s : WorkDb) : (q : WorkRequest) → Decidable (q.Agrees s)
  | .verify .. => inferInstanceAs (Decidable (∀ row ∈ _, _))
  | .row _ | .task _ | .enqueue .. | .create .. | .setMerge .. => inferInstanceAs (Decidable True)

/-- `record_evidence` as it would be with its check made in the transaction of its `UPDATE`. -/
def WorkRequest.checked (rt : Runtime) : (q : WorkRequest) → Tx WorkDb PoolError q.Reply
  | .verify workId runId sha reference correlationId stamp => fun s =>
    if (WorkRequest.verify workId runId sha reference correlationId stamp).Agrees s then
      (WorkRequest.verify workId runId sha reference correlationId stamp).run rt s
    else (.error (.conflict "evidência divergente no replay"), s)
  | q => q.run rt

section Checked

variable {rt : Runtime} {s t : WorkDb} {a : RecordEvidence} {row row' : WorkRun}

theorem WorkRun.Holds.same (h : row.Holds rt a) (same : row.SameEvidence row') : row'.Holds rt a :=
  ⟨same.state.trans h.verified, same.run.trans h.run, same.sha.trans h.sha,
    same.reference.trans h.reference⟩

/-- The item has the evidence that the call submits. -/
def RecordEvidence.Stored (rt : Runtime) (a : RecordEvidence) (s : WorkDb) : Prop :=
  ∃ row, s.runs.find? a.workId = some row ∧ row.Holds rt a

theorem RecordEvidence.Stored.stable (h : a.Stored rt s) (others : s.Advances t) : a.Stored rt t := by
  obtain ⟨row, found, holds⟩ := h
  obtain ⟨row', found', kept⟩ := others.runs a.workId row found
  exact ⟨row', found', holds.same (kept.evidence holds.verified)⟩

/-- Where nothing disagrees the check changes nothing. -/
theorem WorkRequest.checked_eq {q : WorkRequest} (h : q.Agrees s) : q.checked rt s = q.run rt s := by
  cases q with
  | row | task | enqueue | create | setMerge => rfl
  | verify => exact if_pos h

/-- Where something disagrees the call is told so. -/
theorem WorkRequest.checked_error {q : WorkRequest} (h : ¬ q.Agrees s) :
    ∃ m, q.checked rt s = (.error (.conflict m), s) := by
  cases q with
  | row | task | enqueue | create | setMerge => exact absurd trivial h
  | verify => exact ⟨_, if_neg h⟩

theorem WorkRequest.checked_selects (rt : Runtime) : WorkRequest.Selects (WorkRequest.checked rt) where
  row := (WorkRequest.run_selects rt).row
  task := (WorkRequest.run_selects rt).task

/-- What every request guarantees. -/
def FromPool (rt : Runtime) (s t : WorkDb) : Prop := (pool rt).Reachable s.pool → s.Advances t

theorem FromPool.refl (s : WorkDb) : FromPool rt s s := fun _ => Std.Refl.refl s

theorem WorkRequest.run_fromPool (q : WorkRequest) (s : WorkDb) : FromPool rt s (q.run rt s).2 :=
  fun reach => (WorkRequest.run_advances q reach).1

theorem WorkRequest.checked_fromPool (q : WorkRequest) (s : WorkDb) :
    FromPool rt s (q.checked rt s).2 := by
  by_cases agrees : q.Agrees s
  · rw [WorkRequest.checked_eq agrees]
    exact q.run_fromPool s
  · obtain ⟨m, refused⟩ : ∃ m, q.checked rt s = (.error (.conflict m), s) :=
      WorkRequest.checked_error agrees
    rw [refused]
    exact .refl s

/-- An `UPDATE` leaves the evidence that it was given exactly where it finds no other. -/
theorem update_stored_iff (c : Call) (found : s.runs.find? a.workId = some row) :
    (a.update rt c).Agrees s ↔ a.Stored rt ((a.update rt c).run rt s).2 := by
  have after := find?_updateRow a.workId a.workId (WorkRun.verified (strip a.validationRunId)
    (rt.lower (strip a.validationSha)) (strip a.evidenceReference) (strip a.correlationId)
    (c.iso .stamp)) (WorkRun.verified_workId _ _ _ _ _) s
  rw [if_pos rfl, found] at after
  constructor
  · intro agrees
    refine ⟨_, after, ?_⟩
    unfold WorkRun.verified
    cases state : row.evidenceState with
    | pending => exact ⟨rfl, rfl, rfl, rfl⟩
    | verified =>
      obtain ⟨run, sha, reference⟩ := agrees row found state
      exact ⟨state, run, sha, reference⟩
  · rintro ⟨row', found', holds⟩ old hold verified
    cases found.symm.trans hold
    obtain rfl := Option.some.inj (after.symm.trans found')
    have kept : row.verified (strip a.validationRunId) (rt.lower (strip a.validationSha))
        (strip a.evidenceReference) (strip a.correlationId) (c.iso .stamp) = row := by
      unfold WorkRun.verified
      rw [if_neg (by simp [verified])]
    rw [kept] at holds
    exact ⟨holds.run, holds.sha, holds.reference⟩

end Checked

/-! ### The calls -/

section Calls

variable {rt : Runtime} {s : WorkDb} {c : Call} {a : RecordEvidence}

/-- A `record_evidence` that has returned finds its own evidence, in the row that it returns and
in the table. -/
def WorkOp.agrees (rt : Runtime) : WorkOp → Except PoolError WorkView → WorkDb → Prop
  | .recordEvidence _ a, .ok v, s => v.row.Holds rt a ∧ a.Stored rt s
  | _, _, _ => True

/-- A program among others that check what they write. -/
abbrev WorkProgram.Agrees {α : Type} (rt : Runtime) (post : Except PoolError α → WorkDb → Prop)
    (p : WorkProgram α) (s : WorkDb) : Prop :=
  p.Secures (WorkRequest.checked rt) WorkDb.Advances (FromPool rt) post s

theorem readback_agrees (stored : a.Stored rt s) :
    WorkProgram.Agrees rt ((WorkOp.recordEvidence c a).agrees rt) (getWork a.workId) s := by
  refine getWork_advances (WorkRequest.checked_selects rt) FromPool.refl (fun _ _ => trivial) ?_
  intro v t before found u after
  have there := stored.stable before
  obtain ⟨row, found', holds⟩ := id there
  cases found.symm.trans found'
  exact ⟨holds, there.stable after⟩

theorem update_agrees {row : WorkRun} (found : s.runs.find? a.workId = some row)
    {post : Except PoolError Unit → WorkDb → Prop} (stored : ∀ t, a.Stored rt t → post (.ok ()) t)
    (refused : ∀ m t, post (.error (.conflict m)) t) :
    WorkProgram.Agrees rt post (Program.request (a.update rt c)) s := by
  refine .request fun t others => ⟨WorkRequest.checked_fromPool _ t, fun u next => ?_⟩
  obtain ⟨row', found', -⟩ := others.runs _ _ found
  by_cases agrees : (a.update rt c).Agrees t
  · rw [WorkRequest.checked_eq agrees] at next ⊢
    exact stored u (((update_stored_iff c found').mp agrees).stable next)
  · obtain ⟨m, refusal⟩ : ∃ m, (a.update rt c).checked rt t = (.error (.conflict m), t) :=
      WorkRequest.checked_error agrees
    rw [refusal]
    exact refused m u

theorem recordEvidence_agrees (c : Call) (a : RecordEvidence) (s : WorkDb) :
    WorkProgram.Agrees rt ((WorkOp.recordEvidence c a).agrees rt) (recordEvidence rt c a) s := by
  refine .bind (.need (fun _ s₁ _ => ?_) fun _ _ _ => trivial)
  refine .bind (.need (fun _ s₂ _ => ?_) fun _ _ _ => trivial)
  refine .bind (.need (fun controls s₃ _ => ?_) fun _ _ _ => trivial)
  have selects := WorkRequest.checked_selects rt
  refine .bind (row_advances selects FromPool.refl (fun _ _ _ _ _ => trivial) ?_)
  intro t row _ stored u after
  refine .bind (task_advances selects FromPool.refl (fun _ _ _ _ _ => trivial) ?_)
  intro t₁ task before _ u₁ after₁
  refine .bind (.need (fun _ s₄ others₄ => ?_) fun _ _ _ => trivial)
  refine .bind (.need (fun _ s₅ others₅ => ?_) fun _ _ _ => trivial)
  have since : t.Advances s₅ := IsTrans.trans _ _ _ (IsTrans.trans _ _ _ after before)
    (IsTrans.trans _ _ _ after₁ (IsTrans.trans _ _ _ others₄ others₅))
  by_cases verified : row.evidenceState = .verified
  · simp only [verified, ↓reduceIte]
    refine .bind (.need (fun same s₆ others₆ => ?_) fun _ _ _ => trivial)
    have holds : row.Holds rt a := ⟨verified, same.1, same.2.1, same.2.2.1⟩
    have there : a.Stored rt t := ⟨row, stored, holds⟩
    refine view_advances selects FromPool.refl (fun _ _ => trivial) fun v shown t₂ others => ?_
    rw [WorkOp.agrees, shown]
    exact ⟨holds, there.stable (IsTrans.trans _ _ _ since (IsTrans.trans _ _ _ others₆ others))⟩
  · simp only [verified, ↓reduceIte]
    obtain ⟨row', stored', -⟩ := since.runs _ _ stored
    exact .bind (update_agrees stored' (fun t there => readback_agrees there) fun _ _ => trivial)

theorem bodies_agree (rt : Runtime) : Threads.Bodies (WorkRequest.checked rt) (WorkOp.body rt)
    (fun _ => WorkDb.Advances) (fun _ => FromPool rt) (WorkOp.agrees rt) := by
  intro op s
  have others : ∀ p : WorkProgram WorkView, WorkProgram.Agrees rt (fun _ _ => True) p s := fun p =>
    .of_within WorkRequest.checked_fromPool
  cases op with
  | createWork c a => exact (others _).mono fun _ _ _ => trivial
  | getWork workId => exact (others _).mono fun _ _ _ => trivial
  | recordEvidence c a => exact recordEvidence_agrees c a s
  | recordMergeResult c a => exact (others _).mono fun _ _ _ => trivial

/-- The item has other evidence than the call submits, and a task. -/
def RecordEvidence.Diverges (rt : Runtime) (a : RecordEvidence) (s : WorkDb) : Prop :=
  ∃ row task, s.runs.find? a.workId = some row ∧ row.evidenceState = .verified ∧
    ¬ row.Holds rt a ∧ s.pool.db.tasks.find? row.taskId = some task

theorem RecordEvidence.Diverges.stable {t : WorkDb} (h : a.Diverges rt s) (others : s.Advances t) :
    a.Diverges rt t := by
  obtain ⟨row, task, found, verified, other, stored⟩ := h
  obtain ⟨row', found', kept⟩ := others.runs _ _ found
  obtain ⟨task', stored', -⟩ := others.tasks _ _ stored
  have same := kept.evidence verified
  exact ⟨row', task', found', same.state.trans verified, fun holds => other (holds.same same.symm),
    kept.task ▸ stored'⟩

/-- A call that begins where other evidence is stored is told so. -/
theorem recordEvidence_conflicts (c : Call) (wellFormed : a.WellFormed rt) (h : a.Diverges rt s) :
    (recordEvidence rt c a).Secures (WorkRequest.run rt) WorkDb.Advances (FromPool rt)
      (fun r _ => ∃ m, r = .error (.conflict m)) s := by
  refine .bind (.need (fun _ s₁ o₁ => ?_) fun no => absurd wellFormed.sha no)
  refine .bind (.need (fun _ s₂ o₂ => ?_) fun no => absurd wellFormed.identity no)
  refine .bind (.need (fun _ s₃ o₃ => ?_) fun _ _ _ => ⟨_, rfl⟩)
  have selects := WorkRequest.run_selects rt
  have begins := ((h.stable o₁).stable o₂).stable o₃
  refine .bind (row_advances selects FromPool.refl (fun t others absent => ?_) ?_)
  · obtain ⟨row, task, found, -⟩ := begins.stable others
    cases absent.symm.trans found
  intro t row others found u after
  obtain ⟨row', task, found', verified, other, stored⟩ := begins.stable others
  cases found.symm.trans found'
  refine .bind (task_advances selects FromPool.refl (fun t₁ before absent => ?_) ?_)
  · obtain ⟨task', stored', -⟩ := (IsTrans.trans _ _ _ after before : t.Advances t₁).tasks _ _ stored
    cases absent.symm.trans stored'
  intro t₁ task' _ _ u₁ _
  refine .bind (.need (fun _ s₄ _ => ?_) fun _ _ _ => ⟨_, rfl⟩)
  refine .bind (.need (fun _ s₅ _ => ?_) fun _ _ _ => ⟨_, rfl⟩)
  simp only [verified, ↓reduceIte]
  refine .bind (.need (fun same _ _ => ?_) fun _ _ _ => ⟨_, rfl⟩)
  exact absurd ⟨verified, same.1, same.2.1, same.2.2.1⟩ other

end Calls

/-! ### Runs -/

section Runs

variable {rt : Runtime} {w w' : WorkWorld} {c : Call} {a : RecordEvidence}

/-- Every `UPDATE` of evidence finds the item pending or with the evidence that it is given. -/
def Agreed (w : WorkWorld) (l : WorkLabel) (_ : WorkWorld) : Prop :=
  ∀ q, w.Asks l q → q.Agrees w.shared

def FromReachable (rt : Runtime) (w : WorkWorld) (_ : WorkLabel) (_ : WorkWorld) : Prop :=
  (pool rt).Reachable w.shared.pool

/-- The calls with the check in the transaction. -/
def checkedSystem (rt : Runtime) : System WorkWorld WorkLabel :=
  Threads.system (fun s => s = ⟨.empty, .empty⟩) (WorkRequest.checked rt) (WorkOp.body rt)
    fun s l t => (pool rt).step s.pool l t.pool ∧ t.runs = s.runs

/-- A run in which nothing disagrees is a run of the calls with the check. -/
theorem agreed_checked (h : ((workSystem rt).restrict Agreed).Reachable w) :
    ((checkedSystem rt).restrict (FromReachable rt)).Reachable w := by
  refine h.strengthen (P := ((checkedSystem rt).restrict (FromReachable rt)).Reachable)
    (fun _ reach => (reachable_sound reach.of_restrict).2.pool) (fun _ start => .init start) ?_
  rintro w l w' pooled reach ⟨step, agreed⟩
  exact reach.step ⟨step.congr fun q asks => WorkRequest.checked_eq (agreed q asks), pooled⟩

theorem fromReachable_respected {good : WorkWorld → WorkLabel → WorkWorld → Prop}
    {exec : (q : WorkRequest) → WorkDb → Except PoolError q.Reply × WorkDb}
    (pooled : ∀ u l v, good u l v → (pool rt).Reachable u.shared.pool) :
    Threads.Respected exec (fun _ : WorkOp => WorkDb.Advances) (fun _ => FromPool rt) good
      fun s l t => (pool rt).step s.pool l t.pool ∧ t.runs = s.runs where
  others _ _ _ _ _ _ allowed _ _ change _ _ _ _ _ := change (pooled _ _ _ allowed)
  surroundings _ _ _ allowed change _ := around_advances (pooled _ _ _ allowed) change.1 change.2

/-- Where nothing has disagreed, a call that has returned has its own evidence stored. -/
theorem returned_stored (h : ((workSystem rt).restrict Agreed).Reachable w) {th}
    (hth : th ∈ w.threads) {v : WorkView} (op : th.op = .recordEvidence c a)
    (returned : th.rest = .done v) : v.row.Holds rt a ∧ a.Stored rt w.shared := by
  have secured := Threads.secured (bodies_agree rt)
    (fromReachable_respected fun _ _ _ allowed => allowed) (agreed_checked h) th hth
  have outcome : th.rest.Secures (WorkRequest.checked rt) WorkDb.Advances (FromPool rt)
      (th.op.agrees rt) w.shared := by
    by_cases fresh : th.asked = []
    · rw [secured.fresh fresh]
      exact bodies_agree rt th.op w.shared
    · exact secured.begun fresh
  rw [returned, op] at outcome
  exact outcome w.shared (Std.Refl.refl _)

/-- A call that begins once other evidence is stored raises a conflict, if it ends. -/
theorem diverging_conflict (h : (workSystem rt).Reachable w) (steps : (workSystem rt).Steps w w')
    (wellFormed : a.WellFormed rt) {row : WorkRun} (found : w.shared.runs.find? a.workId = some row)
    (verified : row.evidenceState = .verified) (other : ¬ row.Holds rt a)
    (later : ∀ th ∈ w.threads, ∀ c, th.op = .recordEvidence c a → th.asked = []) :
    ∀ th ∈ w'.threads, ∀ c, th.op = .recordEvidence c a → (∀ v, th.rest ≠ .done v) ∧
      ∀ e, th.rest = .raise e → ∃ m, e = .conflict m := by
  obtain ⟨restricted, sound⟩ := reachable_sound h
  obtain ⟨task, stored, -⟩ := (sound.rows row (Table.mem_of_find? found)).task
  have diverges : a.Diverges rt w.shared := ⟨row, task, found, verified, other, stored⟩
  let good : WorkWorld → WorkLabel → WorkWorld → Prop := fun u _ _ =>
    a.Diverges rt u.shared ∧ (pool rt).Reachable u.shared.pool
  let post : WorkOp → Except PoolError WorkView → WorkDb → Prop := fun op r _ =>
    ∀ c, op = .recordEvidence c a → ∃ m, r = .error (.conflict m)
  have met : ((workSystem rt).restrict good).Steps w w' := steps.restrict fun u l v before _ =>
    ⟨diverges.stable (steps_advance h before), (reachable_sound (h.steps before)).2.pool⟩
  have anything : ∀ (p : WorkProgram WorkView) s, p.Secures (WorkRequest.run rt) WorkDb.Advances
      (FromPool rt) (fun _ _ => True) s := fun p s => .of_within WorkRequest.run_fromPool
  have begins : ∀ s, a.Diverges rt s → ∀ op : WorkOp, (op.body rt).Secures (WorkRequest.run rt)
      WorkDb.Advances (FromPool rt) (post op) s := by
    intro s diverges op
    by_cases mine : ∃ c, op = .recordEvidence c a
    · obtain ⟨c, rfl⟩ := mine
      exact (recordEvidence_conflicts c wellFormed diverges).mono fun r _ holds _ _ => holds
    · exact (anything _ s).mono fun _ _ _ c same => absurd ⟨c, same⟩ mine
  have start : ∀ th ∈ w.threads, th.Secured (WorkRequest.run rt) (WorkOp.body rt)
      (fun _ => WorkDb.Advances) (fun _ => FromPool rt) post w.shared := by
    intro th hth
    have fresh := (Threads.secured (bodies_chained rt) (fromSound_respected rt) restricted th hth).fresh
    refine ⟨fresh, fun begun => (anything _ _).mono fun _ _ _ c op => ?_⟩
    exact absurd (later th hth c op) begun
  have secured := Threads.secured_since (fun u l v allowed op => begins _ allowed.1 op)
    (fromReachable_respected fun _ _ _ allowed => allowed.2) start met
  intro th hth c op
  have outcome : th.rest.Secures (WorkRequest.run rt) WorkDb.Advances (FromPool rt) (post th.op)
      w'.shared := by
    by_cases fresh : th.asked = []
    · rw [(secured th hth).fresh fresh]
      exact begins _ (diverges.stable (steps_advance h steps)) th.op
    · exact (secured th hth).begun fresh
  refine ⟨fun v returned => ?_, fun e raised => ?_⟩
  · rw [returned] at outcome
    obtain ⟨m, impossible⟩ := outcome w'.shared (Std.Refl.refl _) c op
    cases impossible
  · rw [raised] at outcome
    obtain ⟨m, same⟩ := outcome w'.shared (Std.Refl.refl _) c op
    exact ⟨m, Except.error.inj same⟩

/-- The first evidence of an item is never overwritten. In every run whose `UPDATE`s of evidence
each find the item pending or with the same evidence, a call that has returned has its own
evidence stored; and a call that begins after other evidence was stored raises a conflict. An
`UPDATE` meets the condition exactly when it leaves the evidence that it was given. -/
theorem evidence_agreement :
    (∀ w w' : WorkWorld, (workSystem rt).Reachable w → (workSystem rt).Steps w w' →
      ∀ workId row, w.shared.runs.find? workId = some row → row.evidenceState = .verified →
        ∃ row', w'.shared.runs.find? workId = some row' ∧ row.SameEvidence row') ∧
    (∀ w, ((workSystem rt).restrict Agreed).Reachable w → ∀ th ∈ w.threads, ∀ c a v,
      th.op = .recordEvidence c a → th.rest = .done v →
        v.row.Holds rt a ∧ ∃ row, w.shared.runs.find? a.workId = some row ∧ row.Holds rt a) ∧
    (∀ w w' : WorkWorld, (workSystem rt).Reachable w → (workSystem rt).Steps w w' →
      ∀ (a : RecordEvidence) row, a.WellFormed rt → w.shared.runs.find? a.workId = some row →
        row.evidenceState = .verified → ¬ row.Holds rt a →
        (∀ th ∈ w.threads, ∀ c, th.op = .recordEvidence c a → th.asked = []) →
        ∀ th ∈ w'.threads, ∀ c, th.op = .recordEvidence c a → (∀ v, th.rest ≠ .done v) ∧
          ∀ e, th.rest = .raise e → ∃ m, e = .conflict m) ∧
    ∀ (s : WorkDb) c (a : RecordEvidence) row, s.runs.find? a.workId = some row →
      ((a.update rt c).Agrees s ↔ ∃ row', ((a.update rt c).run rt s).2.runs.find? a.workId =
        some row' ∧ row'.Holds rt a) := by
  refine ⟨fun w w' h steps workId row found verified => ?_, fun w h th hth c a v op returned => ?_,
    fun w w' h steps a row wellFormed found verified other later => ?_,
    fun s c a row found => update_stored_iff c found⟩
  · obtain ⟨row', found', kept⟩ := (steps_advance h steps).runs workId row found
    exact ⟨row', found', kept.evidence verified⟩
  · exact returned_stored h hth op returned
  · exact diverging_conflict h steps wellFormed found verified other later

end Runs

/-! ### Two evidences at once -/

namespace Sample

def called : WorkWorld :=
  Threads.World.begin (WorkOp.body .ascii) ⟨Pool.empty.run .ascii completed, .empty⟩
    [create, evidence "run"]

/-- The item is created, and then its evidence recorded. -/
def recorded : WorkWorld := called.runs (WorkRequest.run .ascii) [0, 0, 0, 0, 1, 1, 1, 1, 1]

/-- Two calls have read the item before the first of them updates it. -/
def recordedTwice : WorkWorld :=
  (Threads.World.begin (WorkOp.body .ascii) validated [evidence "run", evidence "other"]).runs
    (WorkRequest.run .ascii) [0, 0, 1, 1, 0, 1, 1, 1]

end Sample

/-- A call that nobody disturbs has its evidence stored. -/
theorem evidence_recorded : ∃ row, Sample.recorded.shared.runs.find? Sample.workId = some row ∧
    row.Holds .ascii ⟨Sample.workId, "run", String.ofList (List.replicate 40 'a'), "ref", true, true,
      true, "corr"⟩ := by
  obtain ⟨allowed, done⟩ :
      Sample.called.allows (WorkRequest.run .ascii) (fun q s => decide (q.Agrees s))
        [0, 0, 0, 0, 1, 1, 1, 1, 1] = true ∧
      (Sample.recorded.returned 1).isSome = true := by
    decide +kernel
  obtain ⟨v, returned⟩ := Option.isSome_iff_exists.mp done
  obtain ⟨th, hth, op, rest⟩ := Threads.returned_thread _ _ rfl returned
  have silent : ∀ (w : WorkWorld) l w', (∀ place, l ≠ .run place) → Agreed w l w' := by
    rintro w l w' other q ⟨place, th, k, made, -⟩
    exact absurd made (other place)
  have start : ((workSystem .ascii).restrict Agreed).Reachable ⟨⟨.empty, .empty⟩, []⟩ :=
    .init ⟨rfl, rfl⟩
  have pooled : (pool .ascii).Steps .empty (Pool.empty.run .ascii Sample.completed) :=
    Pool.steps_run (by decide)
  have begun : ((workSystem .ascii).restrict Agreed).Steps
      ⟨⟨Pool.empty.run .ascii Sample.completed, .empty⟩, []⟩ Sample.called :=
    Threads.steps_begin _ _ _ _ _ [Sample.create, Sample.evidence "run"]
      (fun u op u' => silent u _ u' nofun) []
  have ran : ((workSystem .ascii).restrict Agreed).Steps Sample.called Sample.recorded :=
    Threads.steps_allowed _ _ _ _ (fun u place u' passed q asks =>
      of_decide_eq_true (passed q (Threads.asks_run_iff.mp asks))) allowed
  have reach := (start.steps (steps_pool (fun u e u' => silent u _ u' nofun) pooled .empty)).steps begun
  exact (evidence_agreement.2.1 _ (reach.steps ran) th hth _ _ v op rest).2

/-- The call whose `UPDATE` was skipped returns as if its evidence were stored. -/
theorem evidence_dropped : ∃ w, (workSystem .ascii).Reachable w ∧ ∃ th ∈ w.threads, ∃ c a v row,
    th.op = .recordEvidence c a ∧ th.rest = .done v ∧ w.shared.runs.find? a.workId = some row ∧
    row.evidenceState = .verified ∧ row.validationRunId ≠ some (strip a.validationRunId) := by
  obtain ⟨done, stored⟩ : (Sample.recordedTwice.returned 1).isSome = true ∧
      (Sample.recordedTwice.shared.runs.find? Sample.workId).map (fun row =>
        (row.evidenceState, row.validationRunId)) = some (.verified, some "run") := by
    decide +kernel
  obtain ⟨v, returned⟩ := Option.isSome_iff_exists.mp done
  obtain ⟨th, hth, op, rest⟩ := Threads.returned_thread _ _ rfl returned
  obtain ⟨row, found, held⟩ := Option.map_eq_some_iff.mp stored
  have reach : (workSystem .ascii).Reachable Sample.recordedTwice :=
    (Sample.validated_reachable Sample.anything_alone).of_restrict.steps
      (Threads.steps_together _ _ _ _ Sample.validated _ _)
  refine ⟨Sample.recordedTwice, reach, th, hth, _, _, v, row, op, rest, found,
    congrArg Prod.fst held, ?_⟩
  have mine : row.validationRunId = some "run" := congrArg Prod.snd held
  have other : some "run" ≠ some (strip "other") := by decide
  rw [mine]
  exact other

end WorkerPool
