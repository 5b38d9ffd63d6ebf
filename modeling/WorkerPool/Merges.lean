import WorkerPool.WorkRuns

/-!
# Merge results

`record_merge_result` decides on a row that it has read before, and its `UPDATE` looks at
nothing but the key. The result of a work item is final as long as nobody else's update
falls between the read of a call and its return.
-/

namespace WorkerPool

open Transaction Transaction.Tx Transition Program
open Transition.System (Reachable Steps)

/-- The row holds the result that the call submits. -/
def WorkRun.Records (rt : Runtime) (a : RecordMergeResult) (row : WorkRun) : Prop :=
  if a.merged then row.mergeState = .merged ∧ row.mergeCommitSha = a.commit rt
  else row.mergeState = .blocked ∧ row.mergeReason = a.normalizedReason rt

/-- Two calls submit one result. -/
def RecordMergeResult.SameResult (rt : Runtime) (a b : RecordMergeResult) : Prop :=
  a.merged = b.merged ∧
    if a.merged then a.commit rt = b.commit rt else a.normalizedReason rt = b.normalizedReason rt

structure WorkRun.SameMerge (row row' : WorkRun) : Prop where
  state : row'.mergeState = row.mergeState
  commit : row'.mergeCommitSha = row.mergeCommitSha
  reason : row'.mergeReason = row.mergeReason

section Results

variable {rt : Runtime} {a b : RecordMergeResult} {row row' row'' : WorkRun}

theorem WorkRun.SameMerge.refl (row : WorkRun) : row.SameMerge row := ⟨rfl, rfl, rfl⟩

theorem WorkRun.SameMerge.trans (h : row.SameMerge row') (h' : row'.SameMerge row'') :
    row.SameMerge row'' :=
  ⟨h'.state.trans h.state, h'.commit.trans h.commit, h'.reason.trans h.reason⟩

theorem WorkRun.Records.same (h : row.Records rt a) (same : row.SameMerge row') :
    row'.Records rt a := by
  unfold WorkRun.Records at *
  rw [same.state, same.commit, same.reason]
  exact h

theorem RecordMergeResult.SameResult.records (h : a.SameResult rt b) (recorded : row.Records rt a) :
    row.Records rt b := by
  obtain ⟨merged, value⟩ := h
  unfold WorkRun.Records at *
  rw [← merged]
  by_cases yes : a.merged = true
  · simp only [yes, ↓reduceIte] at value recorded ⊢
    exact ⟨recorded.1, recorded.2.trans value⟩
  · simp only [yes] at value recorded ⊢
    exact ⟨recorded.1, recorded.2.trans value⟩

end Results

/-! ### What the calls rely on and guarantee -/

/-- A verified row of the work item stays, with its result as it was or as `new` has it. -/
def WorkDb.Keeps (workId : String) (new : WorkRun → WorkRun → Prop) (s t : WorkDb) : Prop :=
  ∀ row, s.runs.find? workId = some row → row.evidenceState = .verified →
    ∃ row', t.runs.find? workId = some row' ∧ row'.evidenceState = .verified ∧
      (row.SameMerge row' ∨ new row row')

/-- A result is there only where the evidence is. -/
def WorkDb.Evidenced (s : WorkDb) : Prop :=
  ∀ row ∈ s.runs.rows, row.mergeState ≠ .pending → row.evidenceState = .verified

/-- A merged row stays merged with its commit. -/
def WorkRun.Final (row row' : WorkRun) : Prop :=
  row.mergeState = .merged → row'.mergeState = .merged ∧ row'.mergeCommitSha = row.mergeCommitSha

namespace WorkOp

variable (rt : Runtime)

def rely : WorkOp → WorkDb → WorkDb → Prop
  | .recordMergeResult _ a => WorkDb.Keeps a.workId fun _ row' => row'.Records rt a
  | _ => fun _ _ => True

/-- The call writes its own result over no other that is final, and takes no evidence back. -/
structure Guarantees (op : WorkOp) (s t : WorkDb) : Prop where
  keeps : ∀ workId, WorkDb.Keeps workId (fun row row' => row.Final row' ∧
    ∃ c a, op = .recordMergeResult c a ∧ a.workId = workId ∧ row'.Records rt a) s t
  evidenced : s.Evidenced → t.Evidenced

/-- A `record_merge_result` that has returned finds its own result, in the row that it
returns and in the table. -/
def returns : WorkOp → Except PoolError WorkView → WorkDb → Prop
  | .recordMergeResult _ a, .ok v, s => v.row.Records rt a ∧
      ∃ row, s.runs.find? a.workId = some row ∧ row.evidenceState = .verified ∧ row.Records rt a
  | _, _, _ => True

end WorkOp

theorem WorkDb.Keeps.refl (workId : String) (new : WorkRun → WorkRun → Prop) (s : WorkDb) :
    s.Keeps workId new s := fun row found verified => ⟨row, found, verified, .inl (.refl row)⟩

/-- A result that is kept where it was, or is the call's own, stays so. -/
theorem WorkDb.Keeps.trans {rt : Runtime} {a : RecordMergeResult} {s t u : WorkDb}
    (h : s.Keeps a.workId (fun _ row' => row'.Records rt a) t)
    (h' : t.Keeps a.workId (fun _ row' => row'.Records rt a) u) :
    s.Keeps a.workId (fun _ row' => row'.Records rt a) u := by
  intro row found verified
  obtain ⟨row', found', verified', change⟩ := h row found verified
  obtain ⟨row'', found'', verified'', change'⟩ := h' row' found' verified'
  refine ⟨row'', found'', verified'', ?_⟩
  rcases change' with same' | recorded'
  · rcases change with same | recorded
    · exact .inl (same.trans same')
    · exact .inr (recorded.same same')
  · exact .inr recorded'

instance (rt : Runtime) (op : WorkOp) : Std.Refl (op.rely rt) := ⟨fun s => by
  cases op with
  | recordMergeResult c a => exact .refl _ _ s
  | createWork | getWork | recordEvidence => trivial⟩

instance (rt : Runtime) (op : WorkOp) : IsTrans WorkDb (op.rely rt) := ⟨fun s t u h h' => by
  cases op with
  | recordMergeResult c a => exact WorkDb.Keeps.trans h h'
  | createWork | getWork | recordEvidence => trivial⟩

/-! ### Requests -/

/-- A request that leaves the result of every verified row alone. -/
def WorkRequest.quiet : WorkRequest → Bool
  | .setMerge .. => false
  | _ => true

section Requests

variable {rt : Runtime} {s t : WorkDb}

/-- Every verified row stays as it is, and no result appears without its evidence. -/
structure WorkDb.Quiet (s t : WorkDb) : Prop where
  rows : ∀ workId row, s.runs.find? workId = some row → row.evidenceState = .verified →
    t.runs.find? workId = some row
  evidenced : s.Evidenced → t.Evidenced

theorem WorkDb.Quiet.of_runs (h : t.runs = s.runs) : s.Quiet t where
  rows _ _ found _ := h ▸ found
  evidenced before row hr := before row (h ▸ hr)

/-- `create_work` inserts its row where neither the item nor the task has one, or changes
nothing. -/
theorem createRow_runs (workId taskId mergePolicy correlationId stamp : String) (s : WorkDb) :
    (createRow workId taskId mergePolicy correlationId stamp s).2 = s ∨
      ∃ runs, s.runs.insert? (createdRow workId taskId mergePolicy correlationId stamp) = some runs ∧
        (∀ row ∈ s.runs.rows, row.taskId ≠ taskId) ∧
        (createRow workId taskId mergePolicy correlationId stamp s).2 = { s with runs := runs } := by
  rcases yields_or_fails (createRow workId taskId mergePolicy correlationId stamp) s with
    ⟨made, t, h⟩ | ⟨e, t, h⟩
  · rw [show createRow workId taskId mergePolicy correlationId stamp s = _ from h]
    simp only [createRow, atomically_yields, bind_yields, read_yields] at h
    obtain ⟨existing, _, ⟨rfl, rfl⟩, rest⟩ := h
    split at rest
    · simp only [bind_yields, require_yields, pure_yields] at rest
      obtain ⟨_, _, ⟨_, rfl⟩, rfl, rfl⟩ := rest
      exact .inl rfl
    · simp only [bind_yields, read_yields, require_yields, unwrap_yields, write_yields,
        pure_yields] at rest
      obtain ⟨_, _, ⟨rfl, rfl⟩, _, _, ⟨free, rfl⟩, runs, s, ⟨inserted, rfl⟩, _, _, rfl, rfl, rfl⟩ :=
        rest
      exact .inr ⟨runs, inserted, free, rfl⟩
  · rw [show createRow workId taskId mergePolicy correlationId stamp s = _ from h]
    exact .inl (atomically_fails.mp h).1

theorem createRow_quiet (workId taskId mergePolicy correlationId stamp : String) (s : WorkDb) :
    s.Quiet (createRow workId taskId mergePolicy correlationId stamp s).2 := by
  rcases createRow_runs workId taskId mergePolicy correlationId stamp s with
    same | ⟨runs, inserted, -, same⟩
  · exact .of_runs (by rw [same])
  · rw [same]
    obtain ⟨absent, rows⟩ := Table.insert?_eq_some_iff.mp inserted
    refine ⟨fun other row found _ => ?_, fun before row hr => ?_⟩
    · refine (Table.find?_insert inserted other).trans ((if_neg fun same => ?_).trans found)
      rw [same] at found
      cases absent.symm.trans found
    · rw [rows] at hr
      rcases List.mem_append.mp hr with old | new
      · exact before row old
      · rw [List.mem_singleton.mp new]
        exact fun result => absurd rfl result

theorem find?_updateRow (workId other : String) (f : WorkRun → WorkRun) (keeps) (s : WorkDb) :
    (updateRow workId f keeps s).2.runs.find? other =
      if other = workId then (s.runs.find? other).map f else s.runs.find? other :=
  Table.find?_modify s.runs workId other f keeps

theorem verify_quiet (workId runId sha reference correlationId stamp : String) (s : WorkDb) :
    s.Quiet (updateRow workId (WorkRun.verified runId sha reference correlationId stamp)
      (WorkRun.verified_workId _ _ _ _ _) s).2 where
  rows other row found verified := by
    rw [find?_updateRow, found]
    split
    · simp [WorkRun.verified, verified]
    · rfl
  evidenced before row hr := by
    obtain ⟨old, hold, rfl⟩ := List.mem_map.mp hr
    have kept := before old hold
    split
    · unfold WorkRun.verified
      split
      · exact fun _ => rfl
      · exact kept
    · exact kept

theorem WorkRequest.run_quiet {q : WorkRequest} (h : q.quiet = true) (s : WorkDb) :
    s.Quiet (q.run rt s).2 := by
  cases q with
  | row => exact .of_runs rfl
  | task => exact .of_runs rfl
  | enqueue => exact .of_runs rfl
  | create => exact createRow_quiet _ _ _ _ _ s
  | verify => exact verify_quiet _ _ _ _ _ _ s
  | setMerge => cases h

theorem WorkDb.Quiet.keeps (h : s.Quiet t) (workId : String) (new : WorkRun → WorkRun → Prop) :
    s.Keeps workId new t := fun row found verified =>
  ⟨row, h.rows workId row found verified, verified, .inl (.refl row)⟩

theorem WorkDb.Quiet.guarantees (h : s.Quiet t) (op : WorkOp) : op.Guarantees rt s t :=
  ⟨fun workId => h.keeps workId _, h.evidenced⟩

theorem WorkDb.Quiet.rely (h : s.Quiet t) (op : WorkOp) : op.rely rt s t := by
  cases op with
  | recordMergeResult c a => exact h.keeps a.workId _
  | createWork | getWork | recordEvidence => trivial

end Requests

/-! ### The calls -/

section Calls

variable {rt : Runtime}

abbrev Quietly {α : Type} (p : WorkProgram α) : Prop := p.Only fun q => q.quiet = true

theorem row_quietly (workId : String) : Quietly (WorkProgram.row workId) := by
  refine .bind (.request rfl) fun found => ?_
  cases found with
  | some row => exact .pure row
  | none => exact .raise _

theorem view_quietly (row : WorkRun) : Quietly (WorkProgram.view row) :=
  .bind (.request rfl) fun _ => .pure _

theorem getWork_quietly (workId : String) : Quietly (getWork workId) :=
  .bind (row_quietly workId) fun row => view_quietly row

theorem createWork_quietly (c : Call) (a : CreateWork) : Quietly (createWork c a) := by
  refine .bind (.need _ _) fun _ => .bind (.request rfl) fun enqueued => ?_
  exact .bind (.request rfl) fun _ => getWork_quietly _

theorem recordEvidence_quietly (c : Call) (a : RecordEvidence) : Quietly (recordEvidence rt c a) := by
  refine .bind (.need _ _) fun _ => .bind (.need _ _) fun _ => .bind (.need _ _) fun _ => ?_
  refine .bind (row_quietly _) fun row => .bind (.request rfl) fun task => ?_
  refine .bind (.need _ _) fun _ => .bind (.need _ _) fun _ => ?_
  split
  · exact .bind (.need _ _) fun _ => view_quietly row
  · exact .bind (.request rfl) fun _ => getWork_quietly _

section Methods

variable {op : WorkOp} {s : WorkDb} {α : Type} {post : Except PoolError α → WorkDb → Prop}

/-- A program of the work facade that keeps to the rules of the call `op`. -/
abbrev WorkOp.Secures (rt : Runtime) (op : WorkOp) (post : Except PoolError α → WorkDb → Prop)
    (p : WorkProgram α) (s : WorkDb) : Prop :=
  p.Secures (WorkRequest.run rt) (op.rely rt) (op.Guarantees rt) post s

theorem quiet_secures {q : WorkRequest} {post : Except PoolError q.Reply → WorkDb → Prop}
    (quiet : q.quiet = true)
    (h : ∀ t, op.rely rt s t → ∀ u, op.rely rt t u → post (q.run rt t).1 u) :
    op.Secures rt post (Program.request q) s := by
  refine .request fun t others => ?_
  have unchanged : t.Quiet (q.run rt t).2 := WorkRequest.run_quiet quiet t
  refine ⟨unchanged.guarantees op, fun u next => h t others u ?_⟩
  exact IsTrans.trans _ _ _ (unchanged.rely op) next

theorem row_secures {workId : String} {post : Except PoolError WorkRun → WorkDb → Prop}
    (fails : ∀ e t, post (.error e) t)
    (found : ∀ t row, t.runs.find? workId = some row → op.rely rt s t → ∀ u, op.rely rt t u →
      post (.ok row) u) : op.Secures rt post (WorkProgram.row workId) s := by
  refine .bind (quiet_secures rfl fun t before u after => ?_)
  have read : (WorkRequest.run rt (.row workId) t).1 = .ok (t.runs.find? workId) := rfl
  rw [read]
  cases stored : t.runs.find? workId with
  | none => exact fun _ _ => fails _ _
  | some row => exact fun v next => found t row stored before v (IsTrans.trans _ _ _ after next)

theorem view_secures {row : WorkRun} {post : Except PoolError WorkView → WorkDb → Prop}
    (fails : ∀ e t, post (.error e) t)
    (shown : ∀ v : WorkView, v.row = row → ∀ t, op.rely rt s t → post (.ok v) t) :
    op.Secures rt post (WorkProgram.view row) s := by
  refine .bind (quiet_secures rfl fun t before u after => ?_)
  cases ((WorkRequest.task row.taskId).run rt t).1 with
  | error e => exact fails e u
  | ok task =>
    exact fun v next => shown _ rfl v
      (IsTrans.trans _ _ _ before (IsTrans.trans _ _ _ after next))

end Methods

section Merge

variable {c : Call} {a : RecordMergeResult} {row : WorkRun} {s t : WorkDb}

/-- Since the call has read the row, its item has kept its result or has been given the
call's own. -/
def RecordMergeResult.Seen (rt : Runtime) (a : RecordMergeResult) (row : WorkRun) (s : WorkDb) :
    Prop :=
  row.evidenceState = .verified → ∃ row', s.runs.find? a.workId = some row' ∧
    row'.evidenceState = .verified ∧ (row.SameMerge row' ∨ row'.Records rt a)

/-- The item has the call's own result. -/
def RecordMergeResult.Stored (rt : Runtime) (a : RecordMergeResult) (s : WorkDb) : Prop :=
  ∃ row, s.runs.find? a.workId = some row ∧ row.evidenceState = .verified ∧ row.Records rt a

theorem RecordMergeResult.Seen.stable (h : a.Seen rt row s)
    (others : (WorkOp.recordMergeResult c a).rely rt s t) : a.Seen rt row t := by
  intro verified
  obtain ⟨row', found, verified', change⟩ := h verified
  obtain ⟨row'', found'', verified'', change'⟩ := others row' found verified'
  refine ⟨row'', found'', verified'', ?_⟩
  rcases change' with same' | recorded'
  · rcases change with same | recorded
    · exact .inl (same.trans same')
    · exact .inr (recorded.same same')
  · exact .inr recorded'

theorem RecordMergeResult.Stored.stable (h : a.Stored rt s)
    (others : (WorkOp.recordMergeResult c a).rely rt s t) : a.Stored rt t := by
  obtain ⟨row, found, verified, recorded⟩ := h
  obtain ⟨row', found', verified', change⟩ := others row found verified
  refine ⟨row', found', verified', ?_⟩
  rcases change with same | recorded'
  · exact recorded.same same
  · exact recorded'

/-- A row that already holds the call's own result is what the call returns. -/
theorem shown_secures (recorded : row.Records rt a) (stored : a.Stored rt s) :
    (WorkOp.recordMergeResult c a).Secures rt ((WorkOp.recordMergeResult c a).returns rt)
      (WorkProgram.view row) s := by
  refine view_secures (fun _ _ => trivial) fun v shown t others => ?_
  rw [WorkOp.returns, shown]
  exact ⟨recorded, stored.stable others⟩

theorem readback_secures (stored : a.Stored rt s) :
    (WorkOp.recordMergeResult c a).Secures rt ((WorkOp.recordMergeResult c a).returns rt)
      (getWork a.workId) s := by
  refine .bind (row_secures (fun _ _ => trivial) fun t row found before u after => ?_)
  have there := stored.stable before
  obtain ⟨row', found', -, recorded⟩ := id there
  cases found.symm.trans found'
  exact shown_secures recorded (there.stable after)

theorem RecordMergeResult.nextState_records {state : MergeState} (h : a.nextState rt = .ok state)
    (stamp correlationId : String) (mergedAt : Option String) (row : WorkRun) :
    (row.withMerge state (a.commit rt) (a.normalizedReason rt) correlationId stamp mergedAt).Records
      rt a := by
  unfold RecordMergeResult.nextState at h
  unfold WorkRun.Records WorkRun.withMerge
  split at h
  · split at h
    · cases h
      simp [*]
    · cases h
  · split at h
    · cases h
    · split at h
      · cases h
      · cases h
        simp [*]

/-- The `UPDATE` of a call whose item nobody else has changed since the call read it. -/
theorem setMerge_secures {state : MergeState} (next : a.nextState rt = .ok state)
    (seen : a.Seen rt row s) (verified : row.evidenceState = .verified)
    (open_ : row.mergeState ≠ .merged) (correlationId stamp : String) (mergedAt : Option String)
    {post : Except PoolError Unit → WorkDb → Prop}
    (h : ∀ r t, a.Stored rt t → post r t) :
    (WorkOp.recordMergeResult c a).Secures rt post (WorkProgram.setMerge a.workId state
      (a.commit rt) (a.normalizedReason rt) correlationId stamp mergedAt) s := by
  refine .request fun t others => ?_
  obtain ⟨row', found, verified', change⟩ := (seen.stable others) verified
  let new := row'.withMerge state (a.commit rt) (a.normalizedReason rt) correlationId stamp mergedAt
  have recorded : new.Records rt a := a.nextState_records next stamp correlationId mergedAt row'
  have written := find?_updateRow a.workId a.workId (WorkRun.withMerge state (a.commit rt)
    (a.normalizedReason rt) correlationId stamp mergedAt) (fun _ => rfl) t
  rw [if_pos rfl, found] at written
  have final : row'.Final new := by
    intro merged
    rcases change with same | own
    · exact absurd (same.state.symm.trans merged) open_
    · unfold WorkRun.Records at own recorded
      by_cases yes : a.merged = true
      · simp only [yes, ↓reduceIte] at own recorded
        exact ⟨recorded.1, recorded.2.trans own.2.symm⟩
      · simp only [yes] at own
        cases merged.symm.trans own.1
  refine ⟨⟨fun workId row₀ found₀ verified₀ => ?_, fun before row₀ hr => ?_⟩, fun u next => ?_⟩
  · by_cases mine : workId = a.workId
    · subst mine
      cases found.symm.trans found₀
      exact ⟨new, written, verified', .inr ⟨final, c, a, rfl, rfl, recorded⟩⟩
    · refine ⟨row₀, ?_, verified₀, .inl (.refl row₀)⟩
      exact (find?_updateRow a.workId workId _ _ t).trans ((if_neg mine).trans found₀)
  · obtain ⟨old, hold, rfl⟩ := List.mem_map.mp hr
    split
    · rename_i mine
      have same := (Table.find?_of_mem hold).symm.trans (mine ▸ found)
      rw [Option.some.inj same]
      exact fun _ => verified'
    · exact before old hold
  · have there : a.Stored rt ((WorkRequest.setMerge a.workId state (a.commit rt)
        (a.normalizedReason rt) correlationId stamp mergedAt).run rt t).2 :=
      ⟨new, written, verified', recorded⟩
    exact h _ u (there.stable next)

theorem recordMergeResult_secures (c : Call) (a : RecordMergeResult) (s : WorkDb) :
    (WorkOp.recordMergeResult c a).Secures rt ((WorkOp.recordMergeResult c a).returns rt)
      (recordMergeResult rt c a) s := by
  refine .bind (.need (fun _ s₁ _ => ?_) fun _ _ _ => trivial)
  refine .bind (row_secures (fun _ _ => trivial) fun t row found _ u after => ?_)
  have seen : a.Seen rt row u := by
    have read_now : a.Seen rt row t := fun verified => ⟨row, found, verified, .inl (.refl row)⟩
    exact read_now.stable after
  refine .bind (quiet_secures rfl fun t₁ others₁ u₁ after₁ => ?_)
  have seen₁ := (seen.stable others₁).stable after₁
  cases ((WorkRequest.task row.taskId).run rt t₁).1 with
  | error e => trivial
  | ok task =>
    refine .bind (.need (fun known s₂ others₂ => ?_) fun _ _ _ => trivial)
    refine .bind (.need (fun _ s₃ others₃ => ?_) fun _ _ _ => trivial)
    refine .bind (.ofExcept fun s₄ others₄ => ?_)
    have seen₄ := ((seen₁.stable others₂).stable others₃).stable others₄
    cases next : a.nextState rt with
    | error e => trivial
    | ok state =>
      obtain ⟨verified, -⟩ := known
      -- a replay shows the row that was read, which has the call's own result
      have replays : row.Records rt a → ∀ s₅, a.Seen rt row s₅ → a.Stored rt s₅ := by
        intro recorded s₅ seen₅
        obtain ⟨row', found', verified', change⟩ := seen₅ verified
        refine ⟨row', found', verified', ?_⟩
        rcases change with same | own
        · exact recorded.same same
        · exact own
      by_cases merged : row.mergeState = .merged
      · simp only [merged, ↓reduceIte]
        refine .bind (.need (fun own s₅ others₅ => ?_) fun _ _ _ => trivial)
        have recorded : row.Records rt a := by simp [WorkRun.Records, merged, own.1, own.2]
        exact shown_secures recorded (replays recorded s₅ (seen₄.stable others₅))
      · simp only [merged, ↓reduceIte]
        by_cases blocked : row.mergeState = .blocked ∧ ¬ a.merged = true
        · rw [if_pos blocked]
          refine .bind (.need (fun own s₅ others₅ => ?_) fun _ _ _ => trivial)
          have recorded : row.Records rt a := by
            simp [WorkRun.Records, blocked.1, blocked.2, own]
          exact shown_secures recorded (replays recorded s₅ (seen₄.stable others₅))
        · rw [if_neg blocked]
          refine .bind (setMerge_secures next seen₄ verified merged _ _ _ fun r s₅ stored => ?_)
          cases r with
          | ok u => exact readback_secures stored
          | error e => trivial

end Merge

end Calls

/-! ### Runs -/

section Runs

variable {rt : Runtime} {w w' : WorkWorld}

/-- While a `record_merge_result` is between its read of the row and its return, no other
call updates the item with another result. -/
def Undisturbed (rt : Runtime) (w : WorkWorld) (l : WorkLabel) (_ : WorkWorld) : Prop :=
  ∀ place mine q k c a, l = .run place → w.threads[place]? = some mine →
    mine.op = .recordMergeResult c a → mine.rest = .ask q k → q.quiet = false →
    ∀ other th c' b, other ≠ place → w.threads[other]? = some th → th.asked ≠ [] →
      th.op = .recordMergeResult c' b → b.workId = a.workId → a.SameResult rt b

theorem body_secures (rt : Runtime) : Threads.Bodies (WorkRequest.run rt) (WorkOp.body rt)
    (WorkOp.rely rt) (WorkOp.Guarantees rt) (WorkOp.returns rt) := by
  intro op s
  have quiet : ∀ q : WorkRequest, q.quiet = true → ∀ t, op.Guarantees rt t (q.run rt t).2 :=
    fun q h t => (WorkRequest.run_quiet h t).guarantees op
  cases op with
  | createWork c a => exact ((createWork_quietly c a).secures quiet).mono fun r t _ => trivial
  | getWork workId => exact ((getWork_quietly workId).secures quiet).mono fun r t _ => trivial
  | recordEvidence c a =>
    exact ((recordEvidence_quietly c a).secures quiet).mono fun r t _ => trivial
  | recordMergeResult c a => exact recordMergeResult_secures c a s

/-- What the condition is for: every call under way sees what it relies on. -/
theorem undisturbed_respected (rt : Runtime) : Threads.Respected (WorkRequest.run rt)
    (WorkOp.rely rt) (WorkOp.Guarantees rt) (Undisturbed rt)
    fun s l t => (pool rt).step s.pool l t.pool ∧ t.runs = s.runs where
  others := by
    intro w place w' mine q k allowed found next change other th differs here begun
    cases begins : q.quiet with
    | true => exact (WorkRequest.run_quiet begins _).rely th.op
    | false =>
      cases hop : th.op with
      | createWork | getWork | recordEvidence => trivial
      | recordMergeResult c' b =>
        intro row stored verified
        obtain ⟨row', stored', verified', kept⟩ := change.keeps b.workId row stored verified
        refine ⟨row', stored', verified', kept.imp_right ?_⟩
        rintro ⟨-, c, a, hmine, item, recorded⟩
        have same := allowed place mine q k c a rfl found hmine next begins other th c' b differs here
          begun hop item.symm
        exact same.records recorded
  surroundings := by
    rintro w l t - ⟨-, runs⟩ op
    exact (WorkDb.Quiet.of_runs runs).rely op

/-- One step keeps each verified row, and changes a final result never. -/
theorem step_final (h : ((workSystem rt).restrict (Undisturbed rt)).Reachable w) {l : WorkLabel}
    (step : ((workSystem rt).restrict (Undisturbed rt)).step w l w') :
    (w.shared.Evidenced → w'.shared.Evidenced) ∧
      ∀ workId, w.shared.Keeps workId WorkRun.Final w'.shared := by
  have unchanged : w'.shared.runs = w.shared.runs →
      (w.shared.Evidenced → w'.shared.Evidenced) ∧
        ∀ workId, w.shared.Keeps workId WorkRun.Final w'.shared := fun same =>
    ⟨(WorkDb.Quiet.of_runs same).evidenced, fun workId => (WorkDb.Quiet.of_runs same).keeps workId _⟩
  rcases Threads.changes (body_secures rt) (undisturbed_respected rt) h step with
    same | ⟨op, change⟩ | ⟨l, -, same⟩
  · exact unchanged (congrArg WorkDb.runs same)
  · refine ⟨change.evidenced, fun workId row found verified => ?_⟩
    obtain ⟨row', found', verified', kept⟩ := change.keeps workId row found verified
    exact ⟨row', found', verified', kept.imp_right And.left⟩
  · exact unchanged same

theorem reachable_evidenced (h : ((workSystem rt).restrict (Undisturbed rt)).Reachable w) :
    w.shared.Evidenced := by
  refine h.strengthen (P := fun w => w.shared.Evidenced) (fun _ h => h) ?_ ?_
  · rintro w ⟨start, -⟩ row hr
    rw [start] at hr
    cases hr
  · exact fun w l w' h before step => (step_final h step).1 before

/-- A merged row stays merged with its commit for the rest of the run. -/
theorem steps_final (h : ((workSystem rt).restrict (Undisturbed rt)).Reachable w)
    (steps : ((workSystem rt).restrict (Undisturbed rt)).Steps w w') {workId : String}
    {row : WorkRun} (found : w.shared.runs.find? workId = some row)
    (merged : row.mergeState = .merged) :
    ∃ row', w'.shared.runs.find? workId = some row' ∧ row'.mergeState = .merged ∧
      row'.mergeCommitSha = row.mergeCommitSha := by
  have both : ((workSystem rt).restrict (Undisturbed rt)).Reachable w' ∧
      ∃ row', w'.shared.runs.find? workId = some row' ∧ row'.mergeState = .merged ∧
        row'.mergeCommitSha = row.mergeCommitSha := by
    refine steps.preserves (P := fun w' => ((workSystem rt).restrict (Undisturbed rt)).Reachable w' ∧
      ∃ row', w'.shared.runs.find? workId = some row' ∧ row'.mergeState = .merged ∧
        row'.mergeCommitSha = row.mergeCommitSha) ?_ ⟨h, row, found, merged, rfl⟩
    rintro u l v ⟨reach, row', found', merged', commit⟩ step
    refine ⟨reach.step step, ?_⟩
    have verified := reachable_evidenced reach row' (Table.mem_of_find? found')
      (by rw [merged']; nofun)
    obtain ⟨row'', found'', -, change⟩ := (step_final reach step).2 workId row' found' verified
    refine ⟨row'', found'', ?_⟩
    rcases change with same | final
    · exact ⟨same.state.trans merged', same.commit.trans commit⟩
    · exact ⟨(final merged').1, (final merged').2.trans commit⟩
  exact both.2

theorem recordMergeResult_asks (c : Call) (a : RecordMergeResult) (v : WorkView) :
    recordMergeResult rt c a ≠ .done v := by
  intro h
  by_cases shape : isSha40 (rt.lower (PyText.strip a.expectedHeadSha)) = true
  · simp only [recordMergeResult, Program.need, shape, ↓reduceIte] at h
    have asks : (Program.ask (WorkRequest.row a.workId) _ : WorkProgram WorkView) = _ := h
    cases asks
  · simp only [recordMergeResult, Program.need, shape] at h
    have raises : (Program.raise _ : WorkProgram WorkView) = _ := h
    cases raises

/-- In every run in which no call is disturbed, a merged item stays merged with its commit,
and a call that has returned finds the result that it submitted. -/
theorem merged_is_final (h : ((workSystem rt).restrict (Undisturbed rt)).Reachable w) :
    (∀ w', ((workSystem rt).restrict (Undisturbed rt)).Steps w w' → ∀ workId row,
      w.shared.runs.find? workId = some row → row.mergeState = .merged →
      ∃ row', w'.shared.runs.find? workId = some row' ∧ row'.mergeState = .merged ∧
        row'.mergeCommitSha = row.mergeCommitSha) ∧
    ∀ th ∈ w.threads, ∀ c a v, th.op = .recordMergeResult c a → th.rest = .done v →
      v.row.Records rt a ∧ ∃ row, w.shared.runs.find? a.workId = some row ∧ row.Records rt a := by
  refine ⟨fun w' steps workId row found merged => steps_final h steps found merged, ?_⟩
  intro th hth c a v hop returned
  have secured := Threads.secured (body_secures rt) (undisturbed_respected rt) h th hth
  have begun : th.asked ≠ [] := by
    intro fresh
    have start := secured.fresh fresh
    rw [returned, hop] at start
    exact recordMergeResult_asks c a v start.symm
  have outcome := secured.begun begun
  rw [returned, hop] at outcome
  obtain ⟨shown, row, found, -, recorded⟩ := outcome w.shared (Std.Refl.refl _)
  exact ⟨shown, row, found, recorded⟩

/-! ### Two results at once -/

/-- What the pool does while no call on a work item is under way. -/
theorem steps_pool {good : WorkWorld → WorkLabel → WorkWorld → Prop} {s t : Pool}
    (allowed : ∀ u e u', good u (.around e) u') (steps : (pool rt).Steps s t)
    (runs : Table String WorkRun WorkRun.workId) :
    ((workSystem rt).restrict good).Steps ⟨⟨s, runs⟩, []⟩ ⟨⟨t, runs⟩, []⟩ := by
  induction steps with
  | refl => exact .refl _
  | @tail t u l _ step ih =>
    have around : (workSystem rt).step ⟨⟨t, runs⟩, []⟩ (.around l) ⟨⟨u, runs⟩, []⟩ :=
      .around ⟨step, rfl⟩
    exact ih.tail ⟨around, allowed _ _ _⟩

end Runs

namespace Sample

def workId : String := "work-76203142d57e5cac067163ea"

/-- The work item of the task that `enqueue` admits. -/
def create : WorkOp :=
  .createWork (.at start) ⟨⟨"o/r", 1, "r1", "corr", 100, none, none, none, true⟩, "governed"⟩

def evidence (validationRunId : String) : WorkOp :=
  .recordEvidence (.at start) ⟨workId, validationRunId, String.ofList (List.replicate 40 'a'), "ref",
    true, true, true, "corr"⟩

def mergeCommit : String := String.ofList (List.replicate 40 'b')

def merge : WorkOp :=
  .recordMergeResult (.at start) ⟨workId, String.ofList (List.replicate 40 'a'), true, "corr",
    some mergeCommit, none⟩

/-- The merge was not made. -/
def refuse : WorkOp :=
  .recordMergeResult (.at start) ⟨workId, String.ofList (List.replicate 40 'a'), false, "corr",
    none, some "checks failed"⟩

def alone (requests : Nat) (s : WorkDb) (op : WorkOp) : WorkDb :=
  Threads.alone (WorkRequest.run .ascii) (WorkOp.body .ascii) requests s op

/-- A work item whose task is completed. -/
def validated : WorkDb := alone 4 ⟨Pool.empty.run .ascii completed, .empty⟩ create

/-- The same item with its evidence. -/
def evidenced : WorkDb := alone 5 validated (evidence "run")

def merged : WorkDb := alone 5 evidenced merge

/-- The merge was recorded, and a later call says that it was not made. -/
def refused : WorkDb := alone 5 merged refuse

/-- A call that refuses the merge has read the row before a call records the merge. -/
def mergedBetween : WorkWorld :=
  (Threads.World.begin (WorkOp.body .ascii) evidenced [refuse, merge]).runs
    (WorkRequest.run .ascii) [0, 0, 1, 1, 1]

variable {good : WorkWorld → WorkLabel → WorkWorld → Prop}

/-- What a condition must allow for calls that are made one after the other. -/
structure AllowsAlone (good : WorkWorld → WorkLabel → WorkWorld → Prop) : Prop where
  around : ∀ u e u', good u (.around e) u'
  call : ∀ u op u', good u (.call op) u'
  leave : ∀ u place u', good u (.leave place) u'
  run : ∀ u place u', u.threads.length = 1 → good u (.run place) u'

theorem steps_alone (allows : AllowsAlone good) (requests : Nat) (s : WorkDb) (op : WorkOp) :
    ((workSystem .ascii).restrict good).Steps ⟨s, []⟩ ⟨alone requests s op, []⟩ :=
  Threads.steps_alone _ _ _ _ allows.call allows.leave allows.run

theorem validated_reachable (allows : AllowsAlone good) :
    ((workSystem .ascii).restrict good).Reachable ⟨validated, []⟩ := by
  have start : ((workSystem .ascii).restrict good).Reachable ⟨⟨.empty, .empty⟩, []⟩ :=
    .init ⟨rfl, rfl⟩
  have called : (pool .ascii).Steps .empty (Pool.empty.run .ascii completed) :=
    Pool.steps_run (by decide)
  have pooled := steps_pool allows.around called .empty
  exact (start.steps pooled).steps (steps_alone allows 4 _ _)

theorem evidenced_reachable (allows : AllowsAlone good) :
    ((workSystem .ascii).restrict good).Reachable ⟨evidenced, []⟩ :=
  (validated_reachable allows).steps (steps_alone allows 5 _ _)

theorem undisturbed_alone : AllowsAlone (Undisturbed .ascii) where
  around u e u' := by
    intro place mine q k c a made
    cases made
  call u op u' := by
    intro place mine q k c a made
    cases made
  leave u place u' := by
    intro place mine q k c a made
    cases made
  run u place u' single := by
    intro place mine q k c a _ found _ _ _ other th c' b differs here
    have first := (List.getElem?_eq_some_iff.mp found).1
    have second := (List.getElem?_eq_some_iff.mp here).1
    omega

/-- Nothing is asked of the steps. -/
def anything : WorkWorld → WorkLabel → WorkWorld → Prop := fun _ _ _ => True

theorem anything_alone : AllowsAlone anything :=
  ⟨fun _ _ _ => trivial, fun _ _ _ => trivial, fun _ _ _ => trivial, fun _ _ _ _ => trivial⟩

end Sample

/-- The merge of the sample item stays recorded when a later call says that it was not made. -/
theorem merge_recorded : ∃ row, Sample.refused.runs.find? Sample.workId = some row ∧
    row.mergeState = .merged ∧ row.mergeCommitSha = some Sample.mergeCommit := by
  have reach := (Sample.evidenced_reachable Sample.undisturbed_alone).steps
    (Sample.steps_alone Sample.undisturbed_alone 5 _ Sample.merge)
  have later := Sample.steps_alone Sample.undisturbed_alone 5 Sample.merged Sample.refuse
  have stored : (Sample.merged.runs.find? Sample.workId).map (fun row =>
      (row.mergeState, row.mergeCommitSha)) = some (.merged, some Sample.mergeCommit) := by
    decide +kernel
  obtain ⟨row, found, result⟩ := Option.map_eq_some_iff.mp stored
  obtain ⟨row', found', merged, commit⟩ := (merged_is_final reach).1 _ later Sample.workId row found
    (congrArg Prod.fst result)
  exact ⟨row', found', merged, commit.trans (congrArg Prod.snd result)⟩

/-- The call that has read the row before the merge was recorded takes the merge back. -/
theorem merge_overwritten : ∃ w w' row row', (workSystem .ascii).Reachable w ∧
    (workSystem .ascii).Steps w w' ∧ w.shared.runs.find? Sample.workId = some row ∧
    row.mergeState = .merged ∧ row.mergeCommitSha = some Sample.mergeCommit ∧
    w'.shared.runs.find? Sample.workId = some row' ∧
    row'.mergeState = .blocked ∧ row'.mergeCommitSha = none := by
  have reach : (workSystem .ascii).Reachable Sample.mergedBetween :=
    (Sample.evidenced_reachable Sample.anything_alone).of_restrict.steps
      (Threads.steps_together _ _ _ _ Sample.evidenced [Sample.refuse, Sample.merge] [0, 0, 1, 1, 1])
  obtain ⟨before, after⟩ : (Sample.mergedBetween.shared.runs.find? Sample.workId).map (fun row =>
        (row.mergeState, row.mergeCommitSha)) = some (.merged, some Sample.mergeCommit) ∧
      ((Sample.mergedBetween.runs (WorkRequest.run .ascii) [0]).shared.runs.find?
        Sample.workId).map (fun row => (row.mergeState, row.mergeCommitSha)) =
          some (.blocked, none) := by
    decide +kernel
  obtain ⟨row, found, result⟩ := Option.map_eq_some_iff.mp before
  obtain ⟨row', found', result'⟩ := Option.map_eq_some_iff.mp after
  exact ⟨Sample.mergedBetween, _, row, row', reach, Threads.steps_on _ _ _ _ Sample.mergedBetween [0],
    found, congrArg Prod.fst result, congrArg Prod.snd result, found', congrArg Prod.fst result',
    congrArg Prod.snd result'⟩

end WorkerPool
