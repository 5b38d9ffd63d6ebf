import WorkerPool.Aside
import WorkerPool.Redaction

/-!
# Stored texts are redacted

The free texts that the pool stores are those of its callers, redacted, and its own. Redacting one of them again
changes nothing, whatever the calls were.
-/

namespace WorkerPool

open PyText Transaction Transaction.Tx

variable {rt : Runtime}

/-! ### Texts that need no redaction -/

def IsRedacted (rt : Runtime) (text : String) : Prop := sanitize rt text = text

theorem isRedacted_sanitize (rt : Runtime) (text : String) : IsRedacted rt (sanitize rt text) := by
  rw [IsRedacted, sanitize, sanitize, String.toList_ofList, sanitizeChars_again]

/-- The reasons of the code's own. -/
def ownReasons : List String :=
  [effectReconciliationRequired, "lease_expired_max_attempts", "lease_expired_recovered",
    "material_progress_timeout_max_attempts", "material_progress_timeout_rerouted",
    "material_progress_timeout_no_alternative", "validation_handoff", "completed", "failed_attempt", "blocked",
    "worker_failure"]

theorem isRedacted_own {reason : String} (own : reason ∈ ownReasons) : IsRedacted rt reason := by
  have plain : (ownReasons.all fun reason => reason.toList.all (fun c => !isSpace c && c != ':' && c != '=') &&
      decide (reason.toList.length ≤ 1000)) = true := by decide +kernel
  have each := List.all_eq_true.mp plain reason own
  rw [Bool.and_eq_true, List.all_eq_true, decide_eq_true_eq] at each
  refine sanitize_name (fun c inside => ?_) (fun c inside => ?_) each.2
  · have kept := each.1 c inside
    simp only [Bool.and_eq_true, Bool.not_eq_true'] at kept
    exact kept.1.1
  · have kept := each.1 c inside
    simp only [Bool.and_eq_true, bne_iff_ne] at kept
    exact ⟨kept.1.2, kept.2⟩

theorem isRedacted_failureReason (reason : String) : IsRedacted rt (failureReason rt reason) := by
  unfold failureReason orNone
  split
  · exact isRedacted_own (by decide)
  · exact isRedacted_sanitize rt _

theorem isRedacted_sanitizeOptional {value : Option String} {text : String}
    (h : sanitizeOptional rt value = some text) : IsRedacted rt text := by
  obtain ⟨s, -, rfl⟩ := Option.map_eq_some_iff.mp h
  exact isRedacted_sanitize rt _

/-! ### What is stored -/

def Task.texts (t : Task) : List String := t.blockedReason.toList ++ t.lastError.toList

def Attempt.texts (a : Attempt) : List String := a.endReason.toList

def Quarantine.texts (q : Quarantine) : List String := [q.reason]

def Checkpoint.texts (c : Checkpoint) : List String :=
  c.artifactRef.toList ++ [c.nextAction] ++ c.effectResultRef.toList

def Reconciliation.texts (r : Reconciliation) : List String := [r.readbackRef]

/-- Every free text that is stored has been redacted. -/
structure Db.Redacted (rt : Runtime) (db : Db) : Prop where
  tasks : ∀ t ∈ db.tasks.rows, ∀ s ∈ t.texts, IsRedacted rt s
  attempts : ∀ a ∈ db.attempts.rows, ∀ s ∈ a.texts, IsRedacted rt s
  quarantine : ∀ q ∈ db.quarantine, ∀ s ∈ q.texts, IsRedacted rt s
  checkpoints : ∀ c ∈ db.checkpoints.rows, ∀ s ∈ c.texts, IsRedacted rt s
  reconciliations : ∀ r ∈ db.reconciliations.rows, ∀ s ∈ r.texts, IsRedacted rt s

theorem Db.Redacted.empty : Db.empty.Redacted rt where
  tasks := by simp [Db.empty, Table.empty]
  attempts := by simp [Db.empty, Table.empty]
  quarantine := by simp [Db.empty]
  checkpoints := by simp [Db.empty, Table.empty]
  reconciliations := by simp [Db.empty, Table.empty]

/-- A body that stores redacted texts only. -/
def StaysRedacted (rt : Runtime) (db db' : Db) : Prop := db.Redacted rt → db'.Redacted rt

instance : Std.Refl (StaysRedacted rt) := ⟨fun _ h => h⟩

instance : IsTrans Db (StaysRedacted rt) := ⟨fun _ _ _ first later h => later (first h)⟩

section Statements

variable {c : Call}

theorem updateTask_redacted {taskId : String} {f : Task → Task} {keeps}
    (texts : ∀ t, (∀ s ∈ t.texts, IsRedacted rt s) → ∀ s ∈ (f t).texts, IsRedacted rt s) :
    (updateTask taskId f keeps).Within (StaysRedacted rt) := by
  refine (Within.read _).bind fun _ => (Within.require _ _).bind fun _ => ?_
  refine (Within.require _ _).bind fun _ => (Within.require _ _).bind fun _ => ?_
  refine .write fun db h => { h with tasks := fun t mem => ?_ }
  simp only [Db.modifyTask, Table.rows_modify, List.mem_map] at mem
  obtain ⟨old, stored, rfl⟩ := mem
  split
  · exact texts old (h.tasks old stored)
  · exact h.tasks old stored

theorem modifyAttempt_redacted {attemptId : String} {f : Attempt → Attempt} {keeps}
    (texts : ∀ a, (∀ s ∈ a.texts, IsRedacted rt s) → ∀ s ∈ (f a).texts, IsRedacted rt s) :
    (write fun db => db.modifyAttempt attemptId f keeps : Body Unit).Within (StaysRedacted rt) := by
  refine .write fun db h => { h with attempts := fun a mem => ?_ }
  simp only [Db.modifyAttempt, Table.rows_modify, List.mem_map] at mem
  obtain ⟨old, stored, rfl⟩ := mem
  split
  · exact texts old (h.attempts old stored)
  · exact h.attempts old stored

theorem endAttempt_redacted (row : Task) (stamp : String) {reason : String} (redacted : IsRedacted rt reason) :
    (endAttempt row stamp reason).Within (StaysRedacted rt) := by
  refine .ite (modifyAttempt_redacted fun a texts s mem => ?_) (.pure _)
  cases ended : a.endReason with
  | none =>
    simp only [Attempt.texts, ended, Option.none_or, Option.toList_some, List.mem_singleton] at mem
    exact mem ▸ redacted
  | some old =>
    simp only [Attempt.texts, ended, Option.some_or, Option.toList_some, List.mem_singleton] at mem
    exact texts s (by simp [Attempt.texts, ended, mem])

theorem quarantineRow_redacted (row : Task) (reason stamp : String) :
    (quarantineRow rt row reason stamp).Within (StaysRedacted rt) := by
  refine .write fun db h => { h with quarantine := fun q mem => ?_ }
  rcases List.mem_append.mp mem with old | new
  · exact h.quarantine q old
  · rw [List.mem_singleton.mp new]
    intro s here
    rw [List.mem_singleton.mp here]
    exact isRedacted_sanitize rt reason

theorem insertTask_redacted {t : Task} (texts : ∀ s ∈ t.texts, IsRedacted rt s) :
    (insertTask t).Within (StaysRedacted rt) := by
  refine .of_atomic fun db => Atomic.read.after_check ?_
  rintro _ rfl
  refine Atomic.require.after_check fun _ _ => Atomic.require.after_check fun _ _ => ?_
  refine Atomic.unwrap.after_check fun tasks inserted => .write fun h => { h with tasks := fun t' mem => ?_ }
  rw [(Table.insert?_eq_some_iff.mp inserted).2, List.mem_append, List.mem_singleton] at mem
  rcases mem with old | rfl
  · exact h.tasks t' old
  · exact texts

theorem insertAttempt_redacted {a : Attempt} (texts : ∀ s ∈ a.texts, IsRedacted rt s) :
    (insertAttempt a).Within (StaysRedacted rt) := by
  refine .of_atomic fun db => Atomic.read.after_check ?_
  rintro _ rfl
  refine Atomic.require.after_check fun _ _ => ?_
  refine Atomic.unwrap.after_check fun attempts inserted => .write fun h => { h with attempts := fun a' mem => ?_ }
  rw [(Table.insert?_eq_some_iff.mp inserted).2, List.mem_append, List.mem_singleton] at mem
  rcases mem with old | rfl
  · exact h.attempts a' old
  · exact texts

theorem insertCheckpoint_redacted {row : Checkpoint} (texts : ∀ s ∈ row.texts, IsRedacted rt s) :
    (insertCheckpoint row).Within (StaysRedacted rt) := by
  refine .of_atomic fun db => Atomic.read.after_check ?_
  rintro _ rfl
  refine Atomic.require.after_check fun _ _ => Atomic.require.after_check fun _ _ => ?_
  refine Atomic.require.after_check fun _ _ => ?_
  refine Atomic.unwrap.after_check fun checkpoints inserted => .write fun h => { h with checkpoints := fun c mem => ?_ }
  rw [(Table.insert?_eq_some_iff.mp inserted).2, List.mem_append, List.mem_singleton] at mem
  rcases mem with old | rfl
  · exact h.checkpoints c old
  · exact texts

theorem insertReconciliation_redacted {r : Reconciliation} (texts : ∀ s ∈ r.texts, IsRedacted rt s) :
    (insertReconciliation r).Within (StaysRedacted rt) := by
  refine .of_atomic fun db => Atomic.read.after_check ?_
  rintro _ rfl
  refine Atomic.require.after_check fun _ _ => ?_
  refine Atomic.unwrap.after_check fun reconciliations inserted =>
    .write fun h => { h with reconciliations := fun r' mem => ?_ }
  rw [(Table.insert?_eq_some_iff.mp inserted).2, List.mem_append, List.mem_singleton] at mem
  rcases mem with old | rfl
  · exact h.reconciliations r' old
  · exact texts

end Statements

/-! ### Recovery -/

section Recovery

variable {c : Call}

/-- A verdict whose texts are the code's own. -/
def Verdict.Own (v : Verdict) : Prop := (∀ s ∈ v.blockedReason, s ∈ ownReasons) ∧ v.lastError ∈ ownReasons

theorem unresolved_own : Verdict.unresolved.Own := ⟨by simp [Verdict.unresolved, ownReasons], by decide⟩

theorem settle_redacted (row : Task) (stamp : String) {v : Verdict} (own : v.Own) :
    (settle row stamp v).Within (StaysRedacted rt) := by
  refine (endAttempt_redacted row stamp (isRedacted_own own.2)).bind fun _ => updateTask_redacted fun t _ s mem => ?_
  simp only [Task.texts, Option.toList_some, List.mem_append, Option.mem_toList, List.mem_singleton] at mem
  rcases mem with mem | rfl
  · exact isRedacted_own (own.1 s mem)
  · exact isRedacted_own own.2

theorem recoverRow_redacted (stamp : String) (row : Task) : (recoverRow rt stamp row).Within (StaysRedacted rt) := by
  have settled : ∀ v : Verdict, v.Own → (do let v ← pure v; settle row stamp v : Body Unit).Within (StaysRedacted rt) :=
    fun v own => settle_redacted (v := v) row stamp own
  refine (Within.read _).bind fun _ => .ite (settled _ unresolved_own) (.ite ?_ (settled _ ⟨by simp, by simp [ownReasons]⟩))
  exact (quarantineRow_redacted row _ stamp).bind fun _ => settled _ ⟨by simp, by simp [ownReasons]⟩

theorem recoverStalledRow_redacted (stamp : String) (workers : List Worker) (result : Stalled) (row : Task) :
    (recoverStalledRow rt c stamp workers result row).Within (StaysRedacted rt) := by
  have settled : ∀ r : Verdict × Stalled, r.1.Own →
      (do let r ← pure r; settle row stamp r.1; pure r.2 : Body Stalled).Within (StaysRedacted rt) :=
    fun r own => (settle_redacted (v := r.1) row stamp own).bind fun _ => .pure _
  refine (Within.read _).bind fun _ => .ite (settled _ unresolved_own) (.ite ?_ ?_)
  · exact (quarantineRow_redacted row _ stamp).bind fun _ => settled _ ⟨by simp, by simp [ownReasons]⟩
  · refine Within.bind ?_ fun _ => .ite (settled _ ⟨?_, ?_⟩) (settled _ ⟨?_, ?_⟩)
    · exact .of_reads (.forEach fun _ w => .ite (.pure _) (workerIsAlternative_reads c row w))
    all_goals simp [ownReasons]

theorem recover_redacted : (recover rt c).Within (StaysRedacted rt) := by
  refine (Within.read _).bind fun _ => Within.bind ?_ fun _ => .pure _
  exact .forEach fun _ row => recoverRow_redacted _ row

theorem recoverStalled_redacted : (recoverStalled rt c).Within (StaysRedacted rt) := by
  refine (Within.unwrap _ _).bind fun _ => (Within.read _).bind fun _ => ?_
  exact (Within.read _).bind fun _ => .forEach fun _ row => recoverStalledRow_redacted _ _ _ row

end Recovery

/-! ### Calls -/

section Calls

variable {c : Call}

/-- A statement that leaves the texts of a task. -/
theorem updateTask_texts {taskId : String} {f : Task → Task} {keeps} (same : ∀ t : Task, (f t).texts = t.texts) :
    (updateTask taskId f keeps).Within (StaysRedacted rt) :=
  updateTask_redacted fun t texts => (same t).symm ▸ texts

theorem renewLease_redacted (p : Credential) (correlationId : String) (seconds : Option Int) :
    (renewLease c p correlationId seconds).Within (StaysRedacted rt) := by
  refine Within.bind (.atomically ?_) fun _ => .of_reads (getTask_reads _)
  refine Within.bind (.of_reads (lease_reads _ _)) fun _ => (Within.unwrap _ _).bind fun _ => ?_
  refine Within.bind (updateTask_texts fun _ => rfl) fun _ => .ite ?_ (.pure _)
  exact modifyAttempt_redacted fun _ texts => texts

theorem startTask_redacted (p : Credential) (correlationId : String) :
    (startTask c p correlationId).Within (StaysRedacted rt) := by
  refine Within.bind (.atomically ?_) fun _ => .of_reads (getTask_reads _)
  refine Within.bind (.of_reads (lease_reads _ _)) fun _ => ?_
  refine ((Within.read _).bind fun _ => .unwrap _ _).bind fun _ => ?_
  exact (Within.require _ _).bind fun _ => updateTask_texts fun _ => rfl

theorem submitForValidation_redacted (p : Credential) (producedSha correlationId : String) :
    (submitForValidation rt c p producedSha correlationId).Within (StaysRedacted rt) := by
  refine (Within.require _ _).bind fun _ => ?_
  refine Within.bind (.atomically ?_) fun _ => .of_reads (getTask_reads _)
  refine Within.bind (.of_reads (lease_reads _ _)) fun row => (Within.require _ _).bind fun _ => ?_
  refine Within.bind (.of_reads (requireResolvedEffects_reads row)) fun _ => ?_
  exact (endAttempt_redacted row _ (isRedacted_own (by decide))).bind fun _ => updateTask_texts fun _ => rfl

theorem completeTask_redacted (p : Credential) (correlationId : String) :
    (completeTask c p correlationId).Within (StaysRedacted rt) := by
  refine Within.bind (.atomically ?_) fun _ => .of_reads (getTask_reads _)
  refine Within.bind (.of_reads (lease_reads _ _)) fun row => ?_
  refine ((Within.read _).bind fun _ => .unwrap _ _).bind fun _ => ?_
  refine (Within.require _ _).bind fun _ => (Within.require _ _).bind fun _ => ?_
  refine Within.bind (.of_reads (requireResolvedEffects_reads row)) fun _ => ?_
  exact (endAttempt_redacted row _ (isRedacted_own (by decide))).bind fun _ => updateTask_texts fun _ => rfl

theorem failTask_redacted (p : Credential) (correlationId reason : String) :
    (failTask rt c p correlationId reason).Within (StaysRedacted rt) := by
  refine Within.bind (.atomically ?_) fun _ => .of_reads (getTask_reads _)
  refine Within.bind (.of_reads (lease_reads _ _)) fun row => ?_
  refine Within.bind (.of_reads (requireResolvedEffects_reads row)) fun _ => ?_
  have ended : ∀ state, (do
      let state ← pure state
      endAttempt row (c.iso .stamp) "failed_attempt"
      updateTask p.taskId fun t => { t with
        state := state, leasedBy := none, leaseToken := none, leaseExpiresAt := none
        attemptId := none, lastError := some (failureReason rt reason)
        correlationId := correlationId, updatedAt := c.iso .stamp } : Body Unit).Within (StaysRedacted rt) := by
    refine fun _ => (Within.pure _).bind fun _ => ?_
    refine (endAttempt_redacted row _ (isRedacted_own (by decide))).bind fun _ => ?_
    refine updateTask_redacted fun t texts s mem => ?_
    rcases List.mem_append.mp mem with old | new
    · exact texts s (List.mem_append_left _ old)
    · rw [List.mem_singleton.mp new]
      exact isRedacted_failureReason reason
  exact .ite ((quarantineRow_redacted _ _ _).bind fun _ => ended _) (ended _)

theorem blockTask_redacted (p : Credential) (correlationId reason : String) :
    (blockTask rt c p correlationId reason).Within (StaysRedacted rt) := by
  refine (Within.require _ _).bind fun _ => ?_
  refine Within.bind (.atomically ?_) fun _ => .of_reads (getTask_reads _)
  refine Within.bind (.of_reads (lease_reads _ _)) fun row => (Within.read _).bind fun _ => ?_
  refine (endAttempt_redacted row _ (isRedacted_own (by decide))).bind fun _ => ?_
  refine updateTask_redacted fun t texts s mem => ?_
  rcases List.mem_append.mp mem with new | old
  · rw [List.mem_singleton.mp new]
    split
    · exact isRedacted_own (by decide)
    · exact isRedacted_sanitize rt _
  · exact texts s (List.mem_append_right _ old)

/-- The texts of a checkpoint's content are redacted. -/
theorem checkpointContent_redacted {a : RecordCheckpoint} {content : CheckpointContent} {correlationId : String}
    (h : checkpointContent rt a = .ok (content, correlationId)) (digest correlation stamp : String) :
    ∀ s ∈ (checkpointRow a content digest correlation stamp).texts, IsRedacted rt s := by
  unfold checkpointContent at h
  simp only [bind, Except.bind, pure, Except.pure, throw, throwThe, MonadExceptOf.throw] at h
  cases known : EffectState.ofText a.effectState with
  | none => simp [known, refuse_eq_ok] at h
  | some state =>
    simp only [known, refuse_eq_ok] at h
    obtain ⟨-, -, -, -, -, -, -, -, -, -, h⟩ := h
    cases h
    intro s mem
    simp only [Checkpoint.texts, checkpointRow, List.mem_append, Option.mem_toList, List.mem_singleton] at mem
    rcases mem with (mem | rfl) | mem
    · exact isRedacted_sanitizeOptional mem
    · exact isRedacted_sanitize rt _
    · exact isRedacted_sanitizeOptional mem

theorem recordCheckpoint_redacted (a : RecordCheckpoint) : (recordCheckpoint rt c a).Within (StaysRedacted rt) := by
  unfold recordCheckpoint
  cases checked : checkpointContent rt a with
  | error e => exact fun _ h => h
  | ok content =>
    have texts := checkpointContent_redacted checked
    refine Within.atomically (R := StaysRedacted rt) ?_
    refine Within.bind (.of_reads (lease_reads _ _)) fun _ => (Within.require _ _).bind fun _ => ?_
    refine (Within.read _).bind fun existing => ?_
    cases existing with
    | some stored => exact (Within.require _ _).bind fun _ => .pure _
    | none =>
      refine (Within.read _).bind fun _ => (Within.require _ _).bind fun _ => ?_
      refine (Within.read _).bind fun _ => (Within.require _ _).bind fun _ => ?_
      refine (insertCheckpoint_redacted (texts _ _ _)).bind fun _ => ?_
      refine Within.bind (updateTask_texts fun _ => rfl) fun _ => ?_
      exact (Within.read _).bind fun _ => (Within.unwrap _ _).bind fun _ => .pure _

theorem reconcileEffect_redacted (a : ReconcileEffect) : (reconcileEffect rt c a).Within (StaysRedacted rt) := by
  refine (Within.require _ _).bind fun _ => (Within.require _ _).bind fun _ => ?_
  refine (Within.unwrap _ _).bind fun _ => (Within.require _ _).bind fun _ => ?_
  refine Within.atomically ((Within.read _).bind fun _ => (Within.unwrap _ _).bind fun _ => ?_)
  refine (Within.read _).bind fun existing => ?_
  cases existing with
  | some stored => exact (Within.require _ _).bind fun _ => .pure _
  | none =>
    refine (Within.require _ _).bind fun _ => (Within.require _ _).bind fun _ => ?_
    refine (Within.read _).bind fun _ => (Within.unwrap _ _).bind fun _ => (Within.require _ _).bind fun _ => ?_
    refine (insertReconciliation_redacted fun s mem => ?_).bind fun _ => ?_
    · rw [List.mem_singleton.mp mem]
      exact isRedacted_sanitize rt _
    · exact (Within.read _).bind fun _ => (Within.unwrap _ _).bind fun _ => .pure _

theorem requeueBlocked_redacted (taskId correlationId : String) :
    (requeueBlocked c taskId correlationId).Within (StaysRedacted rt) := by
  refine Within.bind (.atomically ?_) fun _ => .of_reads (getTask_reads _)
  refine (Within.read _).bind fun _ => (Within.unwrap _ _).bind fun _ => ?_
  refine (Within.require _ _).bind fun _ => (Within.read _).bind fun _ => (Within.require _ _).bind fun _ => ?_
  exact updateTask_redacted fun t texts s mem => texts s (List.mem_append_right _ mem)

theorem enqueueTask_redacted (a : EnqueueTask) : (enqueueTask rt c a).Within (StaysRedacted rt) := by
  refine (Within.require _ _).bind fun _ => (Within.require _ _).bind fun _ => ?_
  refine (Within.of_reads (ofExcept_reads _)).bind fun _ => (Within.require _ _).bind fun _ => ?_
  refine Within.atomically ((Within.read _).bind fun _ => (Within.require _ _).bind fun _ => ?_)
  refine Within.bind (.write fun _ h => { h with }) fun _ => (Within.read _).bind fun found => ?_
  cases found with
  | some row => exact (Within.require _ _).bind fun _ => (Within.require _ _).bind fun _ => .pure _
  | none =>
    refine Within.bind (insertTask_redacted ?_) fun _ => Within.bind (.of_reads (getTask_reads _)) fun _ => .pure _
    simp [Task.texts, enqueuedRow]

theorem claimTask_redacted (a : ClaimTask) (token attemptId : Uuid) :
    (claimTask rt c a token attemptId).Within (StaysRedacted rt) := by
  refine (Within.unwrap _ _).bind fun role => (Within.require _ _).bind fun _ => ?_
  refine (Within.require _ _).bind fun _ => Within.atomically ?_
  refine Within.bind (.ite ?_ (.pure _)) fun _ => ?_
  · exact recover_redacted.bind fun _ => recoverStalled_redacted.bind fun _ => .pure _
  refine Within.bind (.of_reads (ready_reads c a.workerId role)) fun _ => (Within.read _).bind fun selected => ?_
  cases selected with
  | none => exact .pure _
  | some row =>
    refine Within.bind ?_ fun _ => .pure _
    refine (Within.unwrap _ _).bind fun _ => (Within.read _).bind fun _ => (Within.require _ _).bind fun _ => ?_
    refine Within.bind (updateTask_texts fun _ => rfl) fun _ => Within.bind (.write fun _ h => { h with }) fun _ => ?_
    refine Within.bind (.of_reads (getTask_reads _)) fun _ => ?_
    refine Within.bind (insertAttempt_redacted ?_) fun _ => .pure _
    simp [Attempt.texts]

end Calls

theorem Op.run_redacted {c : Call} (op : Op) : (op.run rt c).Within (StaysRedacted rt) := by
  have returned : ∀ {α β : Type} {m : Body α} {f : α → β}, m.Within (StaysRedacted rt) →
      (m >>= fun a => pure (f a)).Within (StaysRedacted rt) := fun h => h.bind fun _ => .pure _
  cases op with
  | registerWorker a =>
    refine returned ((Within.require _ _).bind fun _ => (Within.unwrap _ _).bind fun _ => ?_)
    refine (Within.unwrap _ _).bind fun _ => (Within.require _ _).bind fun _ => ?_
    exact Within.bind (.atomically (.write fun _ h => { h with })) fun _ => (Within.read _).bind fun _ => .unwrap _ _
  | heartbeatWorker a =>
    refine returned (((Within.read _).bind fun _ => .unwrap _ _).bind fun _ => (Within.unwrap _ _).bind fun _ => ?_)
    exact Within.bind (.atomically (.write fun _ h => { h with })) fun _ => (Within.read _).bind fun _ => .unwrap _ _
  | configureRepository =>
    refine returned ((Within.of_reads (ofExcept_reads _)).bind fun name => ?_)
    split
    · exact .raise _
    · refine Within.bind (.atomically (.write fun _ h => { h with })) fun _ => ?_
      exact (Within.of_reads (ofExcept_reads _)).bind fun _ => (Within.read _).bind fun _ => .unwrap _ _
  | replaceWorkerAffinities =>
    refine returned (((Within.read _).bind fun _ => .unwrap _ _).bind fun _ => ?_)
    refine (Within.of_reads (ofExcept_reads _)).bind fun _ => (Within.atomically ?_).bind fun _ => .pure _
    refine Within.bind (.write fun _ h => { h with }) fun _ => .forEach fun _ _ => ?_
    exact Within.bind (.write fun _ h => { h with }) fun _ => .write fun _ h => { h with }
  | enableFencedCutover =>
    refine returned ((Within.require _ _).bind fun _ => (Within.require _ _).bind fun _ => ?_)
    exact Within.bind (.atomically (.write fun _ h => { h with })) fun _ => .read _
  | enqueueTask => exact returned (enqueueTask_redacted _)
  | claimTask => exact returned (claimTask_redacted _ _ _)
  | renewLease => exact returned (renewLease_redacted _ _ _)
  | startTask => exact returned (startTask_redacted _ _)
  | submitForValidation => exact returned (submitForValidation_redacted _ _ _)
  | completeTask => exact returned (completeTask_redacted _ _)
  | failTask => exact returned (failTask_redacted _ _ _)
  | blockTask => exact returned (blockTask_redacted _ _ _)
  | recordCheckpoint => exact returned (recordCheckpoint_redacted _)
  | reconcileEffect => exact returned (reconcileEffect_redacted _)
  | requeueBlocked => exact returned (requeueBlocked_redacted _ _)
  | recoverExpiredLeases => exact returned (.atomically recover_redacted)
  | recoverStalledTasks => exact returned (.atomically recoverStalled_redacted)
  | reconcile =>
    refine returned (.atomically ?_)
    exact recover_redacted.bind fun _ => recoverStalled_redacted.bind fun _ => .pure _

/-- Whatever the calls, in whatever order, no text is stored that redaction would still change. -/
theorem stored_redacted {s : Pool} (reach : (pool rt).Reachable s) : s.db.Redacted rt := by
  refine reach.invariant (P := fun s => s.db.Redacted rt) ?_ ?_
  · rintro s rfl
    exact .empty
  · rintro s l _ redacted ⟨-, rfl⟩
    exact l.2.run_redacted s.db redacted

open Sample in
theorem blocked_redacted : (Pool.empty.run Runtime.ascii (leased ++
    [(.at start, .blockTask (credential "b1" (uuid 'a') (uuid 'b') 1) "corr" "password=hunter2")])).db.Redacted
      Runtime.ascii := stored_redacted (Pool.reachable_run (by decide))

end WorkerPool
