import WorkerPool.Passes

/-!
# The ledger of leases and attempts

In every reachable state the lease columns of a task, its counters and its attempt rows
tell one story.
-/

namespace WorkerPool

open Transition.System (Reachable)

namespace Task

/-- The four lease columns are set. -/
structure Leased (t : Task) : Prop where
  worker : t.leasedBy ≠ none
  token : t.leaseToken ≠ none
  expires : t.leaseExpiresAt ≠ none
  attempt : t.attemptId ≠ none

/-- The four lease columns are `NULL`. -/
structure Unleased (t : Task) : Prop where
  worker : t.leasedBy = none
  token : t.leaseToken = none
  expires : t.leaseExpiresAt = none
  attempt : t.attemptId = none

theorem Leased.not_unleased {t : Task} (h : t.Leased) : ¬ t.Unleased := fun u => h.worker u.worker

end Task

/-- The attempts that have not ended. -/
def openAttempts (attempts : List Attempt) : List Attempt :=
  attempts.filter fun a => a.endedAt.isNone

/-- The attempt row that a lease stands for. -/
structure Task.LeasedUnder (t : Task) (a : Attempt) : Prop where
  name : t.attemptId = some a.attemptId
  generation : a.leaseGeneration = t.leaseGeneration
  expires : t.leaseExpiresAt = some a.leaseExpiresAt

/-- The lease columns of a task and its attempt rows agree. -/
structure Ledger (t : Task) (attempts : List Attempt) : Prop where
  columns : t.Leased ∨ t.Unleased
  active : t.Leased → t.state.active = true
  held : t.state = .leased ∨ t.state = .running → t.Leased
  current : t.Leased → ∃ a, openAttempts attempts = [a] ∧ t.LeasedUnder a
  closed : t.Unleased → openAttempts attempts = []
  count : t.attemptCount = t.leaseGeneration
  generations : attempts.map Attempt.leaseGeneration = List.range' 1 t.leaseGeneration

namespace Ledger

variable {t t' : Task} {attempts rows : List Attempt}

theorem leased_of_worker (h : Ledger t attempts) (worker : t.leasedBy ≠ none) : t.Leased :=
  h.columns.resolve_right fun u => worker u.worker

theorem unleased_of_worker (h : Ledger t attempts) (worker : t.leasedBy = none) : t.Unleased :=
  h.columns.resolve_left fun l => l.worker worker

/-- A task of as many attempts as generations has no more than its current one. -/
theorem length (h : Ledger t attempts) : attempts.length = t.leaseGeneration := by
  rw [← List.length_map Attempt.leaseGeneration, h.generations, List.length_range']

/-- Rewriting columns beside the lease, with a state that a lease may or may not have. -/
theorem keep (h : Ledger t attempts) (worker : t'.leasedBy = t.leasedBy)
    (token : t'.leaseToken = t.leaseToken) (expires : t'.leaseExpiresAt = t.leaseExpiresAt)
    (attempt : t'.attemptId = t.attemptId) (generation : t'.leaseGeneration = t.leaseGeneration)
    (count : t'.attemptCount = t.attemptCount) (active : t.Leased → t'.state.active = true)
    (held : t'.state = .leased ∨ t'.state = .running → t.Leased) : Ledger t' attempts := by
  have leased : t'.Leased ↔ t.Leased := by
    constructor
    · rintro ⟨a, b, c, d⟩
      exact ⟨worker ▸ a, token ▸ b, expires ▸ c, attempt ▸ d⟩
    · rintro ⟨a, b, c, d⟩
      exact ⟨worker ▸ a, token ▸ b, expires ▸ c, attempt ▸ d⟩
  have unleased : t'.Unleased ↔ t.Unleased := by
    constructor
    · rintro ⟨a, b, c, d⟩
      exact ⟨worker ▸ a, token ▸ b, expires ▸ c, attempt ▸ d⟩
    · rintro ⟨a, b, c, d⟩
      exact ⟨worker.trans a, token.trans b, expires.trans c, attempt.trans d⟩
  refine ⟨?_, ?_, ?_, ?_, ?_, ?_, ?_⟩
  · rw [leased, unleased]
    exact h.columns
  · exact fun l => active (leased.mp l)
  · exact fun s => leased.mpr (held s)
  · intro l
    obtain ⟨a, rows, name, gen, exp⟩ := h.current (leased.mp l)
    exact ⟨a, rows, attempt.trans name, gen.trans generation.symm, expires.trans exp⟩
  · exact fun u => h.closed (unleased.mp u)
  · rw [count, generation, h.count]
  · rw [generation, h.generations]

/-- Nothing that is ended opens again, and a change of one attempt keeps the others. -/
theorem openAttempts_map {f : Attempt → Attempt} (h : ∀ a, (f a).endedAt.isNone = a.endedAt.isNone) :
    openAttempts (attempts.map f) = (openAttempts attempts).map f := by
  unfold openAttempts
  rw [List.filter_map]
  exact congrArg _ (List.filter_congr fun a _ => h a)

/-- The end of a lease ends its attempt, and no other is open. -/
theorem openAttempts_closed (h : Ledger t attempts) (stamp reason : String) :
    openAttempts (attempts.map (Attempt.closedBy t.attemptId stamp reason)) = [] := by
  refine List.filter_eq_nil_iff.mpr fun b hb isOpen => ?_
  obtain ⟨a, ha, rfl⟩ := List.mem_map.mp hb
  by_cases named : some a.attemptId = t.attemptId
  · simp [Attempt.closedBy, named] at isOpen
  · rw [Attempt.closedBy, if_neg named] at isOpen
    have still : a ∈ openAttempts attempts := List.mem_filter.mpr ⟨ha, isOpen⟩
    rcases h.columns with leased | unleased
    · obtain ⟨b, only, under⟩ := h.current leased
      rw [only, List.mem_singleton] at still
      exact named (still ▸ under.name.symm)
    · rw [h.closed unleased] at still
      cases still

theorem generations_map {f : Attempt → Attempt}
    (h : ∀ a, (f a).leaseGeneration = a.leaseGeneration) :
    (attempts.map f).map Attempt.leaseGeneration = attempts.map Attempt.leaseGeneration := by
  rw [List.map_map]
  exact List.map_congr_left fun a _ => h a

theorem enqueued (admitted : t.Admitted) : Ledger t [] where
  columns := .inr ⟨admitted.worker, admitted.token, admitted.expires, admitted.attempt⟩
  active l := absurd admitted.worker l.worker
  held s := by simp [admitted.state] at s
  current l := absurd admitted.worker l.worker
  closed _ := rfl
  count := admitted.attempts.trans admitted.generation.symm
  generations := by simp [admitted.generation]

theorem granted (h : Ledger t attempts) (g : Grant) (free : t.leasedBy = none) :
    Ledger (g.row t) (attempts ++ [g.attempt t]) := by
  have leased : (g.row t).Leased := ⟨nofun, nofun, nofun, nofun⟩
  refine ⟨.inl leased, fun _ => ?_, fun _ => leased, fun _ => ?_, fun u => absurd u leased.not_unleased,
    congrArg (· + 1) h.count, ?_⟩
  · cases hr : g.role <;> simp [Grant.row, hr, Role.nextState, TaskState.active]
  · refine ⟨g.attempt t, ?_, rfl, rfl, rfl⟩
    have before := h.closed (h.unleased_of_worker free)
    unfold openAttempts at before ⊢
    rw [List.filter_append, before]
    rfl
  · rw [List.map_append, h.generations, Grant.row, List.range'_1_concat, Nat.add_comm 1]
    rfl

theorem renewed (h : Ledger t attempts) (worker : t.leasedBy ≠ none) (expires : String) (m : Trail) :
    Ledger (({ t with leaseExpiresAt := some expires } : Task).marked m)
      (attempts.map (Attempt.renewedTo t.attemptId expires)) := by
  have leased := h.leased_of_worker worker
  have leased' : (({ t with leaseExpiresAt := some expires } : Task).marked m).Leased :=
    ⟨leased.worker, leased.token, nofun, leased.attempt⟩
  refine ⟨.inl leased', fun _ => h.active leased, fun _ => leased', fun _ => ?_,
    fun u => absurd u leased'.not_unleased, h.count, ?_⟩
  · obtain ⟨a, only, under⟩ := h.current leased
    refine ⟨a.renewedTo t.attemptId expires, ?_, ?_, ?_, ?_⟩
    · rw [openAttempts_map fun b => by unfold Attempt.renewedTo; split <;> rfl, only]
      rfl
    · rw [Attempt.renewedTo_attemptId]
      exact under.name
    · rw [Attempt.renewedTo, if_pos under.name.symm]
      exact under.generation
    · rw [Attempt.renewedTo, if_pos under.name.symm]
      rfl
  · rw [generations_map fun b => by unfold Attempt.renewedTo; split <;> rfl]
    exact h.generations

theorem released (h : Ledger t attempts) (cause : Cause) (e : Ending) (m : Trail)
    (stamp reason : String) :
    Ledger (t.released cause e m) (attempts.map (Attempt.closedBy t.attemptId stamp reason)) := by
  have unleased : (t.released cause e m).Unleased := ⟨rfl, rfl, rfl, rfl⟩
  refine ⟨.inr unleased, fun l => absurd unleased l.not_unleased, fun s => ?_,
    fun l => absurd unleased l.not_unleased, fun _ => h.openAttempts_closed stamp reason, h.count, ?_⟩
  · have never : ∀ e : Ending, e.state t ≠ .leased ∧ e.state t ≠ .running := by
      intro e
      cases e <;> simp [Ending.state, Task.resumeState]
      split <;> simp
    rcases s with s | s
    · exact absurd s (never e).1
    · exact absurd s (never e).2
  · rw [generations_map fun b => by unfold Attempt.closedBy; split <;> rfl]
    exact h.generations

/-- The ledger of a file: before the task is admitted there are no attempts. -/
def OfFile (f : TaskFile) : Prop :=
  (f.task = none → f.attempts = []) ∧ ∀ t ∈ f.task, Ledger t f.attempts

theorem OfFile.empty : OfFile .empty := by
  refine ⟨fun _ => rfl, fun t ht => ?_⟩
  cases ht

/-- Each act keeps the ledger of the file. -/
theorem OfFile.does {f f' : TaskFile} {act : Act} (h : OfFile f) (does : Does f act f') :
    OfFile f' := by
  cases does with
  | enqueue absent admitted =>
    refine ⟨nofun, ?_⟩
    rintro _ ⟨⟩
    rw [h.1 absent]
    exact enqueued admitted
  | grant current wanted free named validates =>
    refine ⟨nofun, ?_⟩
    rintro _ ⟨⟩
    exact (h.2 _ current).granted _ free
  | renew expires m current active presented =>
    refine ⟨nofun, ?_⟩
    rintro _ ⟨⟩
    exact (h.2 _ current).renewed (by simp [presented.worker]) expires m
  | start m current leased presented =>
    refine ⟨nofun, ?_⟩
    rintro _ ⟨⟩
    have before := h.2 _ current
    exact before.keep rfl rfl rfl rfl rfl rfl (fun _ => rfl) fun _ => before.held (.inl leased)
  | release m stamp reason q current active fits ends recorded =>
    refine ⟨nofun, ?_⟩
    rintro _ ⟨⟩
    exact (h.2 _ current).released _ _ m stamp reason
  | checkpoint c m current active presented fenced =>
    refine ⟨nofun, ?_⟩
    rintro _ ⟨⟩
    have before := h.2 _ current
    exact before.keep rfl rfl rfl rfl rfl rfl before.active before.held
  | reconcile r current => exact h
  | requeue m current blocked settled =>
    refine ⟨nofun, ?_⟩
    rintro _ ⟨⟩
    have before := h.2 _ current
    have idle : ¬ (Task.Leased _) := fun l => by simpa [blocked, TaskState.active] using before.active l
    refine before.keep rfl rfl rfl rfl rfl rfl (fun l => absurd l idle) fun s => ?_
    simp only [Task.marked, Task.resumeState] at s
    split at s <;> simp at s

end Ledger

theorem file_ledger {rt : Runtime} {s : Pool} (h : (pool rt).Reachable s) (taskId : String) :
    Ledger.OfFile (s.db.file taskId) :=
  reachable_file Ledger.OfFile.empty (fun _ _ _ => Ledger.OfFile.does) h taskId

/-- In every reachable state the ledger of every task holds. -/
theorem reachable_ledger {rt : Runtime} {s : Pool} (h : (pool rt).Reachable s) {t : Task}
    (ht : t ∈ s.db.tasks.rows) :
    Ledger t (s.db.attempts.rows.filter fun a => a.taskId = t.taskId) :=
  (file_ledger h t.taskId).2 t (Db.current_of_mem ht)

theorem leased_ledger : ∃ t ∈ (Pool.empty.run .ascii Sample.leased).db.tasks.rows,
    t.state = .leased ∧ Ledger t ((Pool.empty.run .ascii Sample.leased).db.attempts.rows.filter
      fun a => a.taskId = t.taskId) := by
  have found : ∃ t ∈ (Pool.empty.run .ascii Sample.leased).db.tasks.rows, t.state = .leased := by
    decide +kernel
  obtain ⟨t, ht, state⟩ := found
  exact ⟨t, ht, state, reachable_ledger (Pool.reachable_run (by decide)) ht⟩

end WorkerPool
