import WorkerPool.Passes

/-!
# Containment of unresolved effects

A fenced task with an effect of unknown fate is under a lease, or blocked until
somebody reconciles the effect. Hence whoever claims a task finds every effect decided.
-/

namespace WorkerPool

open Transaction Transaction.Tx
open Transition.System (Reachable)

/-- Where a task in doubt may be: under a lease, or waiting for a reconciliation. -/
def Task.Confined (t : Task) : Prop :=
  (t.leasedBy ≠ none ∧ t.state.active = true) ∨
    (t.state = .blocked ∧ t.blockedReason = some effectReconciliationRequired)

/-- The effects of a file: each checkpoint declares an effect exactly when it gives it a
state, and a task in doubt is confined. -/
structure Contained (f : TaskFile) : Prop where
  before : f.task = none → f.checkpoints = []
  paired : ∀ c ∈ f.checkpoints, c.effectId = none ↔ c.effectState = .none
  confined : ∀ t ∈ f.task, f.InDoubt t → t.Confined

namespace Contained

theorem empty : Contained .empty := by
  refine ⟨fun _ => rfl, fun c hc => ?_, fun t ht => ?_⟩
  · cases hc
  · cases ht

/-- Each act keeps the effects of the file contained. -/
theorem does {f f' : TaskFile} {act : Act} (h : Contained f) (does : Does f act f') :
    Contained f' := by
  cases does with
  | enqueue absent admitted =>
    refine ⟨fun absent => absurd absent (Option.some_ne_none _), h.paired, ?_⟩
    rintro _ ⟨⟩ ⟨-, unresolved⟩
    rw [TaskFile.unresolved, h.before absent] at unresolved
    cases unresolved
  | grant current wanted free named validates =>
    refine ⟨fun absent => absurd absent (Option.some_ne_none _), h.paired, ?_⟩
    rintro _ ⟨⟩ -
    refine .inl ⟨Option.some_ne_none _, ?_⟩
    simp only [Grant.row]
    cases Grant.role _ <;> rfl
  | renew expires m current active presented =>
    refine ⟨fun absent => absurd absent (Option.some_ne_none _), h.paired, ?_⟩
    rintro _ ⟨⟩ -
    exact .inl ⟨by simp [Task.marked, presented.worker], active⟩
  | start m current leased presented =>
    refine ⟨fun absent => absurd absent (Option.some_ne_none _), h.paired, ?_⟩
    rintro _ ⟨⟩ -
    exact .inl ⟨by simp [Task.marked, presented.worker], rfl⟩
  | release m stamp reason q current active fits ends recorded =>
    refine ⟨fun absent => absurd absent (Option.some_ne_none _), h.paired, ?_⟩
    rintro _ ⟨⟩ doubt
    cases ends with
    | handoff running builder shape settled => exact absurd doubt settled
    | completion validating independent produced settled => exact absurd doubt settled
    | retry left settled => exact absurd doubt settled
    | failure exhausted settled => exact absurd doubt settled
    | block named => exact .inr ⟨rfl, congrArg some (named doubt)⟩
  | checkpoint c m current active presented fenced task generation attempt sequence positive effect =>
    refine ⟨fun absent => absurd absent (Option.some_ne_none _), fun d hd => ?_, ?_⟩
    · rcases List.mem_append.mp hd with old | new
      · exact h.paired d old
      · rw [List.mem_singleton.mp new]
        exact effect
    · rintro _ ⟨⟩ -
      exact .inl ⟨by simp [Task.marked, presented.worker], active⟩
  | reconcile r current fenced blocked reason =>
    refine ⟨h.before, h.paired, fun t ht _ => ?_⟩
    cases Option.some.inj (current.symm.trans ht)
    exact .inr ⟨blocked, reason⟩
  | requeue m current blocked settled =>
    refine ⟨fun absent => absurd absent (Option.some_ne_none _), h.paired, ?_⟩
    rintro _ ⟨⟩ doubt
    exact absurd doubt settled

end Contained

variable {rt : Runtime}

theorem file_contained {s : Pool} (h : (pool rt).Reachable s) (taskId : String) :
    Contained (s.db.file taskId) :=
  reachable_file Contained.empty (fun _ _ _ => Contained.does) h taskId

/-- The state inside a call, after some of its moves, satisfies what reachable states do. -/
theorem path_contained {s : Pool} {op : Op} {mid : Db} (h : (pool rt).Reachable s)
    (path : Relation.ReflTransGen (Db.Move rt op) s.db mid) (taskId : String) :
    Contained (mid.file taskId) :=
  path_file (fun _ _ _ _ holds => holds.does) path (file_contained h taskId)

/-! ### What a claim finds -/

/-- An effect of a recovery context whose fate is known. -/
def RecoveryRow.Decided (e : RecoveryRow) : Prop :=
  e.checkpoint.effectState = .confirmed ∨ e.checkpoint.effectState = .notApplied ∨
    e.reconciliation ≠ none

/-- Without an unresolved effect, the latest checkpoint of every effect is decided. -/
theorem recoveryEffects_decided {db : Db} {taskId : String} (contained : Contained (db.file taskId))
    (resolved : (db.file taskId).unresolved = false) :
    ∀ e ∈ db.recoveryEffects taskId, e.Decided := by
  intro e he
  obtain ⟨c, hc, rfl⟩ := List.mem_map.mp he
  obtain ⟨stored, test⟩ := List.mem_filter.mp hc
  simp only [Bool.and_eq_true, decide_eq_true_eq, Bool.not_eq_true'] at test
  obtain ⟨⟨task, effect⟩, latest⟩ := test
  have mem : c ∈ (db.file taskId).checkpoints := List.mem_filter.mpr ⟨stored, by simpa using task⟩
  have settled : unresolvedAt db.checkpoints.rows db.reconciliations.rows c = false := by
    rw [← unresolvedAt_file task]
    exact Bool.eq_false_iff.mpr fun open_ =>
      Bool.eq_false_iff.mp resolved (List.any_eq_true.mpr ⟨c, mem, open_⟩)
  -- a pending or unknown state leaves only the reconciliation
  have reconciled : c.effectState.undecided = true → (db.recoveryRow c).reconciliation ≠ none := by
    intro undecided absent
    have none_settles : (db.reconciliations.rows.any fun r => r.settles c) = false := by
      simpa [Db.recoveryRow] using absent
    have state : c.effectState = .unknown ∨ c.effectState = .pending := by
      cases hs : c.effectState <;> simp_all [EffectState.undecided]
    rcases state with state | state <;>
      simp [unresolvedAt, effect, state, none_settles, latest] at settled
  cases state : c.effectState with
  | none => simp [(contained.paired c mem).mpr state] at effect
  | pending => exact .inr (.inr (reconciled (by rw [state]; rfl)))
  | confirmed => exact .inl state
  | notApplied => exact .inr (.inl state)
  | unknown => exact .inr (.inr (reconciled (by rw [state]; rfl)))

theorem mem_insertByEffect {row e : RecoveryRow} {rows : List RecoveryRow} :
    e ∈ insertByEffect row rows ↔ e = row ∨ e ∈ rows := by
  induction rows with
  | nil => simp [insertByEffect]
  | cons q rest ih =>
    rw [insertByEffect]
    split
    · rw [List.mem_cons, ih, List.mem_cons]
      exact or_left_comm
    · rw [List.mem_cons]

/-- Ordering the effects of a context keeps them all and adds none. -/
theorem mem_recoveryContext {db : Db} {taskId : String} {e : RecoveryRow} :
    e ∈ (db.recoveryContext taskId).effects ↔ e ∈ db.recoveryEffects taskId := by
  simp only [Db.recoveryContext]
  generalize db.recoveryEffects taskId = rows
  induction rows with
  | nil => rfl
  | cons q rest ih => rw [List.foldr_cons, mem_insertByEffect, ih, List.mem_cons]

theorem getRecoveryContext_yields {taskId : String} {ctx : RecoveryContext} {db db' : Db}
    (h : (getRecoveryContext taskId).Yields db ctx db') :
    db' = db ∧ ctx = db.recoveryContext taskId := by
  simp only [getRecoveryContext, getLatestCheckpoint, bind_yields, read_yields, unwrap_yields] at h
  obtain ⟨_, _, ⟨_, _, ⟨rfl, rfl⟩, _, _, ⟨_, rfl⟩, rfl, rfl⟩, rfl, rfl⟩ := h
  exact ⟨rfl, rfl⟩

/-- A grant takes an unleased task in its waiting state and leaves its effects alone. -/
theorem Does.granted {f f' : TaskFile} {g : Grant} (h : Does f (.grant g) f') :
    ∃ t ∈ f.task, t.state = g.role.wanted ∧ t.leasedBy = none ∧ f'.unresolved = f.unresolved := by
  cases h with
  | grant current wanted free => exact ⟨_, current, wanted, free, rfl⟩

/-- A fenced task that a claim has just granted is not in doubt. -/
theorem claimTask_resolved {s : Pool} (h : (pool rt).Reachable s) {c : Call} {a : ClaimTask}
    {token attemptId : Uuid} {task : Task} {l : Lease} {db' : Db}
    (claimed : (claimTask rt c a token attemptId).Yields s.db (some (task, l)) db')
    (fenced : task.fencingRequired = true) :
    Contained (db'.file task.taskId) ∧ (db'.file task.taskId).unresolved = false := by
  obtain ⟨mid, path, -, ⟨⟨⟩, -⟩ | ⟨row, g, ⟨⟩, known, granted⟩⟩ :=
    (claimTask_atomic (reachable_owned h)).returns claimed
  have contained := path_contained h path row.taskId
  refine ⟨contained.does granted.acts.file, ?_⟩
  obtain ⟨t, ht, wanted, free, same⟩ := granted.acts.file.granted
  obtain rfl := Option.some.inj (granted.selected.current.symm.trans ht)
  refine same.trans (Bool.eq_false_iff.mpr fun unresolved => ?_)
  rcases contained.confined row ht ⟨fenced, unresolved⟩ with ⟨leased, -⟩ | ⟨blocked, -⟩
  · exact leased free
  · rw [wanted] at blocked
    cases hr : g.role <;> rw [hr] at blocked <;> cases blocked

/-- In every reachable state the unresolved effects of fenced tasks are contained, and a
claim of a fenced task finds every effect decided. -/
theorem unresolved_effects_contained {s : Pool} (h : (pool rt).Reachable s) :
    (∀ t ∈ s.db.tasks.rows, t.fencingRequired = true → s.db.hasUnresolvedEffect t.taskId = true →
      t.Confined ∧ t.state ≠ .queued ∧ ¬ (t.state = .validating ∧ t.leasedBy = none) ∧
        t.state ≠ .completed ∧ t.state ≠ .failed) ∧
    ∀ {c : Call} {a : ClaimTask} {token attemptId : Uuid} {task : Task} {l : Lease} {db' : Db},
      (claimTask rt c a token attemptId).Yields s.db (some (task, l)) db' →
      task.fencingRequired = true →
      ∀ {ctx : RecoveryContext} {db'' : Db},
        (getRecoveryContext task.taskId).Yields db' ctx db'' → ∀ e ∈ ctx.effects, e.Decided := by
  refine ⟨fun t ht fenced unresolved => ?_, fun claimed fenced ctx db'' read => ?_⟩
  · rw [Db.hasUnresolvedEffect_file] at unresolved
    have confined : t.Confined := (file_contained h t.taskId).confined t (Db.current_of_mem ht)
      ⟨fenced, unresolved⟩
    refine ⟨confined, ?_⟩
    rcases confined with ⟨leased, active⟩ | ⟨blocked, -⟩
    · refine ⟨?_, fun idle => leased idle.2, ?_, ?_⟩ <;> rintro state <;> rw [state] at active <;>
        cases active
    · simp [blocked]
  · obtain ⟨contained, resolved⟩ := claimTask_resolved h claimed fenced
    obtain ⟨-, rfl⟩ := getRecoveryContext_yields read
    exact fun e he => recoveryEffects_decided contained resolved e (mem_recoveryContext.mp he)

theorem declared_contained : ∃ t ∈ (Pool.empty.run .ascii Sample.declared).db.tasks.rows,
    (Pool.empty.run .ascii Sample.declared).db.hasUnresolvedEffect t.taskId = true ∧
      t.Confined := by
  have found : ∃ t ∈ (Pool.empty.run .ascii Sample.declared).db.tasks.rows,
      t.fencingRequired = true ∧
        (Pool.empty.run .ascii Sample.declared).db.hasUnresolvedEffect t.taskId = true := by
    decide +kernel
  obtain ⟨t, ht, fenced, unresolved⟩ := found
  have reach : (pool .ascii).Reachable (Pool.empty.run .ascii Sample.declared) :=
    Pool.reachable_run (by decide)
  exact ⟨t, ht, unresolved, ((unresolved_effects_contained reach).1 t ht fenced unresolved).1⟩

end WorkerPool
