import WorkerPool.Declaration
import WorkerPool.LifeCycle

/-!
# The checkpoint log

The rows of `task_checkpoints` are a log: numbered from one in each generation, signed by the
attempt of that generation, and appended to by `record_checkpoint` alone, which takes nothing
more on an effect left unknown until it is reconciled.
-/

namespace WorkerPool

open PyText Transaction Transaction.Tx
open Transition.System (Reachable)

/-- What the log of a state is, and what one more call can do to it. -/
structure CheckpointLog (rt : Runtime) (s : Pool) : Prop where
  sequences : ∀ (taskId : String) (generation : Nat),
    let rows := s.db.checkpoints.rows.filter fun c =>
      c.taskId = taskId && c.leaseGeneration = generation
    rows.map Checkpoint.sequence = List.range' 1 rows.length
  attempts : ∀ c ∈ s.db.checkpoints.rows, ∃ a ∈ s.db.attempts.rows, a.taskId = c.taskId ∧
    a.leaseGeneration = c.leaseGeneration ∧ c.attemptId = a.attemptId ∧
    ∀ b ∈ s.db.attempts.rows, b.taskId = c.taskId → b.leaseGeneration = c.leaseGeneration → b = a
  latest : ∀ taskId row db', (getLatestCheckpoint taskId).Yields s.db row db' →
    row.map RecoveryRow.checkpoint =
      (s.db.checkpoints.rows.filter fun c => c.taskId = taskId).getLast?
  guarded : ∀ l s', (pool rt).step s l s' → ∀ d ∈ s'.db.checkpoints.rows,
    d ∉ s.db.checkpoints.rows → ∀ c ∈ s.db.checkpoints.rows, ∀ effectId, c.taskId = d.taskId →
      c.effectId = some effectId → d.effectId = some effectId → c.effectState = .unknown →
      ∃ r ∈ s.db.reconciliations.rows, r.settles c = true
  replayed : ∀ c a r db', (recordCheckpoint rt c a).Yields s.db r db' →
    (∃ d ∈ s.db.checkpoints.rows, d.taskId = a.taskId ∧ d.checkpointId = a.checkpointId) →
      r.2 = false ∧ db' = s.db
  rejected : ∀ c a e db', (recordCheckpoint rt c a).Fails s.db e db' → db' = s.db

/-! ### Numbers -/

theorem foldl_max_range' (n : Nat) : (List.range' 1 n).foldl max 0 = n := by
  induction n with
  | zero => rfl
  | succ n ih =>
    rw [List.range'_1_concat, List.foldl_append, ih, List.foldl_cons, List.foldl_nil]
    omega

namespace TaskFile

/-- The checkpoints of each generation are numbered from one, in the order of their rows. -/
def Numbered (f : TaskFile) : Prop := ∀ generation : Nat,
  (f.checkpoints.filter fun c => c.leaseGeneration = generation).map Checkpoint.sequence =
    List.range' 1 (f.checkpoints.filter fun c => c.leaseGeneration = generation).length

theorem Numbered.lastSequence {f : TaskFile} (h : f.Numbered) (generation : Nat) :
    f.lastSequence generation =
      (f.checkpoints.filter fun c => c.leaseGeneration = generation).length := by
  have rows : (f.checkpoints.filter fun c => (c.leaseGeneration : Int) = generation) =
      f.checkpoints.filter fun c => c.leaseGeneration = generation :=
    List.filter_congr fun c _ => decide_eq_decide.mpr (by omega)
  rw [TaskFile.lastSequence, rows, h generation, foldl_max_range']

end TaskFile

section Acts

variable {f f' : TaskFile} {act : Act}

theorem Does.numbered (h : Does f act f') (numbered : f.Numbered) : f'.Numbered := by
  cases h with
  | @checkpoint t p c m current active presented fenced task generation attempt sequence =>
    intro g
    have before := numbered g
    by_cases same : c.leaseGeneration = g
    · have next : c.sequence = 1 + (f.checkpoints.filter fun d => d.leaseGeneration = g).length := by
        rw [sequence, ← generation, same, numbered.lastSequence g]
        omega
      simp only [List.filter_append, List.map_append, List.length_append, before, same,
        decide_true, List.filter_cons_of_pos, List.filter_nil, List.map_cons, List.map_nil,
        List.length_cons, List.length_nil, next]
      exact List.range'_1_concat.symm
    · simpa [List.filter_append, same] using before
  | enqueue | grant | renew | start | release | reconcile | requeue => exact numbered

/-- A checkpoint is written by `record_checkpoint` alone, and on no effect left unknown. -/
theorem Does.checkpoint_new {d : Checkpoint} (h : Does f act f') (hd : d ∈ f'.checkpoints)
    (new : d ∉ f.checkpoints) : (∃ p, act = .checkpoint p d) ∧
      ∀ c ∈ f.checkpoints, ∀ effectId, c.effectId = some effectId → d.effectId = some effectId →
        c.effectState = .unknown → f.Settled c := by
  cases h with
  | checkpoint c m current active presented fenced task generation attempt sequence positive effect
      safe certain =>
    rcases List.mem_append.mp hd with old | last
    · exact absurd old new
    · obtain rfl := List.mem_singleton.mp last
      refine ⟨⟨_, rfl⟩, fun c hc effectId effect' same unknown => ?_⟩
      exact EffectLedger.settled_of_certain hc effect' unknown (certain effectId same)
  | enqueue | grant | renew | start | release | reconcile | requeue => exact absurd hd new

end Acts

/-! ### Runs -/

section Runs

variable {rt : Runtime} {s s' : Pool} {l : Call × Op}

theorem file_numbered (h : (pool rt).Reachable s) (taskId : String) :
    (s.db.file taskId).Numbered :=
  reachable_file (fun _ => rfl) (fun _ _ _ numbered does => does.numbered numbered) h taskId

theorem mem_checkpoints {db : Db} {taskId : String} {c : Checkpoint} :
    c ∈ (db.file taskId).checkpoints ↔ c ∈ db.checkpoints.rows ∧ c.taskId = taskId := by
  simp [Db.file]

theorem recordCheckpoint_rejected {c : Call} {a : RecordCheckpoint} {e : PoolError} {db db' : Db}
    (h : (recordCheckpoint rt c a).Fails db e db') : db' = db := recordCheckpoint_atomic.raises h

/-- A call that may not write a checkpoint leaves the log of each task as it is. -/
theorem step_checkpoints {c : Call} {op : Op} (h : (pool rt).Reachable s)
    (st : (pool rt).step s (c, op) s') (other : ∀ a, op ≠ .recordCheckpoint a) (taskId : String) :
    (s'.db.file taskId).checkpoints = (s.db.file taskId).checkpoints := by
  refine path_file (P := fun f => f.checkpoints = (s.db.file taskId).checkpoints) ?_
    (step_moves (reachable_owned h) st) rfl
  intro f act f' may same does
  cases does with
  | checkpoint =>
    cases may with
    | checkpoint => exact absurd rfl (other _)
  | enqueue | grant | renew | start | release | reconcile | requeue => exact same

theorem checkpoint_guarded (h : (pool rt).Reachable s) (st : (pool rt).step s l s')
    {d : Checkpoint} (hd : d ∈ (s'.db.file d.taskId).checkpoints)
    (new : d ∉ (s.db.file d.taskId).checkpoints) :
    ∀ c ∈ (s.db.file d.taskId).checkpoints, ∀ effectId, c.effectId = some effectId →
      d.effectId = some effectId → c.effectState = .unknown → (s.db.file d.taskId).Settled c := by
  obtain ⟨c, op⟩ := l
  by_cases call : ∃ a, op = .recordCheckpoint a
  · obtain ⟨a, rfl⟩ := call
    have changed : s'.db.file d.taskId ≠ s.db.file d.taskId := by
      intro same
      rw [same] at hd
      exact new hd
    obtain ⟨r, returned⟩ := step_returned h st changed
    obtain ⟨⟨row, created⟩, _, accepted, ended⟩ := bind_yields.mp returned
    obtain ⟨-, rfl⟩ := pure_yields.mp ended
    obtain ⟨t, content, correlationId, -, -, -, -, -, ⟨-, same, -⟩ | ⟨-, acts, -⟩⟩ :=
      recordCheckpoint_atomic.returns accepted
    · exact absurd (congrArg (fun db => db.file d.taskId) same) changed
    · by_cases mine : d.taskId = a.taskId
      · rw [mine] at hd new ⊢
        exact (acts.file.checkpoint_new hd new).2
      · exact absurd (acts.others d.taskId mine) changed
  · rw [step_checkpoints h st fun a hop => call ⟨a, hop⟩] at hd
    exact absurd hd new

/-- The attempt of a generation is one row. -/
theorem attempt_unique (h : (pool rt).Reachable s) {a b : Attempt}
    (ha : a ∈ s.db.attempts.rows) (hb : b ∈ s.db.attempts.rows) (task : b.taskId = a.taskId)
    (generation : b.leaseGeneration = a.leaseGeneration) : b = a := by
  have ledger := file_ledger h a.taskId
  have mine : a ∈ (s.db.file a.taskId).attempts := List.mem_filter.mpr ⟨ha, by simp⟩
  have other : b ∈ (s.db.file a.taskId).attempts := List.mem_filter.mpr ⟨hb, by simp [task]⟩
  cases ht : (s.db.file a.taskId).task with
  | none =>
    rw [ledger.1 ht] at mine
    cases mine
  | some t =>
    have distinct : ((s.db.file a.taskId).attempts.map Attempt.leaseGeneration).Nodup := by
      rw [(ledger.2 t ht).generations]
      exact List.nodup_range'
    exact List.inj_on_of_nodup_map distinct other mine generation

theorem getLatestCheckpoint_yields {taskId : String} {row : Option RecoveryRow} {db db' : Db}
    (h : (getLatestCheckpoint taskId).Yields db row db') :
    row.map RecoveryRow.checkpoint = db.latestCheckpoint taskId := by
  simp only [getLatestCheckpoint, bind_yields, read_yields, unwrap_yields] at h
  obtain ⟨_, _, ⟨rfl, rfl⟩, _, _, ⟨_, rfl⟩, rfl, rfl⟩ := h
  simp [Option.map_map, Function.comp_def, Db.recoveryRow]

end Runs

end WorkerPool
