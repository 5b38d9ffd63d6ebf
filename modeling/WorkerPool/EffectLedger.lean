import Mathlib
import WorkerPool.Containment

/-!
# The ledger of effects

The checkpoints of a task come in the order of their generations and sequences, and an
effect of unknown fate has no later checkpoint before it is reconciled. So the current
checkpoint of an effect is one and the same for every query that picks it.
-/

namespace WorkerPool

open Table (first)

/-- An effect that `_has_unresolved_effect` counts. -/
def TaskFile.UnresolvedEffect (f : TaskFile) (effectId : String) : Prop :=
  ∃ c ∈ f.checkpoints, c.effectId = some effectId ∧
    unresolvedAt f.checkpoints f.reconciliations c = true

theorem TaskFile.unresolved_iff {f : TaskFile} :
    f.unresolved = true ↔ ∃ effectId, f.UnresolvedEffect effectId := by
  constructor
  · intro h
    obtain ⟨c, hc, open_⟩ := List.any_eq_true.mp h
    have declared : c.effectId.isSome = true := (Bool.and_eq_true_iff.mp open_).1
    obtain ⟨effectId, he⟩ := Option.isSome_iff_exists.mp declared
    exact ⟨effectId, c, hc, he, open_⟩
  · rintro ⟨effectId, c, hc, -, open_⟩
    exact List.any_eq_true.mpr ⟨c, hc, open_⟩

/-- An effect of the task that a row of `_has_unresolved_effect` declares. -/
def Db.UnresolvedEffect (db : Db) (taskId effectId : String) : Prop :=
  ∃ c ∈ db.checkpoints.rows, c.taskId = taskId ∧ c.effectId = some effectId ∧
    unresolvedAt db.checkpoints.rows db.reconciliations.rows c = true

theorem Db.unresolvedEffect_file {db : Db} {taskId effectId : String} :
    db.UnresolvedEffect taskId effectId ↔ (db.file taskId).UnresolvedEffect effectId := by
  constructor
  · rintro ⟨c, stored, task, effect, open_⟩
    refine ⟨c, List.mem_filter.mpr ⟨stored, decide_eq_true task⟩, effect, ?_⟩
    rw [← open_]
    exact unresolvedAt_file task
  · rintro ⟨c, hc, effect, open_⟩
    obtain ⟨stored, task⟩ := List.mem_filter.mp hc
    refine ⟨c, stored, of_decide_eq_true task, effect, ?_⟩
    rw [← open_]
    exact (unresolvedAt_file (of_decide_eq_true task)).symm

/-- A checkpoint that a reconciliation has settled. -/
def TaskFile.Settled (f : TaskFile) (c : Checkpoint) : Prop :=
  (f.reconciliations.any fun r => r.settles c) = true

/-- The order of the checkpoints of a task, and what stands between two of one effect. -/
structure EffectLedger (f : TaskFile) : Prop where
  before : f.task = none → f.checkpoints = []
  ordered : f.checkpoints.Pairwise fun c d => d.later c = true
  generation : ∀ t ∈ f.task, ∀ c ∈ f.checkpoints,
    1 ≤ c.leaseGeneration ∧ c.leaseGeneration ≤ t.leaseGeneration
  named : ∀ t ∈ f.task, ∀ c ∈ f.checkpoints, c.taskId = t.taskId
  safe : ∀ c ∈ f.checkpoints, ∀ id ∈ c.effectId, isSafeId id = true
  superseded : ∀ c ∈ f.checkpoints, ∀ d ∈ f.checkpoints, c.effectId ≠ none →
    d.effectId = c.effectId → d.later c = true → c.effectState = .unknown → f.Settled c

theorem Checkpoint.later_asymm {c d : Checkpoint} (h : c.later d = true) : d.later c = false := by
  simp only [Checkpoint.later, Bool.or_eq_true, Bool.and_eq_true, decide_eq_true_eq,
    beq_iff_eq] at h
  simp only [Checkpoint.later, Bool.or_eq_false_iff, Bool.and_eq_false_iff, decide_eq_false_iff_not,
    beq_eq_false_iff_ne]
  omega

theorem Checkpoint.generation_le {c d : Checkpoint} (h : c.later d = true) :
    d.leaseGeneration ≤ c.leaseGeneration := by
  simp only [Checkpoint.later, Bool.or_eq_true, Bool.and_eq_true, decide_eq_true_eq,
    beq_iff_eq] at h
  omega

theorem le_foldl_max {l : List Nat} {start n : Nat} (h : n ∈ l ∨ n ≤ start) :
    n ≤ l.foldl max start := by
  induction l generalizing start with
  | nil => simpa using h
  | cons a rest ih =>
    rw [List.foldl_cons]
    refine ih ?_
    rcases h with hmem | le
    · rcases List.mem_cons.mp hmem with rfl | hmem
      · exact .inr (le_max_right _ _)
      · exact .inl hmem
    · exact .inr (le.trans (le_max_left _ _))

theorem TaskFile.sequence_le_last {f : TaskFile} {c : Checkpoint} (h : c ∈ f.checkpoints) :
    c.sequence ≤ f.lastSequence c.leaseGeneration :=
  le_foldl_max (.inl (List.mem_map_of_mem (List.mem_filter.mpr ⟨h, by simp⟩)))

namespace EffectLedger

variable {f f' : TaskFile}

theorem empty : EffectLedger .empty := by
  refine ⟨fun _ => rfl, .nil, ?_, ?_, ?_, ?_⟩
  · intro t ht
    cases ht
  · intro t ht
    cases ht
  · intro c hc
    cases hc
  · intro c hc
    cases hc

/-- Acts that write no checkpoint and take no generation back. -/
theorem keep (h : EffectLedger f) {t t' : Task} (ht : f.task = some t) (ht' : f'.task = some t')
    (checkpoints : f'.checkpoints = f.checkpoints)
    (reconciliations : ∀ c, f.Settled c → f'.Settled c)
    (generation : t.leaseGeneration ≤ t'.leaseGeneration) (name : t'.taskId = t.taskId) :
    EffectLedger f' where
  before absent := by cases ht'.symm.trans absent
  ordered := checkpoints ▸ h.ordered
  generation u hu c hc := by
    cases Option.some.inj (ht'.symm.trans hu)
    obtain ⟨one, le⟩ := h.generation t ht c (checkpoints ▸ hc)
    exact ⟨one, le.trans generation⟩
  named u hu c hc := by
    cases Option.some.inj (ht'.symm.trans hu)
    exact (h.named t ht c (checkpoints ▸ hc)).trans name.symm
  safe c hc := h.safe c (checkpoints ▸ hc)
  superseded c hc d hd declared same later unknown := reconciliations c
    (h.superseded c (checkpoints ▸ hc) d (checkpoints ▸ hd) declared same later unknown)

/-- A new checkpoint is later than every one before it. -/
theorem new_later (h : EffectLedger f) {t : Task} (ht : f.task = some t) {c : Checkpoint}
    (generation : c.leaseGeneration = t.leaseGeneration)
    (sequence : c.sequence = f.lastSequence t.leaseGeneration + 1) :
    ∀ d ∈ f.checkpoints, c.later d = true := by
  intro d hd
  have bound := (h.generation t ht d hd).2
  have last := TaskFile.sequence_le_last hd
  simp only [Checkpoint.later, Bool.or_eq_true, Bool.and_eq_true, decide_eq_true_eq, beq_iff_eq]
  rcases Nat.lt_or_eq_of_le bound with lt | eq
  · exact .inl (generation ▸ lt)
  · rw [eq] at last
    exact .inr ⟨generation.trans eq.symm, by omega⟩

/-- Where no unknown effect is open, an unknown checkpoint of that effect is settled. -/
theorem settled_of_certain {c : Checkpoint} {effectId : String} (hc : c ∈ f.checkpoints)
    (effect : c.effectId = some effectId) (unknown : c.effectState = .unknown)
    (certain : f.unresolvedUnknown effectId = false) : f.Settled c := by
  by_contra open_
  refine Bool.eq_false_iff.mp certain (List.any_eq_true.mpr ⟨c, hc, ?_⟩)
  have absent : (f.reconciliations.any fun r => r.settles c) = false := Bool.eq_false_iff.mpr open_
  simp [effect, unknown, absent]

/-- Each act keeps the ledger of effects. -/
theorem does {act : Act} (h : EffectLedger f) (does : Does f act f') : EffectLedger f' := by
  cases does with
  | enqueue absent admitted =>
    have none_yet := h.before absent
    refine ⟨nofun, h.ordered, ?_, ?_, h.safe, h.superseded⟩
    · rintro _ - c hc
      rw [none_yet] at hc
      cases hc
    · rintro _ - c hc
      rw [none_yet] at hc
      cases hc
  | grant current => exact h.keep current rfl rfl (fun _ s => s) (Nat.le_succ _) rfl
  | renew expires m current => exact h.keep current rfl rfl (fun _ s => s) le_rfl rfl
  | start m current => exact h.keep current rfl rfl (fun _ s => s) le_rfl rfl
  | release m stamp reason q current => exact h.keep current rfl rfl (fun _ s => s) le_rfl rfl
  | requeue m current => exact h.keep current rfl rfl (fun _ s => s) le_rfl rfl
  | reconcile r current =>
    refine h.keep current current rfl (fun c settled => ?_) le_rfl rfl
    simp only [TaskFile.Settled, List.any_append, Bool.or_eq_true] at settled ⊢
    exact .inl settled
  | checkpoint c m current active presented fenced task generation attempt sequence positive effect
      safe certain new =>
    have later := h.new_later current generation sequence
    refine ⟨nofun, ?_, ?_, ?_, ?_, ?_⟩
    · refine List.pairwise_append.mpr ⟨h.ordered, List.pairwise_singleton _ _, ?_⟩
      intro d hd e he
      rw [List.mem_singleton.mp he]
      exact later d hd
    · rintro _ ⟨⟩ d hd
      rcases List.mem_append.mp hd with old | last
      · exact h.generation _ current d old
      · rw [List.mem_singleton.mp last]
        exact ⟨positive, generation.le⟩
    · rintro _ ⟨⟩ d hd
      rcases List.mem_append.mp hd with old | last
      · exact h.named _ current d old
      · rw [List.mem_singleton.mp last]
        exact task
    · intro d hd
      rcases List.mem_append.mp hd with old | last
      · exact h.safe d old
      · rw [List.mem_singleton.mp last]
        exact safe
    · intro d hd e he declared same supersedes unknown
      rcases List.mem_append.mp hd with old | last
      · rcases List.mem_append.mp he with old' | last'
        · exact h.superseded d old e old' declared same supersedes unknown
        · obtain ⟨effectId, hid⟩ := Option.ne_none_iff_exists'.mp declared
          rw [List.mem_singleton.mp last'] at same
          have settled : f.Settled d :=
            settled_of_certain old hid unknown (certain effectId (same.trans hid))
          exact settled
      · rw [List.mem_singleton.mp last] at supersedes
        rcases List.mem_append.mp he with old' | last'
        · rw [Checkpoint.later_asymm (later e old')] at supersedes
          cases supersedes
        · rw [List.mem_singleton.mp last'] at supersedes
          have twice := Checkpoint.later_asymm supersedes
          rw [supersedes] at twice
          cases twice

/-- The current checkpoint of an effect: the last one written. -/
theorem latest_spec (h : EffectLedger f) {effectId : String} {d : Checkpoint} :
    f.latestOfEffect effectId = some d ↔ d ∈ f.checkpoints ∧ d.effectId = some effectId ∧
      ∀ c ∈ f.checkpoints, c.effectId = some effectId → c = d ∨ d.later c = true := by
  have ordered := h.ordered.filter fun c => decide (c.effectId = some effectId)
  rw [TaskFile.latestOfEffect, Table.first_of_pairwise ordered]
  constructor
  · intro last
    obtain ⟨rest, split_⟩ := List.getLast?_eq_some_iff.mp last
    have mem : d ∈ f.checkpoints.filter fun c => decide (c.effectId = some effectId) := by
      rw [split_]
      exact List.mem_append_right _ (List.mem_singleton.mpr rfl)
    obtain ⟨stored, effect⟩ := List.mem_filter.mp mem
    refine ⟨stored, of_decide_eq_true effect, fun c hc he => ?_⟩
    have picked : c ∈ f.checkpoints.filter fun c => decide (c.effectId = some effectId) :=
      List.mem_filter.mpr ⟨hc, decide_eq_true he⟩
    rw [split_] at picked ordered
    rcases List.mem_append.mp picked with earlier | same
    · exact .inr ((List.pairwise_append.mp ordered).2.2 c earlier d (List.mem_singleton.mpr rfl))
    · exact .inl (List.mem_singleton.mp same)
  · rintro ⟨stored, effect, top⟩
    have picked : d ∈ f.checkpoints.filter fun c => decide (c.effectId = some effectId) :=
      List.mem_filter.mpr ⟨stored, decide_eq_true effect⟩
    cases last : (f.checkpoints.filter fun c => decide (c.effectId = some effectId)).getLast? with
    | none =>
      rw [List.getLast?_eq_none_iff.mp last] at picked
      cases picked
    | some e =>
      obtain ⟨rest, split_⟩ := List.getLast?_eq_some_iff.mp last
      have mem := List.mem_of_getLast? last
      obtain ⟨stored', effect'⟩ := List.mem_filter.mp mem
      rcases top e stored' (of_decide_eq_true effect') with same | after
      · rw [same]
      · rw [split_] at picked ordered
        rcases List.mem_append.mp picked with earlier | same
        · have before := (List.pairwise_append.mp ordered).2.2 d earlier e
            (List.mem_singleton.mpr rfl)
          rw [Checkpoint.later_asymm after] at before
          cases before
        · rw [List.mem_singleton.mp same]

theorem one_task (h : EffectLedger f) {c d : Checkpoint} (hc : c ∈ f.checkpoints)
    (hd : d ∈ f.checkpoints) : c.taskId = d.taskId := by
  cases ht : f.task with
  | none =>
    rw [h.before ht] at hc
    cases hc
  | some t => exact (h.named t ht c hc).trans (h.named t ht d hd).symm

theorem comparable (h : EffectLedger f) {c d : Checkpoint} (hc : c ∈ f.checkpoints)
    (hd : d ∈ f.checkpoints) : c = d ∨ c.later d = true ∨ d.later c = true := by
  by_cases same : c = d
  · exact .inl same
  · refine .inr ?_
    have either : f.checkpoints.Pairwise fun a b => a.later b = true ∨ b.later a = true :=
      h.ordered.imp fun later => Or.inr later
    have symm : Std.Symm fun a b : Checkpoint => a.later b = true ∨ b.later a = true :=
      ⟨fun _ _ => Or.symm⟩
    exact either.forall hc hd same

/-- An effect is unresolved exactly when its current checkpoint leaves it undecided and no
reconciliation settles that checkpoint. -/
theorem unresolvedEffect_iff (h : EffectLedger f) {effectId : String} :
    f.UnresolvedEffect effectId ↔ ∃ d, f.latestOfEffect effectId = some d ∧
      d.effectState.undecided = true ∧ ¬ f.Settled d := by
  constructor
  · rintro ⟨c, hc, effect, open_⟩
    simp only [unresolvedAt, effect, Option.isSome_some, Bool.true_and, Bool.or_eq_true,
      Bool.and_eq_true, beq_iff_eq, Bool.not_eq_true'] at open_
    have unsettled : ¬ f.Settled c := by
      rcases open_ with ⟨-, absent⟩ | ⟨⟨-, absent⟩, -⟩ <;> simp [TaskFile.Settled, absent]
    have last : ∀ d ∈ f.checkpoints, d.effectId = some effectId → d.later c = false := by
      intro d hd he
      rcases open_ with ⟨unknown, -⟩ | ⟨-, none_later⟩
      · refine Bool.eq_false_iff.mpr fun later => unsettled ?_
        exact h.superseded c hc d hd (by simp [effect]) (he.trans effect.symm) later unknown
      · have passed := List.any_eq_false.mp none_later d hd
        have same : d.taskId = c.taskId := h.one_task hd hc
        simpa [same, he, effect] using passed
    refine ⟨c, h.latest_spec.mpr ⟨hc, effect, fun d hd he => ?_⟩, ?_, unsettled⟩
    · rcases h.comparable hd hc with same | later | earlier
      · exact .inl same
      · rw [last d hd he] at later
        cases later
      · exact .inr earlier
    · rcases open_ with ⟨unknown, -⟩ | ⟨⟨pending, -⟩, -⟩
      · simp [unknown, EffectState.undecided]
      · simp [pending, EffectState.undecided]
  · rintro ⟨d, latest, undecided, unsettled⟩
    obtain ⟨stored, effect, top⟩ := h.latest_spec.mp latest
    refine ⟨d, stored, effect, ?_⟩
    have absent : (f.reconciliations.any fun r => r.settles d) = false :=
      Bool.eq_false_iff.mpr unsettled
    have none_later : (f.checkpoints.any fun c => c.taskId == d.taskId && c.effectId == d.effectId &&
        c.later d) = false := by
      refine List.any_eq_false.mpr fun c hc later => ?_
      simp only [Bool.and_eq_true, beq_iff_eq] at later
      rcases top c hc (later.1.2.trans effect) with rfl | after
      · have twice := Checkpoint.later_asymm later.2
        rw [later.2] at twice
        cases twice
      · rw [Checkpoint.later_asymm after] at later
        cases later.2
    cases state : d.effectState <;>
      simp_all [unresolvedAt, EffectState.undecided]

end EffectLedger

/-- Every reachable state keeps the ledger of effects of every task. -/
theorem file_effectLedger {rt : Runtime} {s : Pool} (h : (pool rt).Reachable s) (taskId : String) :
    EffectLedger (s.db.file taskId) :=
  reachable_file EffectLedger.empty (fun _ _ _ => EffectLedger.does) h taskId

end WorkerPool
