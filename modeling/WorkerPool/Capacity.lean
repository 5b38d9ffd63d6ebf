import WorkerPool.Passes

/-!
# Lane capacity

The number of active tasks of a repository against the limit of its lane. A builder's
claim looks for room; `requeue_blocked` of a task with a revision does not, and can put
one task more into its lane than the limit allows.
-/

namespace WorkerPool

open PyText Transaction Transaction.Tx Transition
open Transition.System (Reachable Steps restrict)
open Relation (ReflTransGen)

/-- The lane of the repository, if there is one, has no more active tasks than its limit;
without a lane there is no active task. -/
structure Db.WithinCapacity (db : Db) (repository : String) : Prop where
  limited : ∀ n ∈ db.limit repository, db.inFlight repository ≤ n
  unopened : db.limit repository = none → db.inFlight repository = 0

/-- The limit of the lane is not lowered. -/
def NeverLowered (repository : String) (db db' : Db) : Prop :=
  ∀ n ∈ db.limit repository, ∃ n' ∈ db'.limit repository, n ≤ n'

/-- A `requeue_blocked` that would return a task with a revision to validation finds an
unused place in its lane. -/
def RequeuesWithRoom (repository : String) (db : Db) (op : Op) : Prop :=
  ∀ taskId correlationId, op = .requeueBlocked taskId correlationId →
    ∀ t ∈ (db.file taskId).task, t.repository = repository → t.state = .blocked →
      truthy t.producedSha = true → ¬ (db.file taskId).InDoubt t →
      ∃ n ∈ db.limit repository, db.inFlight repository < n

/-- The call that sets the limit of a lane. -/
def Op.configures : Op → Bool
  | .configureRepository .. => true
  | _ => false

/-- The call that returns a blocked task to work. -/
def Op.requeues : Op → Bool
  | .requeueBlocked .. => true
  | _ => false

/-! ### Counting -/

section Counting

variable {db db' : Db} {repository : String}

/-- Where every active task of a repository was active before, but for those listed. -/
theorem inFlight_le (extra : List String)
    (h : ∀ taskId, ∀ t' ∈ (db'.file taskId).task, t'.repository = repository →
      t'.state.active = true → taskId ∈ extra ∨
        ∃ t ∈ (db.file taskId).task, t.repository = repository ∧ t.state.active = true) :
    db'.inFlight repository ≤ db.inFlight repository + extra.length := by
  refine Table.countP_le extra fun t' ht' passes => ?_
  obtain ⟨repo, active⟩ := Bool.and_eq_true_iff.mp passes
  rcases h t'.taskId t' (Db.current_of_mem ht') (of_decide_eq_true repo) active with new | old
  · exact .inl new
  · obtain ⟨t, ht, repo, active⟩ := old
    obtain ⟨mem, same⟩ := Db.mem_file_task.mp ht
    exact .inr ⟨t, mem, same, by simp [repo, active]⟩

theorem inFlight_still (files : ∀ taskId, db'.file taskId = db.file taskId) :
    db'.inFlight repository ≤ db.inFlight repository := by
  refine inFlight_le [] fun taskId t' ht' repo active => .inr ⟨t', ?_, repo, active⟩
  rw [← files]
  exact ht'

/-- How a task becomes active, or stays so: a builder's grant, the requeue of a task with
a revision, or an act on a task that was active. -/
theorem Does.activates {f f' : TaskFile} {act : Act} {t' : Task} (h : Does f act f')
    (ht : t' ∈ f'.task) (active : t'.state.active = true) :
    (∃ t ∈ f.task, t.repository = t'.repository ∧ t.state.active = true) ∨
      (∃ g, act = .grant g ∧ g.role = .builder ∧ ∃ t ∈ f.task, t.repository = t'.repository) ∨
      act = .requeue ∧ ∃ t ∈ f.task, t.repository = t'.repository ∧ t.state = .blocked ∧
        truthy t.producedSha = true ∧ ¬ f.InDoubt t := by
  cases h with
  | enqueue absent admitted =>
    cases ht
    rw [admitted.state] at active
    cases active
  | @grant t g current wanted =>
    cases ht
    cases hr : g.role with
    | builder => exact .inr (.inl ⟨g, rfl, hr, t, current, rfl⟩)
    | validator => exact .inl ⟨t, current, rfl, by rw [wanted, hr]; rfl⟩
  | renew expires m current before =>
    cases ht
    exact .inl ⟨_, current, rfl, before⟩
  | start m current leased =>
    cases ht
    exact .inl ⟨_, current, rfl, by rw [leased]; rfl⟩
  | release m stamp reason q current before =>
    cases ht
    exact .inl ⟨_, current, rfl, before⟩
  | checkpoint c m current before =>
    cases ht
    exact .inl ⟨_, current, rfl, before⟩
  | reconcile => exact .inl ⟨t', ht, rfl, active⟩
  | @requeue t m current blocked settled =>
    cases ht
    refine .inr (.inr ⟨rfl, t, current, rfl, blocked, ?_, settled⟩)
    by_contra absent
    simp [Task.marked, Task.resumeState, absent, TaskState.active] at active

end Counting

/-! ### Steps -/

section Steps

variable {rt : Runtime} {db db' : Db} {repository : String} {op : Op}

/-- A count that does not grow stays within a limit that is not lowered. -/
theorem Db.WithinCapacity.shrink (h : db.WithinCapacity repository)
    (count : db'.inFlight repository ≤ db.inFlight repository)
    (limit : NeverLowered repository db db') : db'.WithinCapacity repository := by
  cases hl : db.limit repository with
  | none =>
    have empty := h.unopened hl
    exact ⟨fun n _ => by omega, fun _ => by omega⟩
  | some n =>
    obtain ⟨n', hn', le⟩ := limit n hl
    have before := h.limited n hl
    refine ⟨fun k hk => ?_, fun absent => ?_⟩
    · cases Option.some.inj (hn'.symm.trans hk)
      omega
    · cases hn'.symm.trans absent

/-- An act keeps the capacity where it activates nothing, or finds room to do so. -/
theorem Db.Acts.withinCapacity {taskId : String} {act : Act} (h : db.WithinCapacity repository)
    (acts : db.Acts taskId act db')
    (room : act = .requeue → ∀ t ∈ (db.file taskId).task, t.repository = repository →
      t.state = .blocked → truthy t.producedSha = true → ¬ (db.file taskId).InDoubt t →
      ∃ n ∈ db.limit repository, db.inFlight repository < n) :
    db'.WithinCapacity repository := by
  have others : ∀ other, other ≠ taskId → ∀ t' ∈ (db'.file other).task,
      t' ∈ (db.file other).task := by
    intro other ne t' ht'
    rw [← acts.others other ne]
    exact ht'
  by_cases activated : ∃ n ∈ db.limit repository, db.inFlight repository < n
  · obtain ⟨n, hn, lt⟩ := activated
    have count : db'.inFlight repository ≤ db.inFlight repository + [taskId].length := by
      refine inFlight_le [taskId] fun other t' ht' repo active => ?_
      by_cases same : other = taskId
      · exact .inl (List.mem_singleton.mpr same)
      · exact .inr ⟨t', others other same t' ht', repo, active⟩
    rw [List.length_singleton] at count
    refine ⟨fun k hk => ?_, fun absent => ?_⟩
    · rw [acts.limits] at hk
      cases Option.some.inj (hn.symm.trans hk)
      omega
    · rw [acts.limits] at absent
      cases hn.symm.trans absent
  · have count : db'.inFlight repository ≤ db.inFlight repository := by
      refine inFlight_le [] fun other t' ht' repo active => .inr ?_
      by_cases same : other = taskId
      · subst same
        rcases acts.file.activates ht' active with old | ⟨g, rfl, builder, t, ht, same⟩ |
          ⟨rfl, t, ht, same, blocked, produced, settled⟩
        · obtain ⟨t, ht, same, before⟩ := old
          exact ⟨t, ht, same.trans repo, before⟩
        · have free := acts.room g rfl builder t ht
          rw [same.trans repo] at free
          exact absurd free activated
        · exact absurd (room rfl t ht (same.trans repo) blocked produced settled) activated
      · exact ⟨t', others other same t' ht', repo, active⟩
    refine h.shrink count fun n hn => ⟨n, ?_, le_refl n⟩
    rw [acts.limits]
    exact hn

theorem Db.Still.neverLowered (h : Db.Still op db db') (other : op.configures = false) :
    NeverLowered repository db db' := by
  rcases h.limits with ⟨r, e, m, rfl⟩ | kept
  · cases other
  · exact fun n hn => ⟨n, kept repository n hn, le_refl n⟩

/-- Every call but a configuration and a requeue keeps the capacity by itself. -/
theorem path_withinCapacity (h : db.WithinCapacity repository)
    (path : ReflTransGen (Db.Move rt op) db db')
    (notConfigure : op.configures = false) (notRequeue : op.requeues = false) :
    db'.WithinCapacity repository := by
  induction path with
  | refl => exact h
  | tail _ move ih =>
    cases move with
    | still still => exact ih.shrink (inFlight_still still.files) (still.neverLowered notConfigure)
    | act may acts =>
      refine acts.withinCapacity ih ?_
      rintro rfl
      cases may
      cases notRequeue

/-- A configuration moves no file. -/
theorem path_configure {r : String} {e : Bool} {m : Int}
    (path : ReflTransGen (Db.Move rt (.configureRepository r e m)) db db') (taskId : String) :
    db'.file taskId = db.file taskId := by
  refine path_file (P := fun f => f = db.file taskId) ?_ path rfl
  intro f act f' may
  cases may with
  | expiry recovers => cases recovers
  | watchdog recovers => cases recovers

/-- A requeue keeps the capacity where it finds room. -/
theorem requeue_withinCapacity {s s' : Pool} {c : Call} {taskId correlationId : String}
    (h : s.db.WithinCapacity repository)
    (st : (pool rt).step s (c, .requeueBlocked taskId correlationId) s')
    (room : RequeuesWithRoom repository s.db (.requeueBlocked taskId correlationId)) :
    s'.db.WithinCapacity repository := by
  have atomic : ((Op.requeueBlocked taskId correlationId).run rt c).Atomic s.db
      fun _ db' => s.db.Acts taskId .requeue db' := by
    refine .map (requeueBlocked_atomic.mono ?_)
    rintro t db' ⟨⟨_, rfl, acts⟩, -⟩
    exact acts
  obtain ⟨-, rfl⟩ := st
  rcases yields_or_fails ((Op.requeueBlocked taskId correlationId).run rt c) s.db with
    ⟨r, db', returned⟩ | ⟨e, db', raised⟩
  · have stop : (s.after rt c (.requeueBlocked taskId correlationId)).db = db' :=
      congrArg Prod.snd returned
    rw [stop]
    exact (atomic.returns returned).withinCapacity h fun _ => room taskId correlationId rfl
  · have stop : (s.after rt c (.requeueBlocked taskId correlationId)).db = db' :=
      congrArg Prod.snd raised
    rw [stop, atomic.raises raised]
    exact h

theorem step_withinCapacity {s s' : Pool} {c : Call} (reach : (pool rt).Reachable s)
    (h : s.db.WithinCapacity repository) (st : (pool rt).step s (c, op) s')
    (limit : NeverLowered repository s.db s'.db) (room : RequeuesWithRoom repository s.db op) :
    s'.db.WithinCapacity repository := by
  have path := step_moves (reachable_owned reach) st
  cases op with
  | configureRepository r e m => exact h.shrink (inFlight_still (path_configure path)) limit
  | requeueBlocked taskId correlationId => exact requeue_withinCapacity h st room
  | _ => exact path_withinCapacity h path rfl rfl

/-- Only a configuration can lower a limit. -/
theorem step_neverLowered {s s' : Pool} {l : Call × Op} (reach : (pool rt).Reachable s)
    (st : (pool rt).step s l s') (other : l.2.configures = false) :
    NeverLowered repository s.db s'.db := by
  have path := step_moves (reachable_owned reach) st
  generalize s'.db = last at path ⊢
  induction path with
  | refl => exact fun n hn => ⟨n, hn, le_refl n⟩
  | tail _ move ih =>
    intro n hn
    obtain ⟨mid, hmid, le⟩ := ih n hn
    cases move with
    | still still =>
      obtain ⟨n', hn', le'⟩ := still.neverLowered other mid hmid
      exact ⟨n', hn', le.trans le'⟩
    | act may acts => exact ⟨mid, (acts.limits repository).trans hmid, le⟩

/-- In every run whose requeues of tasks with a revision find room, a lane whose limit is
never lowered is never over it. -/
theorem lane_capacity {s : Pool} (h : ((pool rt).restrict fun s l s' =>
      NeverLowered repository s.db s'.db ∧ RequeuesWithRoom repository s.db l.2).Reachable s) :
    ∀ n ∈ s.db.limit repository, s.db.inFlight repository ≤ n := by
  have within : s.db.WithinCapacity repository := by
    refine h.strengthen (P := fun s => s.db.WithinCapacity repository)
      (fun _ reach => Reachable.of_restrict reach) ?_ ?_
    · rintro _ rfl
      exact ⟨nofun, fun _ => rfl⟩
    · rintro s l s' reach within ⟨st, limit, room⟩
      exact step_withinCapacity reach within st limit room
  exact within.limited

/-- A run with a task under validation stays within the limit of one. -/
theorem validating_capacity : (Pool.empty.run .ascii Sample.validating).db.inFlight "o/r" ≤ 1 := by
  have plain : ∀ l ∈ Sample.validating, l.2.configures = false ∧ l.2.requeues = false := by decide
  have reach : ((pool .ascii).restrict fun s l s' => NeverLowered "o/r" s.db s'.db ∧
      RequeuesWithRoom "o/r" s.db l.2).Reachable (Pool.empty.run .ascii Sample.validating) := by
    refine Pool.reachable_restrict_run (by decide) fun l hl s s' reach st => ?_
    refine ⟨step_neverLowered reach st (plain l hl).1, fun taskId correlationId requeue => ?_⟩
    have other := (plain l hl).2
    rw [requeue] at other
    cases other
  exact lane_capacity reach 1 (by decide +kernel)

/-- A task with its revision blocked, another task claimed in its place, and the first
one returned to validation. -/
def overfull : List (Call × Op) :=
  Sample.validating ++ [Sample.block (Sample.credential "v1" (Sample.uuid 'c') (Sample.uuid 'd') 2),
    Sample.enqueue true "r2", Sample.claim "b1" "builder" true (Sample.uuid 'e') (Sample.uuid 'f'),
    Sample.requeue]

/-- The limit of a lane is not respected in every run that never lowers it. -/
theorem requeue_exceeds_capacity :
    ¬ ∀ (s : Pool) (repository : String), ((pool .ascii).restrict fun s _ s' =>
      NeverLowered repository s.db s'.db).Reachable s →
      ∀ n ∈ s.db.limit repository, s.db.inFlight repository ≤ n := by
  intro claim
  have plain : ∀ l ∈ overfull, l.2.configures = false := by decide
  have reach : ((pool .ascii).restrict fun s _ s' => NeverLowered "o/r" s.db s'.db).Reachable
      (Pool.empty.run .ascii overfull) :=
    Pool.reachable_restrict_run (by decide) fun l hl s s' reach st =>
      step_neverLowered reach st (plain l hl)
  have exceeded := claim _ "o/r" reach 1 (by decide +kernel)
  revert exceeded
  decide +kernel

end Steps

end WorkerPool
