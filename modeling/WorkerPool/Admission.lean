import WorkerPool.LifeCycle

/-!
# Admission and the identity of a task

`enqueue_task` finds its task by a digest of three fields joined by `|`. Two calls share a
task when their joined texts are equal, and a call that finds its task has already ensured
the lane of its own spelling of the repository.
-/

namespace WorkerPool

open PyText Transaction Transaction.Tx

/-- The task is stored under the name that its key gives. -/
def Task.Named (t : Task) : Prop := t.taskId = taskIdOf t.idempotencyKey

/-! ### The call -/

section Call

variable {rt : Runtime} {c : Call} {a : EnqueueTask} {db db' : Db} {row : Task} {r : Task × Bool}

def EnqueueTask.key (rt : Runtime) (a : EnqueueTask) : String :=
  identity rt a.repository a.issueNumber a.requestId

/-- The database once the lane of a repository is there. -/
def Db.ensured (db : Db) (c : Call) (repository : String) : Db :=
  (ensureRepositoryLane c repository db).2

theorem Db.ensured_eq_self_iff {repository : String} :
    db.ensured c repository = db ↔ db.lanes.find? repository ≠ none := by
  constructor
  · intro same
    exact Table.insertOrIgnore_eq_self_iff.mp (congrArg Db.lanes same)
  · intro stored
    unfold Db.ensured ensureRepositoryLane write
    simp only
    rw [Table.insertOrIgnore_eq_self_iff.mpr stored]

/-- What a call of `enqueue_task` must meet to be answered with a stored row. -/
structure EnqueueTask.Replays (rt : Runtime) (c : Call) (a : EnqueueTask) (db : Db) (row : Task) :
    Prop where
  shape : '/' ∈ a.repository.toList ∧ 1 ≤ a.issueNumber ∧ strip a.requestId ≠ "" ∧
    strip a.correlationId ≠ ""
  base : ∀ sha ∈ (a.baseSha.bind orNone).map rt.lower, isSha40 sha = true
  branch : ∃ branch, taskBranch rt a = .ok branch ∧ (a.targetBranch ≠ none → row.branch = branch)
  attempts : 1 ≤ orDefault a.maxAttempts c.store.defaultMaxAttempts
  cutover : a.fencingRequired → db.cutover.enabled
  fencing : row.fencingRequired = a.fencingRequired

theorem ensureRepositoryLane_yields {repository : String} {u : Unit} :
    (ensureRepositoryLane c repository).Yields db u db' ↔ db' = db.ensured c repository :=
  write_yields

/-- A call whose key is stored returns the stored row, its lane ensured, or is refused. -/
theorem enqueueTask_found
    (found : (db.tasks.rows.find? fun t => t.idempotencyKey = a.key rt) = some row) :
    (enqueueTask rt c a).Yields db r db' ↔
      a.Replays rt c db row ∧ r = (row, false) ∧ db' = db.ensured c (strip a.repository) := by
  have still : ((db.ensured c (strip a.repository)).tasks.rows.find? fun t =>
      t.idempotencyKey = a.key rt) = some row := found
  simp only [enqueueTask, bind_yields, require_yields, ofExcept_yields, atomically_yields,
    read_yields, ensureRepositoryLane_yields]
  constructor
  · rintro ⟨_, _, ⟨shape, rfl⟩, _, _, ⟨base, rfl⟩, branch, _, ⟨named, rfl⟩, _, _, ⟨attempts, rfl⟩,
      _, _, ⟨rfl, rfl⟩, _, db, ⟨cutover, rfl⟩, _, _, rfl, existing, _, ⟨picked, rfl⟩, rest⟩
    obtain rfl := picked.trans still
    simp only [bind_yields, require_yields, pure_yields] at rest
    obtain ⟨_, _, ⟨target, rfl⟩, _, _, ⟨fencing, rfl⟩, rfl, rfl⟩ := rest
    exact ⟨⟨shape, base, ⟨branch, named, target⟩, attempts, cutover, fencing⟩, rfl, rfl⟩
  · rintro ⟨⟨shape, base, ⟨branch, named, target⟩, attempts, cutover, fencing⟩, rfl, rfl⟩
    refine ⟨(), db, ⟨shape, rfl⟩, (), db, ⟨base, rfl⟩, branch, db, ⟨named, rfl⟩, (), db,
      ⟨attempts, rfl⟩, _, db, ⟨rfl, rfl⟩, (), db, ⟨cutover, rfl⟩, (), _, rfl, some row, _,
      ⟨still.symm, rfl⟩, ?_⟩
    simp only [bind_yields, require_yields, pure_yields]
    exact ⟨(), _, ⟨target, rfl⟩, (), _, ⟨fencing, rfl⟩, trivial, rfl⟩

/-- The row returned is stored under the key of the call, or new under the name of that key. -/
theorem enqueueTask_keyed (h : (enqueueTask rt c a).Yields db r db') :
    r.1.idempotencyKey = a.key rt ∧
      (r.1 ∈ db.tasks.rows ∨ r.1.taskId = taskIdOf (a.key rt)) := by
  simp only [enqueueTask, bind_yields, require_yields, ofExcept_yields, atomically_yields,
    read_yields, ensureRepositoryLane_yields] at h
  obtain ⟨_, _, ⟨_, rfl⟩, _, _, ⟨_, rfl⟩, branch, _, ⟨_, rfl⟩, _, _, ⟨_, rfl⟩,
    _, _, ⟨rfl, rfl⟩, _, db, ⟨_, rfl⟩, _, _, rfl, existing, _, ⟨found, rfl⟩, rest⟩ := h
  cases existing with
  | some row =>
    simp only [bind_yields, require_yields, pure_yields] at rest
    obtain ⟨_, _, ⟨_, rfl⟩, _, _, ⟨_, rfl⟩, rfl, rfl⟩ := rest
    have key : row.idempotencyKey = identity rt a.repository a.issueNumber a.requestId := by
      simpa using List.find?_some found.symm
    exact ⟨key, .inl (List.mem_of_find?_eq_some found.symm)⟩
  | none =>
    simp only [bind_yields, getTask_yields, pure_yields] at rest
    obtain ⟨_, _, inserted, row, _, ⟨stored, rfl⟩, rfl, rfl⟩ := rest
    obtain ⟨writes, -⟩ := insertTask_writes inserted
    obtain rfl := Option.some.inj ((congrArg TaskFile.task writes.file).symm.trans stored)
    exact ⟨rfl, .inr rfl⟩

end Call

/-! ### Names -/

section Named

open Transition.System (Reachable)

variable {rt : Runtime} {s s' : Pool} {c : Call} {a : EnqueueTask}

/-- The columns that no statement writes again. -/
structure Task.SameIdentity (t t' : Task) : Prop where
  taskId : t'.taskId = t.taskId
  key : t'.idempotencyKey = t.idempotencyKey

/-- No act takes a task away or changes what identifies it. -/
theorem Does.identified {f f' : TaskFile} {act : Act} (h : Does f act f') {t : Task}
    (ht : f.task = some t) : ∃ t', f'.task = some t' ∧ t.SameIdentity t' := by
  have same : ∀ {u u' : Task}, f.task = some u → u'.taskId = u.taskId →
      u'.idempotencyKey = u.idempotencyKey → t.SameIdentity u' := by
    intro u u' hu taskId key
    obtain rfl := Option.some.inj (hu.symm.trans ht)
    exact ⟨taskId, key⟩
  cases h with
  | enqueue absent => cases absent.symm.trans ht
  | grant current => exact ⟨_, rfl, same current rfl rfl⟩
  | renew expires m current => exact ⟨_, rfl, same current rfl rfl⟩
  | start m current => exact ⟨_, rfl, same current rfl rfl⟩
  | release m stamp reason q current => exact ⟨_, rfl, same current rfl rfl⟩
  | checkpoint c m current => exact ⟨_, rfl, same current rfl rfl⟩
  | reconcile r current => exact ⟨t, ht, ⟨rfl, rfl⟩⟩
  | requeue m current => exact ⟨_, rfl, same current rfl rfl⟩

/-- What holds of the identity of every task that is admitted. -/
structure Runtime.Identifies (rt : Runtime) (P : Task → Prop) : Prop where
  respects : ∀ {t t'}, Task.SameIdentity t t' → P t → P t'
  admits : ∀ {t} (a : EnqueueTask), t.idempotencyKey = a.key rt → t.taskId = taskIdOf (a.key rt) →
    P t

variable {P : Task → Prop}

/-- An act keeps a property of the identity, and brings it if the task it admits has it. -/
theorem Does.keeps_identity (identifies : rt.Identifies P) {f f' : TaskFile} {act : Act}
    (h : Does f act f') (new : ∀ t, act = .enqueue t → P t) (holds : ∀ t ∈ f.task, P t) :
    ∀ t ∈ f'.task, P t := by
  intro t' ht'
  cases ht : f.task with
  | some t =>
    obtain ⟨_, stored, same⟩ := h.identified ht
    obtain rfl := Option.some.inj (stored.symm.trans ht')
    exact identifies.respects same (holds t ht)
  | none =>
    cases h with
    | enqueue absent admitted =>
      cases ht'
      exact new _ rfl
    | grant current | renew _ _ current | start _ current | release _ _ _ _ current
    | checkpoint _ _ current | reconcile _ current | requeue _ current =>
      cases current.symm.trans ht

theorem enqueueTask_identity (identifies : rt.Identifies P) {db db' : Db} {r : Task × Bool}
    (holds : ∀ taskId, ∀ t ∈ (db.file taskId).task, P t)
    (h : (enqueueTask rt c a).Yields db r db') (taskId : String) :
    ∀ t ∈ (db'.file taskId).task, P t := by
  obtain ⟨key, stored⟩ := enqueueTask_keyed h
  have row : P r.1 := by
    rcases stored with old | new
    · exact holds r.1.taskId r.1 (Db.current_of_mem old)
    · exact identifies.admits a key new
  obtain ⟨mid, still, ⟨-, rfl⟩ | ⟨-, acts⟩⟩ := enqueueTask_atomic.returns h
  · rw [(still .reconcile).files taskId]
    exact holds taskId
  · by_cases mine : taskId = r.1.taskId
    · subst mine
      refine acts.file.keeps_identity identifies ?_ ?_
      · rintro t ⟨⟩
        exact row
      · rw [(still .reconcile).files]
        exact holds _
    · rw [acts.others taskId mine, (still .reconcile).files taskId]
      exact holds taskId

theorem file_identity (identifies : rt.Identifies P) (h : (pool rt).Reachable s)
    (taskId : String) : ∀ t ∈ (s.db.file taskId).task, P t := by
  refine h.strengthen (P := fun s => ∀ taskId, ∀ t ∈ (s.db.file taskId).task, P t)
    (fun _ reach => reach) ?_ ?_ taskId
  · rintro _ rfl taskId t ht
    cases ht
  · rintro s ⟨c, op⟩ s' reach holds st taskId
    by_cases call : ∃ a, op = .enqueueTask a
    · obtain ⟨a, rfl⟩ := call
      by_cases changed : s'.db.file taskId = s.db.file taskId
      · rw [changed]
        exact holds taskId
      · obtain ⟨r, returned⟩ := step_returned reach st changed
        obtain ⟨row, _, accepted, ended⟩ := bind_yields.mp returned
        obtain ⟨-, rfl⟩ := pure_yields.mp ended
        exact enqueueTask_identity identifies holds accepted taskId
    · refine path_file (P := fun f => ∀ t ∈ f.task, P t) ?_
        (step_moves (reachable_owned reach) st) (holds taskId)
      intro f act f' may holds does
      refine does.keeps_identity identifies ?_ holds
      rintro t rfl
      cases may with
      | enqueue => exact absurd ⟨_, rfl⟩ call

/-- Every task has the name of its key. -/
theorem file_named (h : (pool rt).Reachable s) (taskId : String) :
    ∀ t ∈ (s.db.file taskId).task, t.Named := by
  refine file_identity ⟨fun same named => ?_, fun a key name => ?_⟩ h taskId
  · rw [Task.Named, same.taskId, same.key]
    exact named
  · rw [Task.Named, name, key]

theorem isTaskId_taskIdOf {key : String} (h : hexRun 64 key = true) : isTaskId (taskIdOf key) = true := by
  obtain ⟨length, digits⟩ := Bool.and_eq_true_iff.mp h
  rw [beq_iff_eq] at length
  have chars : (taskIdOf key).toList = ['c', 'w', 'p', '-'] ++ key.toList.take 24 := by
    simp [taskIdOf, prefixOf]
  have hex : (key.toList.take 24).all isLowerHex = true := by
    rw [List.all_eq_true] at digits ⊢
    exact fun c hc => digits c (List.mem_of_mem_take hc)
  simp only [isTaskId, hexRun, chars, Bool.and_eq_true]
  refine ⟨rfl, ?_, ?_⟩
  · simp [length]
  · simpa using hex

/-- The name of every task has the shape that the store asks for. -/
theorem file_isTaskId (h : (pool rt).Reachable s) (taskId : String) :
    ∀ t ∈ (s.db.file taskId).task, isTaskId t.taskId = true := by
  refine file_identity (P := fun t => isTaskId t.taskId = true) ⟨fun same shape => ?_,
    fun a key name => ?_⟩ h taskId
  · rw [same.taskId]
    exact shape
  · rw [name]
    exact isTaskId_taskIdOf (rt.sha256_hex _)

/-- The task that `enqueue_task` returns has the name of the call's key. -/
theorem enqueueTask_taskId (h : (pool rt).Reachable s) {r : Task × Bool} {db' : Db}
    (accepted : (enqueueTask rt c a).Yields s.db r db') : r.1.taskId = taskIdOf (a.key rt) := by
  obtain ⟨key, stored | new⟩ := enqueueTask_keyed accepted
  · rw [← key]
    exact file_named h r.1.taskId r.1 (Db.current_of_mem stored)
  · exact new

end Named

/-! ### Identity -/

section Identity

open Transition.System (Reachable)

variable {rt : Runtime} {s s' : Pool} {c c' : Call} {a a' : EnqueueTask}

/-- The repository stripped and in lower case, the issue, the request stripped. -/
def EnqueueTask.triple (rt : Runtime) (a : EnqueueTask) : String × Int × String :=
  (rt.lower (strip a.repository), a.issueNumber, strip a.requestId)

def EnqueueTask.text (rt : Runtime) (a : EnqueueTask) : String :=
  identityText rt a.repository a.issueNumber a.requestId

/-- The repository of `a` begins with that of `a'`, a `|` and the issue of `a'`; what it goes on
with, the issue and the request of `a` are together what the request of `a'` is. -/
def EnqueueTask.Absorbs (rt : Runtime) (a a' : EnqueueTask) : Prop :=
  PyText.Absorbs '|' (rt.lower (strip a.repository)).toList (toString a.issueNumber).toList
    (strip a.requestId).toList (rt.lower (strip a'.repository)).toList
    (toString a'.issueNumber).toList (strip a'.requestId).toList

/-- The first 96 bits of the digest tell the two texts apart. -/
def Runtime.NoCollision (rt : Runtime) (text text' : String) : Prop :=
  taskIdOf (rt.sha256 text) = taskIdOf (rt.sha256 text') → text = text'

theorem toString_digits (n : Nat) : (toString (n : Int)).toList = Nat.toDigits 10 n := by
  change (toString n).toList = _
  rw [Nat.toString_eq_ofList_toDigits, String.toList_ofList]

theorem toString_free {n : Int} (positive : 1 ≤ n) : '|' ∉ (toString n).toList := by
  obtain ⟨m, rfl⟩ := Int.eq_ofNat_of_zero_le (by omega : 0 ≤ n)
  intro bar
  rw [toString_digits] at bar
  exact absurd (Nat.isDigit_of_mem_toDigits (by decide) (by decide) bar) (by decide)

theorem toString_inj {n m : Int} (positive : 1 ≤ n) (positive' : 1 ≤ m) :
    toString n = toString m ↔ n = m := by
  obtain ⟨k, rfl⟩ := Int.eq_ofNat_of_zero_le (by omega : 0 ≤ n)
  obtain ⟨l, rfl⟩ := Int.eq_ofNat_of_zero_le (by omega : 0 ≤ m)
  constructor
  · intro same
    have digits := congrArg String.toList same
    rw [toString_digits, toString_digits] at digits
    have value := congrArg (fun cs => Nat.ofDigitChars 10 cs 0) digits
    simp only [Nat.ofDigitChars_ten_toDigits] at value
    rw [value]
  · intro same
    rw [same]

theorem EnqueueTask.text_eq_iff (issue : 1 ≤ a.issueNumber) (issue' : 1 ≤ a'.issueNumber) :
    a.text rt = a'.text rt ↔ a.triple rt = a'.triple rt ∨ a.Absorbs rt a' ∨ a'.Absorbs rt a := by
  have joined : ∀ b : EnqueueTask, (b.text rt).toList = (rt.lower (strip b.repository)).toList ++
      '|' :: ((toString b.issueNumber).toList ++ '|' :: (strip b.requestId).toList) := by
    intro b
    simp [EnqueueTask.text, identityText, String.toList_append]
  rw [← String.toList_inj, joined, joined, joined_eq_iff (toString_free issue)
    (toString_free issue')]
  refine or_congr_left ?_
  rw [EnqueueTask.triple, EnqueueTask.triple, Prod.mk.injEq, Prod.mk.injEq, String.toList_inj,
    String.toList_inj, String.toList_inj, toString_inj issue issue']

/-- A call that is accepted names a positive issue. -/
theorem enqueueTask_issue {db db' : Db} {r : Task × Bool}
    (accepted : (enqueueTask rt c a).Yields db r db') : 1 ≤ a.issueNumber := by
  obtain ⟨_, _, shape, -⟩ := bind_yields.mp accepted
  exact (require_yields.mp shape).1.2.1

/-- Two accepted calls share a task exactly when their identities are equal, unless the
repository of one absorbs the issue of the other. -/
theorem task_identity (h : (pool rt).Reachable s) (h' : (pool rt).Reachable s')
    {r r' : Task × Bool} {db db' : Db} (accepted : (enqueueTask rt c a).Yields s.db r db)
    (accepted' : (enqueueTask rt c' a').Yields s'.db r' db')
    (distinct : rt.NoCollision (a.text rt) (a'.text rt)) :
    (r.1.taskId = r'.1.taskId ↔ a.triple rt = a'.triple rt) ↔
      ¬ a.Absorbs rt a' ∧ ¬ a'.Absorbs rt a := by
  have texts : r.1.taskId = r'.1.taskId ↔ a.text rt = a'.text rt := by
    rw [enqueueTask_taskId h accepted, enqueueTask_taskId h' accepted']
    exact ⟨distinct, fun same => congrArg (fun text => taskIdOf (rt.sha256 text)) same⟩
  have apart : ∀ {b b' : EnqueueTask}, b.Absorbs rt b' → b.triple rt ≠ b'.triple rt := by
    intro b b' absorbs same
    exact absorbs.ne (congrArg (fun triple => triple.1.toList) same)
  rw [texts, EnqueueTask.text_eq_iff (enqueueTask_issue accepted) (enqueueTask_issue accepted')]
  constructor
  · intro agree
    exact ⟨fun absorbs => apart absorbs (agree.mp (.inr (.inl absorbs))),
      fun absorbs => apart absorbs (agree.mp (.inr (.inr absorbs))).symm⟩
  · rintro ⟨free, free'⟩
    constructor
    · rintro (same | absorbs | absorbs)
      · exact same
      · exact absurd absorbs free
      · exact absurd absorbs free'
    · exact .inl

namespace Sample

open PyText

/-- An unfenced request with the defaults of the store. -/
def request (repository : String) (issueNumber : Int) (requestId : String) : EnqueueTask :=
  ⟨repository, issueNumber, requestId, "corr", 100, none, none, none, false⟩

def admission (a : EnqueueTask) : Call × Op := (.at start, .enqueueTask a)

theorem accepted (db : Db) (a : EnqueueTask)
    (h : (enqueueTask .ascii (.at start) a).test db (fun _ _ => true) = true) :
    ∃ r db', (enqueueTask .ascii (.at start) a).Yields db r db' := by
  obtain ⟨r, db', yielded, -⟩ := test_iff.mp h
  exact ⟨r, db', yielded⟩

end Sample

/-- Two requests on one issue are two tasks. -/
theorem requests_told_apart :
    let a := Sample.request "o/r" 1 "r1"
    let a' := Sample.request "o/r" 1 "r2"
    let s := Pool.empty.run .ascii [Sample.admission a]
    ∃ r r' db db', (enqueueTask .ascii (.at Sample.start) a).Yields Pool.empty.db r db ∧
      (enqueueTask .ascii (.at Sample.start) a').Yields s.db r' db' ∧
      (r.1.taskId = r'.1.taskId ↔ a.triple .ascii = a'.triple .ascii) := by
  intro a a' s
  have reach : (pool .ascii).Reachable s := Pool.reachable_run (by decide)
  have distinct : Runtime.ascii.NoCollision (a.text .ascii) (a'.text .ascii) := by
    have apart : taskIdOf (Runtime.ascii.sha256 (a.text .ascii)) ≠
        taskIdOf (Runtime.ascii.sha256 (a'.text .ascii)) := by decide +kernel
    exact fun same => absurd same apart
  obtain ⟨r, db, accepted⟩ := Sample.accepted Pool.empty.db a (by decide +kernel)
  obtain ⟨r', db', accepted'⟩ := Sample.accepted s.db a' (by decide +kernel)
  refine ⟨r, r', db, db', accepted, accepted', ?_⟩
  refine (task_identity (.init rfl) reach accepted accepted' distinct).mpr ⟨?_, ?_⟩
  · exact fun absorbs => absurd absorbs.mem (by decide)
  · exact fun absorbs => absurd absorbs.mem (by decide)

/-- A repository that holds a `|` shares the task of another issue of another repository. -/
theorem issue_absorbed :
    let a := Sample.request "a/b" 1 "2|x"
    let a' := Sample.request "a/b|1" 2 "x"
    let s := Pool.empty.run .ascii [Sample.admission a]
    (pool .ascii).Reachable s ∧ Runtime.ascii.NoCollision (a.text .ascii) (a'.text .ascii) ∧
      ∃ r r' db db', (enqueueTask .ascii (.at Sample.start) a).Yields Pool.empty.db r db ∧
        (enqueueTask .ascii (.at Sample.start) a').Yields s.db r' db' ∧
        ¬ (r.1.taskId = r'.1.taskId ↔ a.triple .ascii = a'.triple .ascii) := by
  intro a a' s
  have reach : (pool .ascii).Reachable s := Pool.reachable_run (by decide)
  have same : a.text .ascii = a'.text .ascii := by decide
  refine ⟨reach, fun _ => same, ?_⟩
  obtain ⟨r, db, accepted⟩ := Sample.accepted Pool.empty.db a (by decide +kernel)
  obtain ⟨r', db', accepted'⟩ := Sample.accepted s.db a' (by decide +kernel)
  refine ⟨r, r', db, db', accepted, accepted', fun agree => ?_⟩
  have shared : r.1.taskId = r'.1.taskId := by
    rw [enqueueTask_taskId (.init rfl) accepted, enqueueTask_taskId reach accepted']
    exact congrArg (fun text => taskIdOf (Runtime.ascii.sha256 text)) same
  exact absurd (agree.mp shared) (by decide)

end Identity

/-! ### Replay -/

section Replay

open Transition.System (Reachable)

variable {rt : Runtime} {s : Pool} {c : Call} {a : EnqueueTask} {db : Db} {t : Task}

/-- The call raises, or it returns the stored task as not created; no table changes. -/
def EnqueueTask.NoOp (rt : Runtime) (c : Call) (a : EnqueueTask) (db : Db) (t : Task) : Prop :=
  (∃ e, (enqueueTask rt c a).Fails db e db) ∨ (enqueueTask rt c a).Yields db (t, false) db

theorem enqueueTask_noOp_iff
    (found : (db.tasks.rows.find? fun t => t.idempotencyKey = a.key rt) = some t) :
    a.NoOp rt c db t ↔
      db.lanes.find? (strip a.repository) ≠ none ∨ ¬ a.Replays rt c db t := by
  have answer : (enqueueTask rt c a).Yields db (t, false) db ↔ _ := enqueueTask_found found
  constructor
  · rintro (⟨e, raised⟩ | returned)
    · refine .inr fun replays => ?_
      have yields := (enqueueTask_found found).mpr ⟨replays, rfl, rfl⟩
      cases raised.symm.trans yields
    · obtain ⟨-, -, same⟩ := answer.mp returned
      exact .inl (Db.ensured_eq_self_iff.mp same.symm)
  · intro condition
    rcases yields_or_fails (enqueueTask rt c a) db with ⟨r, db', returned⟩ | ⟨e, db', raised⟩
    · obtain ⟨replays, rfl, rfl⟩ := (enqueueTask_found found).mp returned
      have stored := condition.resolve_right (fun refused => refused replays)
      rw [Db.ensured_eq_self_iff.mpr stored] at returned
      exact .inr returned
    · obtain rfl := enqueueTask_atomic.raises raised
      exact .inl ⟨e, raised⟩

/-- A task is the only one of its key. -/
theorem find_key (h : (pool rt).Reachable s) (ht : t ∈ s.db.tasks.rows) {key : String}
    (identified : t.idempotencyKey = key) :
    (s.db.tasks.rows.find? fun t => t.idempotencyKey = key) = some t := by
  subst identified
  cases found : s.db.tasks.rows.find? fun u => u.idempotencyKey = t.idempotencyKey with
  | none => simpa using List.find?_eq_none.mp found t ht
  | some u =>
    have hu : u ∈ s.db.tasks.rows := List.mem_of_find?_eq_some found
    have key : u.idempotencyKey = t.idempotencyKey := by simpa using List.find?_some found
    have name : u.taskId = t.taskId := by
      rw [file_named h u.taskId u (Db.current_of_mem hu), key]
      exact (file_named h t.taskId t (Db.current_of_mem ht)).symm
    exact congrArg some (List.inj_on_of_nodup_map s.db.tasks.unique hu ht name)

/-- A replayed admission changes nothing exactly when the lane of its own spelling of the
repository is there or the call is refused. -/
theorem enqueue_replay (h : (pool rt).Reachable s) (ht : t ∈ s.db.tasks.rows)
    (identified : t.idempotencyKey = identity rt a.repository a.issueNumber a.requestId) :
    a.NoOp rt c s.db t ↔
      s.db.lanes.find? (strip a.repository) ≠ none ∨ ¬ a.Replays rt c s.db t :=
  enqueueTask_noOp_iff (find_key h ht identified)

/-- The request that admitted a task is replayed without a change. -/
theorem request_replayed :
    let a := Sample.request "o/r" 1 "r1"
    let s := Pool.empty.run .ascii [Sample.admission a]
    ∃ t ∈ s.db.tasks.rows, a.NoOp .ascii (.at Sample.start) s.db t := by
  intro a s
  have found : ∃ t ∈ s.db.tasks.rows,
      t.idempotencyKey = identity .ascii a.repository a.issueNumber a.requestId := by
    decide +kernel
  have lane : s.db.lanes.find? (strip a.repository) ≠ none := by decide +kernel
  obtain ⟨t, ht, key⟩ := found
  exact ⟨t, ht, (enqueue_replay (Pool.reachable_run (by decide)) ht key).mpr (.inl lane)⟩

/-- The same request with the repository in capitals leaves a second lane behind. -/
theorem replay_adds_lane :
    let a := Sample.request "O/R" 1 "r1"
    let s := Pool.empty.run .ascii [Sample.admission (Sample.request "o/r" 1 "r1")]
    (pool .ascii).Reachable s ∧ ∃ t ∈ s.db.tasks.rows,
      t.idempotencyKey = identity .ascii a.repository a.issueNumber a.requestId ∧
        ¬ a.NoOp .ascii (.at Sample.start) s.db t := by
  intro a s
  have reach : (pool .ascii).Reachable s := Pool.reachable_run (by decide)
  have found : ∃ t ∈ s.db.tasks.rows,
      t.idempotencyKey = identity .ascii a.repository a.issueNumber a.requestId ∧
        t.fencingRequired = false := by decide +kernel
  have absent : s.db.lanes.find? (strip a.repository) = none := by decide +kernel
  obtain ⟨t, ht, key, unfenced⟩ := found
  have replays : a.Replays .ascii (.at Sample.start) s.db t :=
    ⟨by decide, nofun, ⟨_, rfl, fun given => absurd rfl given⟩, by decide, nofun, unfenced⟩
  refine ⟨reach, t, ht, key, fun noOp => ?_⟩
  rcases (enqueueTask_noOp_iff (find_key reach ht key)).mp noOp with lane | refused
  · exact lane absent
  · exact refused replays

end Replay

end WorkerPool
