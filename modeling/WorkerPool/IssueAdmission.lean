import WorkerPool.Lasting
import WorkerPool.PoolApi

/-!
# The admission of an issue

`admit_to_existing_pool` enqueues one fenced task for a bound issue and reads it back. A later
run finds the task by its key; what it compares with the row are columns that no call writes
again, and the correlation id, which almost every call writes.
-/

namespace WorkerPool.Issue

open PyText Transaction Transaction.Tx
open Transition.System (Reachable Steps)

/-! ### The payload -/

/-- The payload of `enqueue_fenced_issue` for a binding. -/
def issuePayload (b : IssueBinding) : EnqueueTask where
  repository := repo
  issueNumber := b.number
  requestId := b.requestId
  correlationId := b.correlationId
  priority := 10
  baseSha := some b.baseSha
  maxAttempts := some 1
  targetBranch := some b.branch
  fencingRequired := true

/-- `re.fullmatch(r"issue-[0-9a-f]{64}", request_id)`. -/
def isIssueRequest (s : String) : Bool :=
  prefixOf 6 s == "issue-" && hexRun 64 (String.ofList (s.toList.drop 6))

/-- What `enqueue_fenced_issue` asks of its payload. -/
structure Submittable (p : EnqueueTask) : Prop where
  repository : p.repository = repo
  issueNumber : 0 < p.issueNumber
  requestId : isIssueRequest p.requestId = true
  correlationId : isCorrelation p.correlationId = true
  baseSha : ∃ sha, p.baseSha = some sha ∧ isSha40 sha = true ∧
    p.targetBranch = some (draftBranch p.issueNumber sha)
  priority : p.priority = 10
  maxAttempts : p.maxAttempts = some 1
  fencingRequired : p.fencingRequired = true

def payloadFields (p : EnqueueTask) : List (String × Json) := [
  ("repository", .str p.repository), ("issue_number", .int p.issueNumber),
  ("request_id", .str p.requestId), ("correlation_id", .str p.correlationId),
  ("priority", .int p.priority), ("base_sha", .ofOption p.baseSha),
  ("target_branch", .ofOption p.targetBranch), ("fencing_required", .bool p.fencingRequired)]

/-- `task.get(key) == payload[key]` for each of the keys. -/
def echoes (p : EnqueueTask) (keys : List String) (task : Json) : Bool :=
  keys.all fun key => (item key task).scalarEq (Json.field key (payloadFields p))

/-- What both readers ask of the branch, the fencing and the attempts of a task. -/
def isFencedOnce (p : EnqueueTask) (task : Json) : Bool :=
  (item "branch" task).scalarEq (Json.field "target_branch" (payloadFields p)) &&
    (item "fencing_required" task).isTrue && (item "max_attempts" task).scalarEq (.int 1)

structure Readback where
  taskId : String
  created : Bool
  task : Json

instance (p : EnqueueTask) : Decidable (Submittable p) :=
  decidable_of_iff (p.repository = repo ∧ 0 < p.issueNumber ∧ isIssueRequest p.requestId = true ∧
    isCorrelation p.correlationId = true ∧ (∃ sha ∈ p.baseSha, isSha40 sha = true ∧
      p.targetBranch = some (draftBranch p.issueNumber sha)) ∧ p.priority = 10 ∧
    p.maxAttempts = some 1 ∧ p.fencingRequired = true)
    ⟨fun ⟨a, b, c, d, e, f, g, h⟩ => ⟨a, b, c, d, e, f, g, h⟩,
      fun ⟨a, b, c, d, e, f, g, h⟩ => ⟨a, b, c, d, e, f, g, h⟩⟩

/-- `enqueue_fenced_issue`. -/
def enqueueFencedIssue (p : EnqueueTask) : ApiProgram Readback := do
  apiNeed (Submittable p) "worker_issue_payload_invalid"
  let reply ← apiRequest (.enqueue p) [200, 201] Json.isObj
  let task := item "task" reply
  match item "created" reply, item "task_id" task with
  | .bool created, .str taskId =>
    apiNeed (task.isObj ∧ isTaskId taskId) "worker_issue_enqueue_invalid"
    let readback ← fetchTask taskId
    apiNeed (echoes p ["repository", "issue_number", "request_id", "correlation_id", "priority",
      "base_sha"] readback) "worker_issue_readback_mismatch"
    apiNeed (isFencedOnce p readback ∧ (item "state" readback).isText (· ∈ taskStates))
      "worker_issue_readback_mismatch"
    pure ⟨taskId, created, readback⟩
  | _, _ => .raise (.blocked [.str "worker_issue_enqueue_invalid"])

/-! ### The admission -/

/-- `_read_binding`. -/
def readBinding (it : Interpreter) (github : GitHubReads) (issueNumber commentId : Int)
    (clock : Moment) : Except Raised IssueBinding := do
  let branch ← github.getBranch "main"
  need (branch.isObj ∧ (item "commit" branch).isObj) "issue_main_unavailable"
  match item "sha" (item "commit" branch) with
  | .str baseSha =>
    let issue ← github.getIssue issueNumber
    let comment ← github.getComment commentId
    admitBinding it issue comment branch baseSha clock.isoformat clock.reading
  | _ => throw (.blocked [.str "issue_main_invalid"])

/-- The fields of `trusted_task` that depend on the issue. -/
structure TrustedTask where
  taskId : String
  baseSha : String
  beforeSha256 : String

/-- `trusted_task`. -/
def trustedTask (b : IssueBinding) (before : Bytes) : Except Raised TrustedTask := do
  need (1 ≤ before.length ∧ before.length ≤ 262144) "source_bytes_invalid"
  pure ⟨b.correlationId, b.baseSha, Sha256.hexdigestOfBytes before⟩

/-- `raw.decode("utf-8")`. -/
def decodeUtf8 (raw : Bytes) : Option String := String.fromUTF8? ⟨raw.toArray⟩

/-- What `validate` counts. -/
structure Report where
  total : Int
  passed : Int

/-- The arguments of `admit_to_existing_pool` beside its transports. -/
structure AdmitIssue where
  issueNumber : Int
  commentId : Int
  environment : String
  now : Moment

section Program

variable (it : Interpreter) (validate : TrustedTask → String → Except Raised Report)

/-- `admit_to_existing_pool` as far as the failing baseline. -/
def failingBaseline (github : GitHubReads) (a : AdmitIssue) :
    Except Raised (IssueBinding × Report) := do
  need (a.environment = "dev") "issue_dispatch_dev_only"
  need (0 < a.issueNumber ∧ 0 < a.commentId) "issue_dispatch_identity_invalid"
  let _ ← aware a.now.reading "issue_dispatch_clock_invalid"
  let binding ← readBinding it github a.issueNumber a.commentId a.now
  let source ← github.getSource binding.baseSha
  let task ← trustedTask binding source.1
  match decodeUtf8 source.1 with
  | some text =>
    let report ← validate task text
    need (report.total = 42 ∧ report.passed < 42) "issue_no_failing_baseline"
    pure (binding, report)
  | none => throw (.blocked [.str "issue_source_encoding_invalid"])

/-- The one lane of the repository is enabled and takes one task at a time. -/
def laneReady (lanes : List Json) : Bool :=
  let target := lanes.filter fun lane => (item "repository" lane).isStr repo
  target.length == 1 && target.all fun lane =>
    (item "enabled" lane).isTrue && (item "max_in_flight" lane).int? == some 1

structure Admission where
  result : String
  taskId : String
  created : Bool
  issueNumber : Int
  ownerCommentId : Int
  baseSha : String
  targetBranch : String
  requestId : String
  correlationId : String
  baselinePassed : Int
  baselineTotal : Int
  fencingRequired : Bool
  builderStarted : Bool
  validatorCompleted : Bool
  draftPrCreated : Bool

def Admission.of (b : IssueBinding) (report : Report) (r : Readback) : Admission where
  result := "ISSUE_FENCED_ENQUEUED"
  taskId := r.taskId
  created := r.created
  issueNumber := b.number
  ownerCommentId := b.commentId
  baseSha := b.baseSha
  targetBranch := b.branch
  requestId := b.requestId
  correlationId := b.correlationId
  baselinePassed := report.passed
  baselineTotal := 42
  fencingRequired := true
  builderStarted := false
  validatorCompleted := false
  draftPrCreated := false

/-- `admit_to_existing_pool`, where GitHub answers the last reads as `latest` does. -/
def admitToExistingPool (github latest : GitHubReads) (a : AdmitIssue) : ApiProgram Admission := do
  let (binding, report) ← failingBaseline it validate github a
  let lanes ← listRepositories
  apiNeed (lanes.length ≤ 128 ∧ lanes.all Json.isObj) "issue_lanes_invalid"
  apiNeed (laneReady lanes) "issue_fenced_lane_not_ready"
  let current ← readBinding it latest a.issueNumber a.commentId a.now
  apiNeed (current = binding) "issue_admission_changed_before_enqueue"
  let p := issuePayload binding
  let admitted ← enqueueFencedIssue p
  apiNeed ((item "task_id" admitted.task).isStr admitted.taskId) "issue_pool_readback_invalid"
  apiNeed (echoes p ["repository", "issue_number", "request_id", "correlation_id", "base_sha"]
    admitted.task) "issue_pool_readback_invalid"
  apiNeed (isFencedOnce p admitted.task) "issue_pool_readback_invalid"
  pure (.of binding report admitted)

end Program

/-! ### The readback -/

/-- What both readers compare of a row with the payload. -/
structure Echoed (p : EnqueueTask) (row : Task) : Prop where
  repository : row.repository = p.repository
  issueNumber : row.issueNumber = p.issueNumber
  requestId : row.requestId = p.requestId
  correlationId : row.correlationId = p.correlationId
  priority : row.priority = p.priority
  baseSha : row.baseSha = p.baseSha
  branch : some row.branch = p.targetBranch
  fencingRequired : row.fencingRequired = true
  maxAttempts : row.maxAttempts = 1

section Readback

variable {p : EnqueueTask} {row : Task}

theorem scalarEq_ofOption {a b : Option String} :
    (Json.ofOption a).scalarEq (.ofOption b) = true ↔ a = b := by
  cases a <;> cases b <;> simp [Json.ofOption, Json.scalarEq, Json.asInt?]

theorem scalarEq_str_ofOption {a : String} {b : Option String} :
    (Json.str a).scalarEq (.ofOption b) = true ↔ some a = b := scalarEq_ofOption (a := some a)

theorem scalarEq_int {a b : Int} : (Json.int a).scalarEq (.int b) = true ↔ a = b := by
  simp [Json.scalarEq, Json.asInt?]

theorem scalarEq_str {a b : String} : (Json.str a).scalarEq (.str b) = true ↔ a = b := by
  simp [Json.scalarEq]

theorem echoed_iff : Echoed p row ↔
    echoes p ["repository", "issue_number", "request_id", "correlation_id", "priority", "base_sha"]
      (publicTask row) = true ∧ isFencedOnce p (publicTask row) = true := by
  simp only [echoes, isFencedOnce, publicTask, payloadFields, item, Json.field, Json.lookup,
    List.all_cons, List.all_nil, Bool.and_eq_true, List.reverse_cons, List.reverse_nil,
    List.nil_append, List.cons_append, List.find?_cons]
  simp [scalarEq_ofOption, scalarEq_str_ofOption, scalarEq_int, scalarEq_str, Json.isTrue]
  constructor
  · rintro ⟨a, b, c, d, e, f, g, h, i⟩
    simp [*]
  · rintro ⟨⟨a, b, c, d, e, f⟩, ⟨g, h⟩, i⟩
    exact ⟨a, b, c, d, e, f, g, h, by omega⟩

end Readback

section Enqueue

variable {rt : Runtime} {ready : Bool} {v : Visit} {s t : Pool} {p : EnqueueTask}

theorem enqueue_answers {answer : HttpResponse} :
    ((ApiRequest.enqueue p).run rt ready v s = (.ok answer, t) ∧ answer.status ∈ [200, 201]) ↔
      p.wellFormed = true ∧ (p.fencingRequired = true → ready = true) ∧
        ∃ e db', (enqueueTask rt v.enqueue p).Yields s.db e db' ∧ answer = enqueued e ∧
          t = { s with db := db' } := by
  have accepted : ∀ e, (enqueued e).status ∈ [200, 201] := by
    rintro ⟨row, created⟩
    cases created <;> simp [enqueued]
  rw [← respond_eq_ok accepted fun e => e.response_refused (by decide)]
  simp only [ApiRequest.run]
  by_cases formed : p.wellFormed = true
  · rw [if_neg (not_not_intro formed)]
    by_cases allowed : p.fencingRequired = true → ready = true
    · rw [if_neg (fun both => both.2 (allowed both.1))]
      exact ⟨fun h => ⟨formed, allowed, h⟩, fun h => h.2.2⟩
    · rw [if_pos (Classical.not_imp.mp allowed)]
      constructor
      · rintro ⟨same, known⟩
        cases same
        exact absurd known (by decide)
      · exact fun h => absurd h.2.1 allowed
  · rw [if_pos formed]
    constructor
    · rintro ⟨same, known⟩
      cases same
      exact absurd known (by decide)
    · exact fun h => absurd h.1 formed

/-- The readback that follows a call of `enqueue_task` with its answer. -/
structure ReadsBack (rt : Runtime) (v : Visit) (p : EnqueueTask) (s : Pool) (row : Task)
    (created : Bool) (stored : Task) (db' : Db) : Prop where
  call : (enqueueTask rt v.enqueue p).Yields s.db (row, created) db'
  small : bodyBytes (enqueued (row, created)).body ≤ maxResponseBytes
  named : isTaskId row.taskId = true
  found : db'.tasks.find? row.taskId = some stored
  smallRow : bodyBytes (publicTask stored) ≤ maxResponseBytes
  echoed : Echoed p stored

theorem dumps_pair {key key' : String} (order : ¬ key' < key) (v v' : Json) :
    (Json.obj [(key, v), (key', v')]).dumps false (fun _ => []) =
      '{' :: Json.joinComma [Json.quote false key ++ ':' :: v.dumps false (fun _ => []),
        Json.quote false key' ++ ':' :: v'.dumps false (fun _ => [])] ++ ['}'] := by
  simp [Json.dumps, Json.dumpsFields, Json.sortByKey, Json.insertByKey, order]

/-- The task alone is shorter than the answer that holds it. -/
theorem bodyBytes_publicTask (e : Task × Bool) :
    bodyBytes (publicTask e.1) ≤ bodyBytes (enqueued e).body := by
  have order : ¬ "task" < "created" := by decide
  rw [bodyBytes, bodyBytes, enqueued, dumps_pair order]
  simp only [Json.joinComma, List.map_append, List.map_cons, List.sum_append, List.sum_cons]
  omega

theorem enqueueFencedIssue_returns {r : Readback} :
    (enqueueFencedIssue p).Returns (ApiRequest.run rt ready v) s r t ↔
      (Submittable p ∧ p.wellFormed = true ∧ (p.fencingRequired = true → ready = true)) ∧
        ∃ row created stored db', ReadsBack rt v p s row created stored db' ∧
          r = ⟨row.taskId, created, publicTask stored⟩ ∧ t = { s with db := db' } := by
  have created : ∀ e, item "created" (enqueued e).body = .bool e.2 := fun _ => rfl
  have task : ∀ e, item "task" (enqueued e).body = publicTask e.1 := fun _ => rfl
  have name : ∀ row, item "task_id" (publicTask row) = .str row.taskId := fun _ => rfl
  simp only [enqueueFencedIssue, Program.returns_bind, apiNeed, Program.returns_need,
    apiRequest_returns (by decide : 401 ∉ [200, 201]), enqueue_answers]
  constructor
  · rintro ⟨_, _, ⟨submittable, rfl⟩, _, _, ⟨_, ⟨formed, allowed, ⟨row, fresh⟩, db', call, rfl, rfl⟩,
      small, -, rfl⟩, rest⟩
    simp only [created, task, name, Program.returns_bind, Program.returns_need,
      fetchTask_returns, Program.returns_pure] at rest
    obtain ⟨_, _, ⟨⟨-, named⟩, rfl⟩, _, _, ⟨-, stored, found, smallRow, rfl, rfl⟩, _, _, ⟨same, rfl⟩,
      _, _, ⟨⟨once, -⟩, rfl⟩, rfl, rfl⟩ := rest
    exact ⟨⟨submittable, formed, allowed⟩, row, fresh, stored, db',
      ⟨call, small, named, found, smallRow, echoed_iff.mpr ⟨same, once⟩⟩, rfl, rfl⟩
  · rintro ⟨⟨submittable, formed, allowed⟩, row, fresh, stored, db', back, rfl, rfl⟩
    obtain ⟨same, once⟩ := echoed_iff.mp back.echoed
    refine ⟨(), s, ⟨submittable, rfl⟩, _, _, ⟨_, ⟨formed, allowed, (row, fresh), db', back.call, rfl,
      rfl⟩, back.small, rfl, rfl⟩, ?_⟩
    simp only [created, task, name, Program.returns_bind, Program.returns_need,
      fetchTask_returns, Program.returns_pure]
    exact ⟨(), _, ⟨⟨rfl, back.named⟩, rfl⟩, _, _, ⟨back.named, stored, back.found, back.smallRow, rfl,
      rfl⟩, (), _, ⟨same, rfl⟩, (), _, ⟨⟨once, publicTask_state stored⟩, rfl⟩,
      rfl, rfl⟩

end Enqueue

/-! ### The lanes -/

/-- What is configured of each lane. -/
def laneConfiguration (db : Db) : List (String × Bool × Nat) :=
  db.lanes.rows.map fun l => (l.repository, l.enabled, l.maxInFlight)

section Lanes

variable {rt : Runtime} {v : Visit} {s : Pool} {db swept : Db} {lanes : List Json}

theorem isObj_laneView (l : Lane) : (db.laneView l).isObj = true := rfl

theorem isLaneList_views : isLaneList (.arr db.laneViews) = true ↔
    (laneConfiguration db).length ≤ 128 := by
  have objects : db.laneViews.all Json.isObj = true := by
    simp [Db.laneViews, isObj_laneView]
  have length : db.laneViews.length = (laneConfiguration db).length := by
    simp [Db.laneViews, laneConfiguration]
  simp [isLaneList, objects, length]

/-- The lane is ready where it is configured so; a repository has one lane at most. -/
theorem laneReady_views : laneReady db.laneViews = true ↔ (repo, true, 1) ∈ laneConfiguration db := by
  have shown : db.laneViews.filter (fun lane => (item "repository" lane).isStr repo) =
      ((db.lanes.rows.insertionSort fun l l' => l.repository ≤ l'.repository).filter
        fun l => l.repository == repo).map db.laneView := by
    rw [Db.laneViews, List.filter_map]
    rfl
  have sorted : ((db.lanes.rows.insertionSort fun l l' => l.repository ≤ l'.repository).filter
      fun l => l.repository == repo).Perm (db.lanes.rows.filter fun l => l.repository == repo) :=
    (List.perm_insertionSort _ _).filter _
  have unique : (db.lanes.rows.filter fun l => l.repository == repo).length =
      (db.lanes.rows.map Lane.repository).count repo := by
    rw [← List.countP_eq_length_filter, List.count, List.countP_map]
    rfl
  have enabled : ∀ l, (item "enabled" (db.laneView l)).isTrue = l.enabled := fun _ => rfl
  have limit : ∀ l, (item "max_in_flight" (db.laneView l)).int? = some (l.maxInFlight : Int) :=
    fun _ => rfl
  rw [laneReady, shown]
  simp only [Bool.and_eq_true, beq_iff_eq, List.length_map, sorted.length_eq, unique, List.all_map,
    List.all_eq_true, sorted.mem_iff, List.mem_filter, Function.comp, enabled, limit,
    laneConfiguration, List.mem_map, Prod.mk.injEq, Option.some.injEq]
  constructor
  · rintro ⟨one, each⟩
    have member : repo ∈ db.lanes.rows.map Lane.repository := List.count_pos_iff.mp (by omega)
    obtain ⟨l, inside, named⟩ := List.mem_map.mp member
    obtain ⟨on, single⟩ := each l ⟨inside, named⟩
    exact ⟨l, inside, named, on, by omega⟩
  · rintro ⟨l, inside, named, on, single⟩
    refine ⟨List.count_eq_one_of_mem db.lanes.unique (List.mem_map.mpr ⟨l, inside, named⟩), ?_⟩
    rintro l' ⟨inside', named'⟩
    obtain rfl := List.inj_on_of_nodup_map db.lanes.unique inside' inside (named'.trans named.symm)
    exact ⟨on, by omega⟩

theorem snapshotRepositories_yields : (snapshotRepositories rt v).Yields db lanes swept ↔
    ∃ n mid result, (recoverExpiredLeases rt v.expired).Yields db n mid ∧
      (recoverStalledTasks rt v.stalled).Yields mid result swept ∧ lanes = swept.laneViews := by
  simp only [snapshotRepositories, bind_yields, read_yields]
  constructor
  · rintro ⟨n, mid, expired, result, _, stalled, rfl, rfl⟩
    exact ⟨n, mid, result, expired, stalled, rfl⟩
  · rintro ⟨n, mid, result, expired, stalled, rfl⟩
    exact ⟨n, mid, expired, result, swept, stalled, rfl, rfl⟩

theorem snapshot_aside (h : (snapshotRepositories rt v).Yields db lanes swept) :
    db.Aside swept := by
  obtain ⟨n, mid, result, expired, stalled, -⟩ := snapshotRepositories_yields.mp h
  have recovers : (recover rt v.expired).Within Db.Aside := recover_within .aside
  have sweeps : (recoverStalled rt v.stalled).Within Db.Aside := recoverStalled_within .aside
  have first := (Within.atomically recovers).yields expired
  have second := (Within.atomically sweeps).yields stalled
  exact IsTrans.trans _ _ _ first second

/-- A call that draws nothing is a step of the pool. -/
theorem step_of_yields {c : Call} {op : Op} {reply : Reply} {db' : Db} (draws : op.uuids = [])
    (ran : (op.run rt c).Yields s.db reply db') : (pool rt).step s (c, op) { s with db := db' } := by
  refine ⟨⟨by rw [draws]; exact List.nodup_nil, fun u drawn => ?_⟩, ?_⟩
  · rw [draws] at drawn
    cases drawn
  · rw [Pool.after, show op.run rt c s.db = _ from ran, draws]
    rfl

/-- The snapshot makes two calls of the pool. -/
theorem snapshot_steps (h : (snapshotRepositories rt v).Yields s.db lanes swept) :
    (pool rt).Steps s { s with db := swept } := by
  obtain ⟨n, mid, result, expired, stalled, -⟩ := snapshotRepositories_yields.mp h
  have first : (pool rt).step s (v.expired, .recoverExpiredLeases) { s with db := mid } :=
    step_of_yields rfl (bind_yields.mpr ⟨n, mid, expired, pure_yields.mpr ⟨rfl, rfl⟩⟩)
  have second : (pool rt).step { s with db := mid } (v.stalled, .recoverStalledTasks)
      { s with db := swept } :=
    step_of_yields rfl (bind_yields.mpr ⟨result, swept, stalled, pure_yields.mpr ⟨rfl, rfl⟩⟩)
  exact ((Steps.refl s).tail first).tail second

end Lanes

/-! ### Runs -/

section Runs

variable {it : Interpreter} {validate : TrustedTask → String → Except Raised Report}
  {rt : Runtime} {ready : Bool} {v v' : Visit} {github latest github' latest' : GitHubReads}
  {r r' : AdmitIssue} {s s' t : Pool} {a : Admission} {b : IssueBinding} {report report' : Report}
  {db db' swept : Db} {row : Task} {created : Bool}

/-- The lanes as a snapshot leaves and shows them, accepted by `admit_to_existing_pool`. -/
structure LanesShown (rt : Runtime) (v : Visit) (s : Pool) (swept : Db) : Prop where
  taken : (snapshotRepositories rt v).Yields s.db swept.laneViews swept
  small : bodyBytes (.arr swept.laneViews) ≤ maxResponseBytes
  few : (laneConfiguration swept).length ≤ 128
  ready : (repo, true, 1) ∈ laneConfiguration swept

/-- What the client and the service ask of a payload alone. -/
def Acceptable (ready : Bool) (p : EnqueueTask) : Prop :=
  Submittable p ∧ p.wellFormed = true ∧ (p.fencingRequired = true → ready = true)

theorem failingBaseline_reads (h : failingBaseline it validate github r = .ok (b, report)) :
    readBinding it github r.issueNumber r.commentId r.now = .ok b := by
  obtain ⟨-, rest⟩ := need_bind_eq_ok.mp h
  obtain ⟨-, rest⟩ := need_bind_eq_ok.mp rest
  obtain ⟨_, _, rest⟩ := bind_eq_ok.mp rest
  obtain ⟨binding, read, rest⟩ := bind_eq_ok.mp rest
  obtain ⟨source, _, rest⟩ := bind_eq_ok.mp rest
  obtain ⟨task, _, rest⟩ := bind_eq_ok.mp rest
  cases text : decodeUtf8 source.1 with
  | none =>
    rw [text] at rest
    cases rest
  | some text' =>
    rw [text] at rest
    obtain ⟨counted, _, rest⟩ := bind_eq_ok.mp rest
    obtain ⟨-, same⟩ := need_bind_eq_ok.mp rest
    cases same
    exact read

theorem admission_returns :
    (admitToExistingPool it validate github latest r).Returns (ApiRequest.run rt ready v) s a t ↔
      ∃ b report, failingBaseline it validate github r = .ok (b, report) ∧
        readBinding it latest r.issueNumber r.commentId r.now = .ok b ∧
        Acceptable ready (issuePayload b) ∧ ∃ swept, LanesShown rt v s swept ∧
          ∃ row created stored db',
            ReadsBack rt v (issuePayload b) { s with db := swept } row created stored db' ∧
            a = .of b report ⟨row.taskId, created, publicTask stored⟩ ∧ t = { s with db := db' } := by
  have name : ∀ stored, item "task_id" (publicTask stored) = .str stored.taskId := fun _ => rfl
  simp only [admitToExistingPool, Program.returns_bind, Program.returns_lift, apiNeed,
    Program.returns_need, Program.returns_pure, listRepositories_returns, enqueueFencedIssue_returns]
  constructor
  · rintro ⟨⟨b, report⟩, _, ⟨baseline, rfl⟩, lanes, _, ⟨swept, taken, small, few, rfl⟩, _, _, ⟨-, rfl⟩,
      _, _, ⟨lane, rfl⟩, _, _, ⟨current, rfl⟩, _, _, ⟨rfl, rfl⟩, _, _, ⟨acceptable, row, created,
      stored, db', back, rfl, rfl⟩, _, _, ⟨-, rfl⟩, _, _, ⟨-, rfl⟩, _, _, ⟨-, rfl⟩, rfl, rfl⟩
    obtain ⟨n, mid, result, -, -, rfl⟩ := snapshotRepositories_yields.mp taken
    exact ⟨_, report, baseline, current, acceptable, swept,
      ⟨taken, small, isLaneList_views.mp few, laneReady_views.mp lane⟩, row, created, stored, db', back,
      rfl, rfl⟩
  · rintro ⟨b, report, baseline, current, acceptable, swept, shown, row, created, stored, db', back,
      rfl, rfl⟩
    have few := isLaneList_views.mpr shown.few
    obtain ⟨same, once⟩ := echoed_iff.mp back.echoed
    have some_same : echoes (issuePayload b) ["repository", "issue_number", "request_id",
        "correlation_id", "base_sha"] (publicTask stored) = true := by
      simp only [echoes, List.all_cons, Bool.and_eq_true] at same ⊢
      exact ⟨same.1, same.2.1, same.2.2.1, same.2.2.2.1, same.2.2.2.2.2⟩
    have named : (item "task_id" (publicTask stored)).isStr row.taskId = true := by
      rw [name, Table.key_of_find? back.found]
      exact beq_self_eq_true _
    rw [isLaneList, Bool.and_eq_true, decide_eq_true_eq] at few
    exact ⟨(b, report), s, ⟨baseline, rfl⟩, swept.laneViews, _, ⟨swept, shown.taken, shown.small,
      isLaneList_views.mpr shown.few, rfl⟩, (), _, ⟨few, rfl⟩, (), _,
      ⟨laneReady_views.mpr shown.ready, rfl⟩, b, _, ⟨current, rfl⟩, (), _, ⟨rfl, rfl⟩, _, _,
      ⟨acceptable, row, created, stored, db', back, rfl, rfl⟩, (), _, ⟨named, rfl⟩, (), _,
      ⟨some_same, rfl⟩, (), _, ⟨once, rfl⟩, rfl, rfl⟩

/-- The row that a call returns is stored under its key, and meets what a replay of the call
asks. -/
theorem enqueueTask_replays {c : Call} {p : EnqueueTask}
    (h : (enqueueTask rt c p).Yields db (row, created) db') :
    db'.tasks.find? row.taskId = some row ∧ row.idempotencyKey = p.key rt ∧
      p.Replays rt c db row := by
  have keyed := (enqueueTask_keyed h).1
  simp only [enqueueTask, bind_yields, require_yields, ofExcept_yields, atomically_yields,
    read_yields, ensureRepositoryLane_yields] at h
  obtain ⟨_, _, ⟨shape, rfl⟩, _, _, ⟨base, rfl⟩, branch, _, ⟨named, rfl⟩, _, _, ⟨attempts, rfl⟩,
    _, _, ⟨rfl, rfl⟩, _, db, ⟨cutover, rfl⟩, _, _, rfl, existing, _, ⟨found, rfl⟩, rest⟩ := h
  cases existing with
  | some old =>
    simp only [bind_yields, require_yields, pure_yields] at rest
    obtain ⟨_, _, ⟨target, rfl⟩, _, _, ⟨fencing, rfl⟩, same, rfl⟩ := rest
    cases same
    exact ⟨Db.current_of_mem (List.mem_of_find?_eq_some found.symm), keyed, shape, base,
      ⟨branch, named, target⟩, attempts, cutover, fencing⟩
  | none =>
    simp only [bind_yields, getTask_yields, pure_yields] at rest
    obtain ⟨_, _, inserted, new, _, ⟨stored, rfl⟩, same, rfl⟩ := rest
    cases same
    obtain ⟨writes, -⟩ := insertTask_writes inserted
    obtain rfl := Option.some.inj ((congrArg TaskFile.task writes.file).symm.trans stored)
    exact ⟨stored, keyed, shape, base, ⟨branch, named, fun _ => rfl⟩, attempts, cutover, rfl⟩

/-- What a replay of the payload of an issue asks is asked of columns that stay, and of the
cutover, which stays enabled. -/
theorem replays_later {c c' : Call} {row' : Task}
    (h : (issuePayload b).Replays rt c db row) (same : row.SameAdmission row')
    (stays : db.CutoverStays db') : (issuePayload b).Replays rt c' db' row' := by
  obtain ⟨branch, named, target⟩ := h.branch
  refine ⟨h.shape, h.base, ⟨branch, named, fun given => ?_⟩, le_refl (1 : Int), ?_, ?_⟩
  · rw [same.branch]
    exact target given
  · exact fun fenced => stays (h.cutover fenced)
  · rw [same.fencingRequired]
    exact h.fencing

theorem Echoed.later {p : EnqueueTask} {row' : Task} (h : Echoed p row)
    (same : row.SameAdmission row') :
    Echoed p row' ↔ row'.correlationId = p.correlationId := by
  refine ⟨Echoed.correlationId, fun correlation => ⟨?_, ?_, ?_, correlation, ?_, ?_, ?_, ?_, ?_⟩⟩
  · exact same.repository.trans h.repository
  · exact same.issueNumber.trans h.issueNumber
  · exact same.requestId.trans h.requestId
  · exact same.priority.trans h.priority
  · exact same.baseSha.trans h.baseSha
  · rw [same.branch]
    exact h.branch
  · exact same.fencingRequired.trans h.fencingRequired
  · exact same.maxAttempts.trans h.maxAttempts

/-- The snapshot of a replay is taken, its answers are small enough, and the task has the
correlation id of its admission. -/
def Replayable (rt : Runtime) (v : Visit) (b : IssueBinding) (taskId : String) (s : Pool) : Prop :=
  ∃ swept row, (snapshotRepositories rt v).Yields s.db swept.laneViews swept ∧
    bodyBytes (.arr swept.laneViews) ≤ maxResponseBytes ∧
    swept.tasks.find? taskId = some row ∧
    bodyBytes (enqueued (row, false)).body ≤ maxResponseBytes ∧ row.correlationId = b.correlationId

/-- What an admission leaves in the pool. -/
theorem admission_leaves (h : (pool rt).Reachable s)
    (first : (admitToExistingPool it validate github latest r).Returns (ApiRequest.run rt ready v)
      s a t) (bound : failingBaseline it validate github r = .ok (b, report)) :
    (pool rt).Reachable t ∧ Acceptable ready (issuePayload b) ∧
      (laneConfiguration s.db).length ≤ 128 ∧ (repo, true, 1) ∈ laneConfiguration s.db ∧
      ∃ row, t.db.tasks.find? a.taskId = some row ∧ row.idempotencyKey = (issuePayload b).key rt ∧
        Echoed (issuePayload b) row ∧ isTaskId a.taskId = true ∧
        (issuePayload b).Replays rt v.enqueue t.db row := by
  obtain ⟨b', report', bound', -, acceptable, swept, shown, row, created, stored, db', back, rfl, rfl⟩ :=
    admission_returns.mp first
  cases bound.symm.trans bound'
  have lanes : laneConfiguration swept = laneConfiguration s.db := by
    rw [laneConfiguration, (snapshot_aside shown.taken).lanes]
    rfl
  have visited : (pool rt).Reachable { s with db := swept } := h.steps (snapshot_steps shown.taken)
  have enqueue : (pool rt).step { s with db := swept } (v.enqueue, .enqueueTask (issuePayload b))
      { s with db := db' } :=
    step_of_yields (s := { s with db := swept }) rfl
      (bind_yields.mpr ⟨(row, created), db', back.call, pure_yields.mpr ⟨rfl, rfl⟩⟩)
  obtain ⟨found, key, replays⟩ := enqueueTask_replays back.call
  obtain rfl := Option.some.inj (found.symm.trans back.found)
  have stays : swept.CutoverStays db' := steps_cutoverStays ((Steps.refl _).tail enqueue)
  refine ⟨visited.steps ((Steps.refl _).tail enqueue), acceptable, ?_, ?_, row, found, key, back.echoed,
    back.named, replays_later replays (.refl row) stays⟩
  · rw [← lanes]
    exact shown.few
  · rw [← lanes]
    exact shown.ready

/-- A later run with the same binding and lanes returns the same task, as not created, exactly
where the task still has the correlation id of the binding and the answers are small enough. -/
theorem admission_replayed (h : (pool rt).Reachable s)
    (first : (admitToExistingPool it validate github latest r).Returns (ApiRequest.run rt ready v)
      s a t) (bound : failingBaseline it validate github r = .ok (b, report))
    (later : (pool rt).Steps t s')
    (again : failingBaseline it validate github' r' = .ok (b, report'))
    (still : readBinding it latest' r'.issueNumber r'.commentId r'.now = .ok b)
    (lanes : (laneConfiguration s'.db).Perm (laneConfiguration s.db)) :
    (∃ a' t', (admitToExistingPool it validate github' latest' r').Returns
        (ApiRequest.run rt ready v') s' a' t' ∧ a'.taskId = a.taskId ∧ a'.created = false) ↔
      Replayable rt v' b a.taskId s' := by
  obtain ⟨reach, acceptable, few, lane, row, stored, key, echoed, named, replays⟩ :=
    admission_leaves h first bound
  -- what the service finds after any snapshot of the later run
  have finds : ∀ {swept}, (snapshotRepositories rt v').Yields s'.db swept.laneViews swept →
      ((laneConfiguration swept).length ≤ 128 ∧ (repo, true, 1) ∈ laneConfiguration swept) ∧
        ∃ row', swept.tasks.find? a.taskId = some row' ∧
          (Echoed (issuePayload b) row' ↔ row'.correlationId = b.correlationId) ∧
          ∀ {e db'}, (enqueueTask rt v'.enqueue (issuePayload b)).Yields swept e db' ↔
            e = (row', false) ∧ db' = swept := by
    intro swept taken
    have configured : (laneConfiguration swept).Perm (laneConfiguration s.db) := by
      rw [laneConfiguration, (snapshot_aside taken).lanes]
      exact lanes
    have lane' := configured.mem_iff.mpr lane
    have path := later.trans (snapshot_steps taken)
    obtain ⟨row', stored', same⟩ := steps_admitted reach path stored
    have found := find_key (reach.steps path) (Table.mem_of_find? stored') (same.key.trans key)
    have ensured : swept.ensured v'.enqueue (strip repo) = swept := by
      obtain ⟨l, inside, named⟩ := List.mem_map.mp lane'
      have present : l.repository = strip repo := congrArg Prod.fst named
      refine Db.ensured_eq_self_iff.mpr fun absent => ?_
      exact Table.find?_eq_none_iff.mp absent l inside present
    refine ⟨⟨configured.length_eq ▸ few, lane'⟩, row', stored', echoed.later same, fun {e db'} => ?_⟩
    refine (enqueueTask_found found).trans ⟨fun answer => ⟨answer.2.1, answer.2.2.trans ensured⟩, ?_⟩
    rintro ⟨rfl, rfl⟩
    exact ⟨replays_later replays same (steps_cutoverStays path), rfl, ensured.symm⟩
  constructor
  · rintro ⟨a', t', returned, name, -⟩
    obtain ⟨_, _, again', -, -, swept, shown, answered, fresh, stored', db', back, rfl, rfl⟩ :=
      admission_returns.mp returned
    cases again.symm.trans again'
    obtain ⟨-, row', found, correlates, answers⟩ := finds shown.taken
    obtain ⟨same, kept⟩ := answers.mp back.call
    obtain ⟨rfl, rfl⟩ := Prod.mk.inj same
    have read : db'.tasks.find? a.taskId = some stored' := by
      rw [← show answered.taskId = a.taskId from name]
      exact back.found
    rw [kept] at read
    obtain rfl := Option.some.inj (read.symm.trans found)
    exact ⟨swept, stored', shown.taken, shown.small, found, back.small, correlates.mp back.echoed⟩
  · rintro ⟨swept, row', taken, small, found, smallReply, correlation⟩
    obtain ⟨⟨few', lane'⟩, row'', found', correlates, answers⟩ := finds taken
    obtain rfl := Option.some.inj (found.symm.trans found')
    have name : row'.taskId = a.taskId := Table.key_of_find? found
    refine ⟨.of b report' ⟨row'.taskId, false, publicTask row'⟩, { s' with db := swept },
      admission_returns.mpr ⟨b, report', again, still, acceptable, swept, ⟨taken, small, few', lane'⟩,
        row', false, row', swept, ?_, rfl, rfl⟩, name, rfl⟩
    exact ⟨answers.mpr ⟨rfl, rfl⟩, smallReply, name ▸ named, name ▸ found,
      (bodyBytes_publicTask (row', false)).trans smallReply, correlates.mpr correlation⟩

end Runs

/-! ### A sample -/

namespace Sample

open WorkerPool.Sample (start cutover register uuid)

def interpreter : Interpreter where
  toRuntime := .ascii
  floatRepr _ := ['1', '.', '0']
  fromIso _ := some (.aware 0)

def commit : String := "0123456789abcdef0123456789abcdef01234567"

/-- An issue that the owner has authorized. -/
def github : GitHubReads where
  getBranch _ := .ok (.obj [("name", .str "main"), ("commit", .obj [("sha", .str commit)])])
  getIssue _ := .ok (.obj [("number", .int 7), ("state", .str "open"),
    ("html_url", .str ("https://github.com/" ++ repo ++ "/issues/7")),
    ("repository_url", .str ("https://api.github.com/repos/" ++ repo))])
  getComment _ := .ok (.obj [("id", .int 9),
    ("user", .obj [("login", .str owner), ("type", .str "User")]),
    ("author_association", .str "OWNER"),
    ("issue_url", .str ("https://api.github.com/repos/" ++ repo ++ "/issues/7")),
    ("body", .str ("/local-agent authorize " ++ profile ++ " sha:" ++ commit))])
  getSource _ := .ok ("def _property".toList.map fun c => UInt8.ofNat c.toNat, commit)

def validate : TrustedTask → String → Except Raised Report := fun _ _ => .ok ⟨42, 41⟩

def request : AdmitIssue := ⟨7, 9, "dev", ⟨.aware 0, "1970-01-01T00:00:00+00:00"⟩⟩

def visit : Visit := ⟨.at start, .at start, .at start⟩

def binding : IssueBinding := .of 7 commit 9

def prepared : Pool := Pool.empty.run .ascii
  [cutover, (.at start, .configureRepository repo true 1), register "b1" "builder"]

/-- A builder claims the task under a correlation id of its own. -/
def claim : Op :=
  .claimTask ⟨"b1", "builder", "builder-run-1", none,
    some (taskIdOf ((issuePayload binding).key .ascii)), true⟩ (uuid 'a') (uuid 'b')

/-- What the service does for an admission, for the claim of its task and for a replay. -/
def story : Body (List Json × (Task × Bool) × Bool × Task × Bool) := do
  let lanes ← snapshotRepositories .ascii visit
  let e ← enqueueTask .ascii (.at start) (issuePayload binding)
  let before ← read fun db => laneConfiguration db == laneConfiguration prepared.db
  let _ ← claim.run .ascii (.at start)
  let after ← read fun db => laneConfiguration db == laneConfiguration prepared.db
  let _ ← snapshotRepositories .ascii visit
  let e' ← enqueueTask .ascii (.at start) (issuePayload binding)
  pure (lanes, e, before && after, e')

def told (p : List Json × (Task × Bool) × Bool × Task × Bool) : Bool :=
  bodyBytes (.arr p.1) ≤ maxResponseBytes && bodyBytes (enqueued p.2.1).body ≤ maxResponseBytes &&
    isTaskId p.2.1.1.taskId &&
    echoes (issuePayload binding) ["repository", "issue_number", "request_id", "correlation_id",
      "priority", "base_sha"] (publicTask p.2.1.1) &&
    isFencedOnce (issuePayload binding) (publicTask p.2.1.1) && p.2.2.1 &&
    p.2.2.2.1.correlationId != binding.correlationId

end Sample

theorem story_told : Sample.story.test Sample.prepared.db (fun p _ => Sample.told p) = true := by
  decide +kernel

theorem sample_bound : ∃ report,
    failingBaseline Sample.interpreter Sample.validate Sample.github Sample.request =
      .ok (Sample.binding, report) := by
  have found : (failingBaseline Sample.interpreter Sample.validate Sample.github
      Sample.request).toOption.any (fun p => p.1 = Sample.binding) = true := by decide +kernel
  cases bound : failingBaseline Sample.interpreter Sample.validate Sample.github Sample.request with
  | error e =>
    rw [bound] at found
    cases found
  | ok p =>
    rw [bound] at found
    exact ⟨p.2, by rw [← of_decide_eq_true found]⟩

theorem prepared_reachable : (pool .ascii).Reachable Sample.prepared :=
  Pool.reachable_run (by decide)

/-- The admission of the sample, the claim of its task, and what a replay would read. -/
theorem sample_story : ∃ report a t s' e swept db',
    failingBaseline Sample.interpreter Sample.validate Sample.github Sample.request =
      .ok (Sample.binding, report) ∧
    (admitToExistingPool Sample.interpreter Sample.validate Sample.github Sample.github
      Sample.request).Returns (ApiRequest.run .ascii true Sample.visit) Sample.prepared a t ∧
    laneConfiguration t.db = laneConfiguration Sample.prepared.db ∧
    (pool .ascii).Steps t s' ∧ laneConfiguration s'.db = laneConfiguration Sample.prepared.db ∧
    (snapshotRepositories .ascii Sample.visit).Yields s'.db swept.laneViews swept ∧
    (enqueueTask .ascii (.at WorkerPool.Sample.start) (issuePayload Sample.binding)).Yields swept e db' ∧
    e.1.correlationId ≠ Sample.binding.correlationId := by
  obtain ⟨report, bound⟩ := sample_bound
  obtain ⟨_, _, ran, holds⟩ := test_iff.mp story_told
  simp only [Sample.story, bind_yields, read_yields, pure_yields] at ran
  obtain ⟨lanes, swept, taken, ⟨row, created⟩, _, call, _, db, ⟨rfl, rfl⟩, reply,
    _, claim, _, claimed, ⟨rfl, rfl⟩, lanes', swept', taken', e, _, call', rfl, rfl⟩ := ran
  obtain ⟨_, _, _, -, -, rfl⟩ := snapshotRepositories_yields.mp taken
  obtain ⟨_, _, _, -, -, rfl⟩ := snapshotRepositories_yields.mp taken'
  simp only [Sample.told, Bool.and_eq_true, decide_eq_true_eq, bne_iff_ne, beq_iff_eq] at holds
  obtain ⟨⟨⟨⟨⟨⟨small, smallReply⟩, named⟩, same⟩, once⟩, before, unchanged⟩, other⟩ := holds
  have acceptable : Acceptable true (issuePayload Sample.binding) :=
    ⟨by decide +kernel, by decide +kernel, fun _ => rfl⟩
  have configured : laneConfiguration swept = laneConfiguration Sample.prepared.db := by
    rw [laneConfiguration, (snapshot_aside taken).lanes]
    rfl
  have shown : LanesShown .ascii Sample.visit Sample.prepared swept := by
    refine ⟨taken, small, ?_, ?_⟩
    · rw [configured]
      decide +kernel
    · rw [configured]
      decide +kernel
  have first := admission_returns.mpr ⟨Sample.binding, report, bound, failingBaseline_reads bound,
    acceptable, swept, shown, row, created, row, db, ⟨call, smallReply, named,
      (enqueueTask_replays call).1, (bodyBytes_publicTask (row, created)).trans smallReply,
      echoed_iff.mpr ⟨same, once⟩⟩, rfl, rfl⟩
  have step : (pool .ascii).step { Sample.prepared with db := db } (.at WorkerPool.Sample.start, Sample.claim)
      (({ Sample.prepared with db := db } : Pool).after .ascii (.at WorkerPool.Sample.start) Sample.claim) := by
    have fresh : Sample.claim.Fresh Sample.prepared := by decide
    exact ⟨fresh, rfl⟩
  have after : (({ Sample.prepared with db := db } : Pool).after .ascii (.at WorkerPool.Sample.start)
      Sample.claim).db = claimed := congrArg Prod.snd claim
  refine ⟨report, _, _, _, e, swept', _, bound, first, before, (Steps.refl _).tail step,
    ?_, ?_, call', other⟩
  · rw [after]
    exact unchanged
  · rw [after]
    exact taken'

/-- A run that nothing has happened after is replayed. -/
theorem admission_replayed_at_once : ∃ a t,
    (admitToExistingPool Sample.interpreter Sample.validate Sample.github Sample.github
      Sample.request).Returns (ApiRequest.run .ascii true Sample.visit) Sample.prepared a t ∧
    ((∃ a' t', (admitToExistingPool Sample.interpreter Sample.validate Sample.github Sample.github
        Sample.request).Returns (ApiRequest.run .ascii true Sample.visit) t a' t' ∧
          a'.taskId = a.taskId ∧ a'.created = false) ↔
      Replayable .ascii Sample.visit Sample.binding a.taskId t) := by
  obtain ⟨report, a, t, s', e, swept, db', bound, first, lanes, -⟩ := sample_story
  exact ⟨a, t, first, admission_replayed prepared_reachable first bound (.refl t) bound
    (failingBaseline_reads bound) (.of_eq lanes)⟩

/-- Once a builder has claimed the task under its own correlation id, no run returns it again. -/
theorem admission_lost_to_claim : ∃ report a t s',
    (pool .ascii).Reachable Sample.prepared ∧
    failingBaseline Sample.interpreter Sample.validate Sample.github Sample.request =
      .ok (Sample.binding, report) ∧
    (admitToExistingPool Sample.interpreter Sample.validate Sample.github Sample.github
      Sample.request).Returns (ApiRequest.run .ascii true Sample.visit) Sample.prepared a t ∧
    (pool .ascii).Steps t s' ∧ laneConfiguration s'.db = laneConfiguration Sample.prepared.db ∧
    ¬ ∃ a' t', (admitToExistingPool Sample.interpreter Sample.validate Sample.github Sample.github
      Sample.request).Returns (ApiRequest.run .ascii true Sample.visit) s' a' t' := by
  obtain ⟨report, a, t, s', e, swept, db', bound, first, -, later, lanes, taken, call, other⟩ :=
    sample_story
  refine ⟨report, a, t, s', prepared_reachable, bound, first, later, lanes, ?_⟩
  rintro ⟨a', t', returned⟩
  obtain ⟨b, _, bound', -, -, swept', shown, row, created, stored, db'', back, -, -⟩ :=
    admission_returns.mp returned
  cases bound.symm.trans bound'
  have again : swept' = swept := congrArg Prod.snd (shown.taken.symm.trans taken)
  subst again
  cases back.call.symm.trans call
  obtain rfl := Option.some.inj ((enqueueTask_replays call).1.symm.trans back.found)
  exact other back.echoed.correlationId

end WorkerPool.Issue
