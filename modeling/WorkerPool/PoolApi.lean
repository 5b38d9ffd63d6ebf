import Mathlib
import WorkerPool.Governance
import WorkerPool.IssueBinding

/-!
# The loopback service and its client

The routes that the admission of an issue uses, as the service answers them from the store, and
what `LocalWorkerApi` accepts of an answer. `Raised.blocked` is `NativeExecutorBlocked` here.
-/

namespace WorkerPool

open PyText Transaction Transaction.Tx

/-! ### Answers -/

/-- A response, with what its text says. -/
structure HttpResponse where
  status : Nat
  body : Json

/-- `_error_response`, and what an exception without a handler becomes. -/
def PoolError.response : PoolError → HttpResponse
  | .notFound message => ⟨404, .obj [("detail", .str message)]⟩
  | .conflict message => ⟨409, .obj [("detail", .str message)]⟩
  | .value message => ⟨422, .obj [("detail", .str message)]⟩
  | .integrity _ => ⟨500, .null⟩
  | .overflow => ⟨500, .null⟩

/-- `public_task`. -/
def publicTask (t : Task) : Json := .obj [
  ("task_id", .str t.taskId), ("repository", .str t.repository),
  ("issue_number", .int t.issueNumber), ("request_id", .str t.requestId),
  ("idempotency_key", .str t.idempotencyKey), ("state", .str t.state.text),
  ("priority", .int t.priority), ("branch", .str t.branch),
  ("workspace_key", .str t.workspaceKey), ("base_sha", .ofOption t.baseSha),
  ("produced_sha", .ofOption t.producedSha), ("builder_worker_id", .ofOption t.builderWorkerId),
  ("validator_worker_id", .ofOption t.validatorWorkerId), ("leased_by", .ofOption t.leasedBy),
  ("lease_expires_at", .ofOption t.leaseExpiresAt), ("lease_generation", .int t.leaseGeneration),
  ("attempt_id", .ofOption t.attemptId), ("fencing_required", .bool t.fencingRequired),
  ("attempt_count", .int t.attemptCount), ("max_attempts", .int t.maxAttempts),
  ("blocked_reason", .ofOption t.blockedReason), ("last_error", .ofOption t.lastError),
  ("correlation_id", .str t.correlationId), ("created_at", .str t.createdAt),
  ("updated_at", .str t.updatedAt), ("last_material_progress_at", .str t.lastMaterialProgressAt),
  ("completed_at", .ofOption t.completedAt)]

/-- How many tasks of the repository satisfy a test. -/
def Db.laneCount (db : Db) (repository : String) (p : TaskState → Bool) : Int :=
  (db.tasks.rows.filter fun t => t.repository == repository && p t.state).length

def Db.laneView (db : Db) (l : Lane) : Json := .obj [
  ("repository", .str l.repository), ("enabled", .bool l.enabled),
  ("max_in_flight", .int l.maxInFlight), ("builder_claim_count", .int l.builderClaimCount),
  ("validator_claim_count", .int l.validatorClaimCount),
  ("last_builder_claimed_at", .ofOption l.lastBuilderClaimedAt),
  ("last_validator_claimed_at", .ofOption l.lastValidatorClaimedAt),
  ("updated_at", .str l.updatedAt), ("queued", .int (db.laneCount l.repository (· == .queued))),
  ("active", .int (db.laneCount l.repository TaskState.active))]

/-- The lanes of `snapshot`. -/
def Db.laneViews (db : Db) : List Json :=
  (db.lanes.rows.insertionSort fun l l' => l.repository ≤ l'.repository).map db.laneView

/-- The clock readings of the calls that one run makes. -/
structure Visit where
  expired : Call
  stalled : Call
  enqueue : Call

/-- `snapshot`, as far as its lanes go. -/
def snapshotRepositories (rt : Runtime) (v : Visit) : Body (List Json) := do
  let _ ← recoverExpiredLeases rt v.expired
  let _ ← recoverStalledTasks rt v.stalled
  read Db.laneViews

/-- The fields of `TaskCreate`. -/
def EnqueueTask.wellFormed (a : EnqueueTask) : Bool :=
  3 ≤ a.repository.length && a.repository.length ≤ 256 && 1 ≤ a.issueNumber &&
    1 ≤ a.requestId.length && a.requestId.length ≤ 256 && 1 ≤ a.correlationId.length &&
    a.correlationId.length ≤ 128 && 0 ≤ a.priority && a.priority ≤ 10000 &&
    a.baseSha.any (fun s => s.length == 40) && a.targetBranch.all (fun s => s.length ≤ 200) &&
    a.maxAttempts.all (fun n => 1 ≤ n && n ≤ 20)

/-! ### Requests -/

inductive ApiRequest where
  | repositories
  | enqueue (a : EnqueueTask)
  | task (taskId : String)

@[reducible] def ApiRequest.Reply : ApiRequest → Type := fun _ => HttpResponse

/-- The response to a call of the store. -/
def respond {α : Type} (m : Body α) (response : α → HttpResponse) (s : Pool) :
    Except Raised HttpResponse × Pool :=
  (.ok (match (m s.db).1 with
    | .ok a => response a
    | .error e => e.response), { s with db := (m s.db).2 })

/-- `{"created": created, "task": public_task(task)}`. -/
def enqueued (e : Task × Bool) : HttpResponse :=
  ⟨if e.2 then 201 else 200, .obj [("created", .bool e.2), ("task", publicTask e.1)]⟩

/-- The routes; `ready` is `_reconciliation_auth_ready()`. -/
def ApiRequest.run (rt : Runtime) (ready : Bool) (v : Visit) :
    (q : ApiRequest) → Pool → Except Raised q.Reply × Pool
  | .repositories, s => respond (snapshotRepositories rt v) (fun lanes => ⟨200, .arr lanes⟩) s
  | .enqueue a, s =>
    if ¬ a.wellFormed then (.ok ⟨422, .null⟩, s)
    else if a.fencingRequired ∧ ¬ ready then
      (.ok ⟨503, .obj [("detail",
        .str "reconciliation_auth_not_configured_or_not_separated")]⟩, s)
    else respond (enqueueTask rt v.enqueue a) enqueued s
  | .task taskId, s => respond (getTask taskId) (fun row => ⟨200, publicTask row⟩) s

abbrev ApiProgram (α : Type) : Type := Program Raised ApiRequest ApiRequest.Reply α

/-! ### The client -/

def maxResponseBytes : Nat := 65536

/-- The bytes of a body; none of those of the service holds a float. -/
def bodyBytes (body : Json) : Nat := ((body.dumps false fun _ => []).map Char.utf8Size).sum

def apiNeed (ok : Prop) [Decidable ok] (reason : String) : ApiProgram Unit :=
  Program.need ok (.blocked [.str reason])

/-- `LocalWorkerApi._request`. -/
def apiRequest (q : ApiRequest) (expected : List Nat) (shape : Json → Bool) : ApiProgram Json := do
  let response ← Program.request q
  apiNeed (response.status ≠ 401) "worker_auth_rejected"
  apiNeed (response.status ∈ expected) "worker_http_unverified"
  apiNeed (bodyBytes response.body ≤ maxResponseBytes ∧ shape response.body = true)
    "worker_response_invalid"
  pure response.body

def isLaneList : Json → Bool
  | .arr items => items.length ≤ 128 && items.all Json.isObj
  | _ => false

/-- `list_repositories`. -/
def listRepositories : ApiProgram (List Json) := do
  match ← apiRequest .repositories [200] isLaneList with
  | .arr lanes => pure lanes
  | _ => .raise (.blocked [.str "worker_lanes_invalid"])

def taskStates : List String :=
  ["queued", "leased", "running", "validating", "blocked", "completed", "failed"]

/-- `_task`. -/
def isReadback (taskId : String) (task : Json) : Bool :=
  (Issue.item "task_id" task).isStr taskId && (Issue.item "state" task).isText (· ∈ taskStates) &&
    match task with
    | .obj fields => (Json.lookup "lease_token" fields).isNone
    | _ => false

/-- `get_task`. -/
def fetchTask (taskId : String) : ApiProgram Json := do
  apiNeed (isTaskId taskId) "worker_task_id_invalid"
  let task ← apiRequest (.task taskId) [200] Json.isObj
  apiNeed (isReadback taskId task) "worker_task_readback_invalid"
  pure task

/-! ### What the client has seen -/

section Client

variable {rt : Runtime} {ready : Bool} {v : Visit} {s t : Pool}

/-- An answer that is expected comes from a call that has returned. -/
theorem respond_eq_ok {α : Type} {m : Body α} {response : α → HttpResponse} {expected : List Nat}
    (accepted : ∀ a, (response a).status ∈ expected)
    (refused : ∀ e, (PoolError.response e).status ∉ expected) {answer : HttpResponse} :
    (respond m response s = (.ok answer, t) ∧ answer.status ∈ expected) ↔
      ∃ a db', m.Yields s.db a db' ∧ answer = response a ∧ t = { s with db := db' } := by
  rcases yields_or_fails m s.db with ⟨a, db', returned⟩ | ⟨e, db', raised⟩
  · have answered : respond m response s = (.ok (response a), { s with db := db' }) := by
      rw [respond, show m s.db = _ from returned]
    rw [answered]
    constructor
    · rintro ⟨same, -⟩
      cases same
      exact ⟨a, db', returned, rfl, rfl⟩
    · rintro ⟨_, _, again, rfl, rfl⟩
      cases returned.symm.trans again
      exact ⟨rfl, accepted a⟩
  · have answered : respond m response s = (.ok e.response, { s with db := db' }) := by
      rw [respond, show m s.db = _ from raised]
    rw [answered]
    constructor
    · rintro ⟨same, expected⟩
      cases same
      exact absurd expected (refused e)
    · rintro ⟨_, _, returned, -⟩
      cases raised.symm.trans returned

theorem apiRequest_returns {q : ApiRequest} {expected : List Nat} {shape : Json → Bool} {body : Json}
    (other : 401 ∉ expected) :
    (apiRequest q expected shape).Returns (ApiRequest.run rt ready v) s body t ↔
      ∃ answer : HttpResponse, (q.run rt ready v s = (.ok answer, t) ∧ answer.status ∈ expected) ∧
        bodyBytes answer.body ≤ maxResponseBytes ∧ shape answer.body = true ∧ body = answer.body := by
  simp only [apiRequest, Program.returns_bind, Program.returns_request, apiNeed,
    Program.returns_need, Program.returns_pure]
  constructor
  · rintro ⟨answer, _, answered, _, _, ⟨-, rfl⟩, _, _, ⟨known, rfl⟩, _, _, ⟨⟨small, shaped⟩, rfl⟩,
      rfl, rfl⟩
    exact ⟨answer, ⟨answered, known⟩, small, shaped, rfl⟩
  · rintro ⟨answer, ⟨answered, known⟩, small, shaped, rfl⟩
    have allowed : answer.status ≠ 401 := fun same => other (same ▸ known)
    exact ⟨answer, t, answered, (), t, ⟨allowed, rfl⟩, (), t, ⟨known, rfl⟩, (), t,
      ⟨⟨small, shaped⟩, rfl⟩, rfl, rfl⟩

theorem PoolError.response_refused (e : PoolError) {expected : List Nat}
    (others : ∀ n ∈ expected, n ≤ 201) : e.response.status ∉ expected := by
  intro known
  have small := others _ known
  cases e with
  | notFound | conflict | value | integrity | overflow => simp [PoolError.response] at small

theorem respond_read {α : Type} {m : Body α} {body : α → Json} {answer : HttpResponse} :
    (respond m (fun a => ⟨200, body a⟩) s = (.ok answer, t) ∧ answer.status ∈ [200]) ↔
      ∃ a db', m.Yields s.db a db' ∧ answer = ⟨200, body a⟩ ∧ t = { s with db := db' } := by
  apply respond_eq_ok
  · exact fun _ => List.mem_singleton.mpr rfl
  · exact fun e => e.response_refused (by decide)

theorem listRepositories_returns {lanes : List Json} :
    listRepositories.Returns (ApiRequest.run rt ready v) s lanes t ↔
      ∃ swept, (snapshotRepositories rt v).Yields s.db lanes swept ∧
        bodyBytes (.arr lanes) ≤ maxResponseBytes ∧ isLaneList (.arr lanes) = true ∧
        t = { s with db := swept } := by
  simp only [listRepositories, Program.returns_bind, apiRequest_returns (by decide : 401 ∉ [200]),
    ApiRequest.run, respond_read]
  constructor
  · rintro ⟨_, _, ⟨_, ⟨found, swept, taken, rfl, rfl⟩, small, shaped, rfl⟩, returned⟩
    obtain ⟨rfl, rfl⟩ := Program.returns_pure.mp returned
    exact ⟨swept, taken, small, shaped, rfl⟩
  · rintro ⟨swept, taken, small, shaped, rfl⟩
    exact ⟨.arr lanes, _, ⟨_, ⟨lanes, swept, taken, rfl, rfl⟩, small, shaped, rfl⟩,
      Program.returns_pure.mpr ⟨rfl, rfl⟩⟩

theorem publicTask_state (row : Task) :
    (Issue.item "state" (publicTask row)).isText (· ∈ taskStates) = true := by
  have known : row.state.text ∈ taskStates := by
    cases row.state <;> decide
  simpa [publicTask, Issue.item, Json.field, Json.lookup, Json.isText, Json.str?] using known

theorem isReadback_publicTask (row : Task) : isReadback row.taskId (publicTask row) = true := by
  have state := publicTask_state row
  unfold isReadback
  rw [state]
  simp [publicTask, Issue.item, Json.field, Json.lookup, Json.isStr]

theorem fetchTask_returns {taskId : String} {task : Json} :
    (fetchTask taskId).Returns (ApiRequest.run rt ready v) s task t ↔
      isTaskId taskId = true ∧ ∃ row, s.db.tasks.find? taskId = some row ∧
        bodyBytes (publicTask row) ≤ maxResponseBytes ∧ task = publicTask row ∧ t = s := by
  simp only [fetchTask, Program.returns_bind, apiRequest_returns (by decide : 401 ∉ [200]), apiNeed,
    Program.returns_need, Program.returns_pure, ApiRequest.run, respond_read, getTask_yields]
  constructor
  · rintro ⟨_, _, ⟨named, rfl⟩, _, _, ⟨_, ⟨row, _, ⟨found, rfl⟩, rfl, rfl⟩, small, -, rfl⟩, _, _,
      ⟨-, rfl⟩, rfl, rfl⟩
    exact ⟨named, row, found, small, rfl, rfl⟩
  · rintro ⟨named, row, found, small, rfl, rfl⟩
    have shaped : isReadback taskId (publicTask row) = true := by
      rw [← Table.key_of_find? found]
      exact isReadback_publicTask row
    exact ⟨(), _, ⟨named, rfl⟩, _, _, ⟨_, ⟨row, _, ⟨found, rfl⟩, rfl, rfl⟩, small, rfl, rfl⟩, (), _,
      ⟨shaped, rfl⟩, rfl, rfl⟩

end Client

end WorkerPool
