import WorkerPool.Checkpoints
import WorkerPool.Lib.Transition

/-!
# The pool as a transition system

One label for each public method that writes, with its arguments and its
circumstances. A state is the database and the `uuid4` values drawn so far.
-/

namespace WorkerPool

open Transaction Transaction.Tx Transition

inductive Op where
  | registerWorker (a : RegisterWorker)
  | heartbeatWorker (a : Heartbeat)
  | configureRepository (repository : String) (enabled : Bool) (maxInFlight : Int)
  | replaceWorkerAffinities (workerId : String) (repositories : List String)
  | enableFencedCutover (correlationId : String)
      (legacyClaimersDrained sharedQueueExclusive : Bool)
  | enqueueTask (a : EnqueueTask)
  | claimTask (a : ClaimTask) (token attemptId : Uuid)
  | renewLease (p : Credential) (correlationId : String) (leaseSeconds : Option Int)
  | startTask (p : Credential) (correlationId : String)
  | submitForValidation (p : Credential) (producedSha correlationId : String)
  | completeTask (p : Credential) (correlationId : String)
  | failTask (p : Credential) (correlationId reason : String)
  | blockTask (p : Credential) (correlationId reason : String)
  | recordCheckpoint (a : RecordCheckpoint)
  | reconcileEffect (a : ReconcileEffect)
  | requeueBlocked (taskId correlationId : String)
  | recoverExpiredLeases
  | recoverStalledTasks
  | reconcile

inductive Reply where
  | worker (w : Worker)
  | lane (l : Lane)
  | names (l : List String)
  | cutover (c : Cutover)
  | task (t : Task)
  | enqueued (t : Task) (created : Bool)
  | claim (granted : Option (Task × Lease))
  | checkpoint (c : Checkpoint) (created : Bool)
  | reconciliation (r : Reconciliation) (created : Bool)
  | expired (n : Nat)
  | stalled (s : Stalled)
  | cycle (expired : Nat) (s : Stalled)

namespace Op

def run (rt : Runtime) (c : Call) : Op → Body Reply
  | .registerWorker a => do return .worker (← WorkerPool.registerWorker rt c a)
  | .heartbeatWorker a => do return .worker (← WorkerPool.heartbeatWorker rt c a)
  | .configureRepository repository enabled maxInFlight => do
    return .lane (← WorkerPool.configureRepository c repository enabled maxInFlight)
  | .replaceWorkerAffinities workerId repositories => do
    return .names (← WorkerPool.replaceWorkerAffinities c workerId repositories)
  | .enableFencedCutover correlationId drained exclusive => do
    return .cutover (← WorkerPool.enableFencedCutover c correlationId drained exclusive)
  | .enqueueTask a => do
    let r ← WorkerPool.enqueueTask rt c a
    return .enqueued r.1 r.2
  | .claimTask a token attemptId => do
    return .claim (← WorkerPool.claimTask rt c a token attemptId)
  | .renewLease p correlationId seconds => do
    return .task (← WorkerPool.renewLease c p correlationId seconds)
  | .startTask p correlationId => do return .task (← WorkerPool.startTask c p correlationId)
  | .submitForValidation p producedSha correlationId => do
    return .task (← WorkerPool.submitForValidation rt c p producedSha correlationId)
  | .completeTask p correlationId => do return .task (← WorkerPool.completeTask c p correlationId)
  | .failTask p correlationId reason => do
    return .task (← WorkerPool.failTask rt c p correlationId reason)
  | .blockTask p correlationId reason => do
    return .task (← WorkerPool.blockTask rt c p correlationId reason)
  | .recordCheckpoint a => do
    let r ← WorkerPool.recordCheckpoint rt c a
    return .checkpoint r.1 r.2
  | .reconcileEffect a => do
    let r ← WorkerPool.reconcileEffect rt c a
    return .reconciliation r.1 r.2
  | .requeueBlocked taskId correlationId => do
    return .task (← WorkerPool.requeueBlocked c taskId correlationId)
  | .recoverExpiredLeases => do return .expired (← WorkerPool.recoverExpiredLeases rt c)
  | .recoverStalledTasks => do return .stalled (← WorkerPool.recoverStalledTasks rt c)
  | .reconcile => do
    let r ← WorkerPool.reconcile rt c
    return .cycle r.1 r.2

/-- The `uuid4` values a call draws. -/
def uuids : Op → List Uuid
  | .claimTask _ token attemptId => [token, attemptId]
  | _ => []

end Op

structure Pool where
  db : Db
  drawn : List Uuid

/-- An empty database, before any draw. -/
def Pool.empty : Pool := ⟨.empty, []⟩

/-- The values drawn by a call are new and distinct. -/
def Op.Fresh (op : Op) (s : Pool) : Prop := op.uuids.Nodup ∧ ∀ u ∈ op.uuids, u ∉ s.drawn

instance (op : Op) (s : Pool) : Decidable (op.Fresh s) :=
  inferInstanceAs (Decidable (_ ∧ _))

/-- The state after a call, whether it returned or raised. -/
def Pool.after (rt : Runtime) (s : Pool) (c : Call) (op : Op) : Pool :=
  ⟨(op.run rt c s.db).2, op.uuids ++ s.drawn⟩

/-- Every order of calls by any callers, at any clock readings, from an empty database. -/
def pool (rt : Runtime) : System Pool (Call × Op) where
  init s := s = .empty
  step s l t := l.2.Fresh s ∧ t = s.after rt l.1 l.2

/-- The state after a sequence of calls. -/
def Pool.run (rt : Runtime) (s : Pool) : List (Call × Op) → Pool
  | [] => s
  | l :: rest => Pool.run rt (s.after rt l.1 l.2) rest

/-- The draws of a sequence of calls are new, call after call. -/
def FreshCalls (drawn : List Uuid) : List (Call × Op) → Prop
  | [] => True
  | l :: rest => (l.2.uuids.Nodup ∧ ∀ u ∈ l.2.uuids, u ∉ drawn) ∧
      FreshCalls (l.2.uuids ++ drawn) rest

instance FreshCalls.decidable : (drawn : List Uuid) → (calls : List (Call × Op)) →
    Decidable (FreshCalls drawn calls)
  | _, [] => inferInstanceAs (Decidable True)
  | drawn, l :: rest =>
    haveI := FreshCalls.decidable (l.2.uuids ++ drawn) rest
    inferInstanceAs (Decidable (_ ∧ _))

theorem Pool.steps_run {rt : Runtime} {calls : List (Call × Op)} {s : Pool}
    (fresh : FreshCalls s.drawn calls) : (pool rt).Steps s (s.run rt calls) := by
  induction calls generalizing s with
  | nil => exact .refl s
  | cons l rest ih => exact .trans (.single ⟨fresh.1, rfl⟩) (ih fresh.2)

theorem Pool.reachable_run {rt : Runtime} {calls : List (Call × Op)} (fresh : FreshCalls [] calls) :
    (pool rt).Reachable (Pool.empty.run rt calls) := ⟨.empty, rfl, Pool.steps_run fresh⟩

/-- A sequence of calls that each meet a condition, wherever they are made. -/
theorem Pool.reachable_restrict_run {rt : Runtime} {good : Pool → Call × Op → Pool → Prop}
    {calls : List (Call × Op)} (fresh : FreshCalls [] calls)
    (each : ∀ l ∈ calls, ∀ s s', (pool rt).Reachable s → (pool rt).step s l s' → good s l s') :
    ((pool rt).restrict good).Reachable (Pool.empty.run rt calls) := by
  have steps : ∀ (calls : List (Call × Op)) (s : Pool), (pool rt).Reachable s →
      FreshCalls s.drawn calls →
      (∀ l ∈ calls, ∀ s s', (pool rt).Reachable s → (pool rt).step s l s' → good s l s') →
      ((pool rt).restrict good).Steps s (s.run rt calls) := by
    intro calls
    induction calls with
    | nil => exact fun s _ _ _ => .refl s
    | cons l rest ih =>
      intro s reach fresh each
      have st : (pool rt).step s l (s.after rt l.1 l.2) := ⟨fresh.1, rfl⟩
      refine .trans (.single ⟨st, each l List.mem_cons_self s _ reach st⟩) ?_
      exact ih _ (reach.step st) fresh.2 fun l' hl' => each l' (List.mem_cons_of_mem _ hl')
  exact ⟨.empty, rfl, steps calls .empty (.init rfl) fresh each⟩

/-! ### Sample calls -/

namespace Sample

open Calendar PyText

def start : Instant := ⟨63902908800000000, by decide⟩

def uuid (c : Char) (isHex : hexRun 32 (String.ofList (List.replicate 32 c)) = true := by exact Eq.refl true) :
    Uuid := ⟨String.ofList (List.replicate 32 c), isHex⟩

def register (workerId role : String) : Call × Op :=
  (.at start, .registerWorker ⟨workerId, "host", role, "corr", "NORMAL", 50, none, none, true, true,
    none⟩)

def cutover : Call × Op := (.at start, .enableFencedCutover "corr" true true)

def enqueue (fenced : Bool) (requestId : String) : Call × Op :=
  (.at start, .enqueueTask ⟨"o/r", 1, requestId, "corr", 100, none, none, none, fenced⟩)

/-- The task that `enqueue` admits under the request `r1`. -/
def taskId : String := "cwp-76203142d57e5cac067163ea"

def claim (workerId role : String) (fenced : Bool) (token attemptId : Uuid) : Call × Op :=
  (.at start, .claimTask ⟨workerId, role, "corr", none, none, fenced⟩ token attemptId)

def credential (workerId : String) (token attemptId : Uuid) (leaseGeneration : Int) : Credential :=
  ⟨taskId, workerId, token.hex, some leaseGeneration, some attemptId.hex⟩

def block (p : Credential) : Call × Op := (.at start, .blockTask p "corr" "waiting")

def requeue : Call × Op := (.at start, .requeueBlocked taskId "corr")

/-- A checkpoint that puts the effect `e1` in a state. -/
def checkpoint (workerId : String) (token attemptId : Uuid) (leaseGeneration : Int)
    (checkpointId : String) (sequence : Int) (effectState : String)
    (effectResultRef : Option String) : RecordCheckpoint :=
  ⟨taskId, workerId, token.hex, leaseGeneration, attemptId.hex, checkpointId, sequence, "publish",
    "verify", "corr", none, none, none, some "e1", effectState, effectResultRef⟩

def startTask (p : Credential) : Call × Op := (.at start, .startTask p "corr")

def submit (p : Credential) : Call × Op :=
  (.at start, .submitForValidation p (String.ofList (List.replicate 40 'a')) "corr")

def complete (p : Credential) : Call × Op := (.at start, .completeTask p "corr")

/-- A fenced task under the lease of a builder. -/
def leased : List (Call × Op) :=
  [register "b1" "builder", register "v1" "validator", cutover, enqueue true "r1",
    claim "b1" "builder" true (uuid 'a') (uuid 'b')]

/-- The same task with its revision handed over. -/
def produced : List (Call × Op) :=
  leased ++ [startTask (credential "b1" (uuid 'a') (uuid 'b') 1),
    submit (credential "b1" (uuid 'a') (uuid 'b') 1)]

/-- The same task under the lease of a validator. -/
def validating : List (Call × Op) :=
  produced ++ [claim "v1" "validator" true (uuid 'c') (uuid 'd')]

def completed : List (Call × Op) :=
  validating ++ [complete (credential "v1" (uuid 'c') (uuid 'd') 2)]

/-- The same task once its builder has declared the effect `e1`. -/
def declared : List (Call × Op) :=
  leased ++ [(.at start,
    .recordCheckpoint (checkpoint "b1" (uuid 'a') (uuid 'b') 1 "c1" 1 "pending" none))]

end Sample

end WorkerPool
