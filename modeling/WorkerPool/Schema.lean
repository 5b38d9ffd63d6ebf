import WorkerPool.Lib.Calendar
import WorkerPool.Lib.Sha256
import WorkerPool.Lib.Table
import WorkerPool.Lib.Transaction

/-!
# The tables of the worker pool

Rows and columns as `WorkerPoolStore._init` creates them. Timestamps are text, as
in the database. The load figures of a heartbeat (`cpu_percent`, `memory_percent`)
are left out: nothing modelled here reads them.
-/

namespace WorkerPool

open Calendar PyText Transaction

inductive Role where
  | builder | validator
  deriving DecidableEq, Repr

inductive Profile where
  | normal | estudo
  deriving DecidableEq, Repr

inductive TaskState where
  | queued | leased | running | validating | blocked | completed | failed
  deriving DecidableEq, Repr

inductive EffectState where
  | none | pending | confirmed | notApplied | unknown
  deriving DecidableEq, Repr

inductive Outcome where
  | confirmed | notApplied
  deriving DecidableEq, Repr

namespace Role

def text : Role → String
  | .builder => "builder"
  | .validator => "validator"

def ofText (s : String) : Option Role :=
  if s = "builder" then some .builder else if s = "validator" then some .validator else none

end Role

namespace Profile

def text : Profile → String
  | .normal => "NORMAL"
  | .estudo => "ESTUDO"

def ofText (s : String) : Option Profile :=
  if s = "NORMAL" then some .normal else if s = "ESTUDO" then some .estudo else none

end Profile

namespace TaskState

def text : TaskState → String
  | .queued => "queued"
  | .leased => "leased"
  | .running => "running"
  | .validating => "validating"
  | .blocked => "blocked"
  | .completed => "completed"
  | .failed => "failed"

/-- `state IN ('leased','running','validating')`. -/
def active : TaskState → Bool
  | .leased | .running | .validating => true
  | _ => false

/-- The tuple `ACTIVE`. -/
def allActive : List TaskState := [.leased, .running, .validating]

end TaskState

namespace EffectState

def text : EffectState → String
  | .none => "none"
  | .pending => "pending"
  | .confirmed => "confirmed"
  | .notApplied => "not_applied"
  | .unknown => "unknown"

def ofText (s : String) : Option EffectState :=
  if s = "none" then some .none else if s = "pending" then some .pending
  else if s = "confirmed" then some .confirmed
  else if s = "not_applied" then some .notApplied
  else if s = "unknown" then some .unknown else Option.none

/-- Declared, and not yet known to have been applied or not. -/
def undecided : EffectState → Bool
  | .pending | .unknown => true
  | _ => false

end EffectState

namespace Outcome

def text : Outcome → String
  | .confirmed => "confirmed"
  | .notApplied => "not_applied"

def ofText (s : String) : Option Outcome :=
  if s = "confirmed" then some .confirmed
  else if s = "not_applied" then some .notApplied else none

end Outcome

/-- The exceptions a store call can raise: the two `PoolError`s, `ValueError`,
a constraint or trigger of the database, and a date outside the calendar. -/
inductive PoolError where
  | notFound (message : String)
  | conflict (message : String)
  | value (message : String)
  | integrity (message : String)
  | overflow
  deriving DecidableEq, Repr

/-- `uuid.uuid4().hex`. -/
structure Uuid where
  hex : String
  isHex : hexRun 32 hex = true
  deriving DecidableEq

/-- What the interpreter supplies: the digest of `hashlib` and the Unicode tables. -/
structure Runtime where
  sha256 : String → String
  sha256_hex : ∀ text, hexRun 64 (sha256 text) = true
  lower : String → String
  upper : String → String
  isAlnum : Char → Bool

/-- The interpreter on texts whose letters are ASCII. -/
def Runtime.ascii : Runtime where
  sha256 := Sha256.hexdigest
  sha256_hex := Sha256.hexdigest_hexRun
  lower s := String.ofList (s.toList.map Char.toLower)
  upper s := String.ofList (s.toList.map Char.toUpper)
  isAlnum := Char.isAlphanum

structure Worker where
  workerId : String
  host : String
  role : Role
  profile : Profile
  capacityScore : Int
  controllerVersion : Option String
  rulesSha : Option String
  gatewayOk : Bool
  stateValidated : Bool
  worktreeRoot : Option String
  registeredAt : String
  lastHeartbeatAt : String
  correlationId : String
  deriving DecidableEq

structure Lane where
  repository : String
  enabled : Bool
  maxInFlight : Nat
  positive : 1 ≤ maxInFlight
  builderClaimCount : Nat
  validatorClaimCount : Nat
  lastBuilderClaimedAt : Option String
  lastValidatorClaimedAt : Option String
  updatedAt : String
  deriving DecidableEq

structure Affinity where
  workerId : String
  repository : String
  deriving DecidableEq

structure Task where
  taskId : String
  repository : String
  issueNumber : Int
  requestId : String
  idempotencyKey : String
  state : TaskState
  priority : Int
  branch : String
  workspaceKey : String
  baseSha : Option String
  producedSha : Option String
  builderWorkerId : Option String
  validatorWorkerId : Option String
  leasedBy : Option String
  leaseToken : Option String
  leaseExpiresAt : Option String
  leaseGeneration : Nat
  attemptId : Option String
  fencingRequired : Bool
  attemptCount : Nat
  maxAttempts : Nat
  blockedReason : Option String
  lastError : Option String
  correlationId : String
  createdAt : String
  updatedAt : String
  lastMaterialProgressAt : String
  completedAt : Option String
  deriving DecidableEq

structure Quarantine where
  taskId : String
  idempotencyKey : String
  correlationId : String
  attemptCount : Nat
  reason : String
  quarantinedAt : String
  deriving DecidableEq

/-- The single row of `pool_control`. -/
structure Cutover where
  enabled : Bool
  enabledAt : Option String
  enabledByCorrelationId : Option String
  deriving DecidableEq

structure Attempt where
  attemptId : String
  taskId : String
  leaseGeneration : Nat
  workerId : String
  role : Role
  leaseStartedAt : String
  leaseExpiresAt : String
  endedAt : Option String
  endReason : Option String
  deriving DecidableEq

structure Checkpoint where
  taskId : String
  checkpointId : String
  leaseGeneration : Nat
  attemptId : String
  sequence : Nat
  stage : String
  artifactKind : Option String
  artifactRef : Option String
  artifactSha256 : Option String
  nextAction : String
  effectId : Option String
  effectState : EffectState
  effectResultRef : Option String
  contentDigest : String
  correlationId : String
  createdAt : String
  deriving DecidableEq

structure Reconciliation where
  taskId : String
  effectId : String
  leaseGeneration : Nat
  outcome : Outcome
  readbackRef : String
  contentDigest : String
  correlationId : String
  createdAt : String
  deriving DecidableEq

def Checkpoint.key (c : Checkpoint) : String × String := (c.taskId, c.checkpointId)

def Reconciliation.key (r : Reconciliation) : String × String × Nat :=
  (r.taskId, r.effectId, r.leaseGeneration)

structure Db where
  workers : Table String Worker Worker.workerId
  lanes : Table String Lane Lane.repository
  affinities : List Affinity
  tasks : Table String Task Task.taskId
  quarantine : List Quarantine
  cutover : Cutover
  attempts : Table String Attempt Attempt.attemptId
  checkpoints : Table (String × String) Checkpoint Checkpoint.key
  reconciliations : Table (String × String × Nat) Reconciliation Reconciliation.key

/-- A database that `_init` has just created. -/
def Db.empty : Db where
  workers := .empty
  lanes := .empty
  affinities := []
  tasks := .empty
  quarantine := []
  cutover := ⟨false, none, none⟩
  attempts := .empty
  checkpoints := .empty
  reconciliations := .empty

/-- The configuration that `WorkerPoolStore.__init__` accepts. -/
structure Store where
  heartbeatTtlSeconds : Nat
  defaultLeaseSeconds : Nat
  defaultMaxAttempts : Nat
  progressStallSeconds : Nat
  positive : 1 ≤ min (min heartbeatTtlSeconds defaultLeaseSeconds)
    (min defaultMaxAttempts progressStallSeconds)
  expectedRulesSha : Option String
  rulesShaValid : ∀ sha ∈ expectedRulesSha, hexRun 40 sha = true

/-- `WorkerPoolStore(db_path)`. -/
def Store.default : Store where
  heartbeatTtlSeconds := 90
  defaultLeaseSeconds := 120
  defaultMaxAttempts := 3
  progressStallSeconds := 300
  positive := by decide
  expectedRulesSha := none
  rulesShaValid := by simp

/-- The places where a call reads the clock. Each reading is independent of the
others; `lane` is read for each repository ensured, `alternative` for each stalled
task and worker compared. -/
inductive ClockSite where
  | now | stamp | recover | stalled | ready | lease | renewed
  | lane (repository : String)
  | alternative (taskId workerId : String)
  deriving DecidableEq

/-- The order in which a `SELECT` without `ORDER BY` hands out its rows. -/
structure RowOrder where
  arrange : List Task → List Task
  perm : ∀ rows, (arrange rows).Perm rows

def RowOrder.stored : RowOrder := ⟨id, fun _ => .refl _⟩

/-- The circumstances of one call. -/
structure Call where
  store : Store
  clock : ClockSite → Instant
  rowOrder : RowOrder

def Call.iso (c : Call) (site : ClockSite) : String := Calendar.iso (c.clock site)

/-- A call of the default store at one instant. -/
def Call.at (t : Instant) : Call := ⟨.default, fun _ => t, .stored⟩

abbrev Body (α : Type) := Tx Db PoolError α

end WorkerPool
