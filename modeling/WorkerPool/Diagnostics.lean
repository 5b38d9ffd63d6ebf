import Mathlib
import WorkerPool.Claimable

/-!
# The diagnostics of a task

`read_task_diagnostics` tests for every registered worker, in Python and on its own queries,
what `claim_task` tests in SQL.
-/

namespace WorkerPool

open Calendar PyText Transaction Transaction.Tx
open Transition.System (Reachable)

/-! ### The report -/

inductive DiagnosticsError where
  | value (message : String)
  | notFound (message : String)
  deriving DecidableEq

/-- Why a worker is not eligible. -/
inductive IdleReason where
  | offlineOrStale | profileNotNormal | governanceNotReady | rulesShaMismatch | workerBusy
  | repositoryAffinityMismatch | laneDisabledOrMissing | laneCapacityReached
  | validatorSameAsBuilder | roleNotRequiredForTaskState
  deriving DecidableEq

def IdleReason.text : IdleReason → String
  | .offlineOrStale => "offline_or_stale"
  | .profileNotNormal => "profile_not_normal"
  | .governanceNotReady => "governance_not_ready"
  | .rulesShaMismatch => "rules_sha_mismatch"
  | .workerBusy => "worker_busy"
  | .repositoryAffinityMismatch => "repository_affinity_mismatch"
  | .laneDisabledOrMissing => "lane_disabled_or_missing"
  | .laneCapacityReached => "lane_capacity_reached"
  | .validatorSameAsBuilder => "validator_same_as_builder"
  | .roleNotRequiredForTaskState => "role_not_required_for_task_state"

/-- An age is counted in the smallest binary64 number of seconds. -/
structure WorkerView where
  workerId : String
  role : Role
  profile : Profile
  heartbeatAgeSeconds : Option Nat
  gatewayOk : Bool
  stateValidated : Bool
  rulesShaMatches : Bool
  eligibilityPrecheck : Bool
  whyIdle : String
  reasons : List String

structure TaskView where
  taskId : String
  repository : String
  issueNumber : Int
  state : TaskState
  baseSha : Option String
  producedSha : Option String
  leasedBy : Option String
  leaseExpiresAt : Option String
  leaseExpiredObserved : Bool
  attemptCount : Nat
  maxAttempts : Nat
  blockedReason : Option String
  updatedAt : String
  lastMaterialProgressAt : String
  progressAgeSeconds : Option Nat
  progressStalledObserved : Bool

structure LaneView where
  configured : Bool
  enabled : Bool
  maxInFlight : Option Nat
  activeCount : Nat

structure TaskDiagnostics where
  schemaVersion : String
  readMode : String
  observedAt : String
  task : TaskView
  requiredRole : Option Role
  lane : LaneView
  workers : List WorkerView
  precheckEligibleWorkers : Nat
  claimPerformed : Bool
  reconciliationRequested : Bool

/-- `_age_seconds`. -/
def ageSeconds (value : Option String) (now : Instant) : Option Nat :=
  match value with
  | none => none
  | some text =>
    if text = "" then none
    else (parseIso text).map fun timestamp => Float64.roundTo 3 (totalSeconds timestamp now)

def requiredRole (task : Task) : Option Role :=
  if task.state = .queued ∧ task.leasedBy = none then some .builder
  else if task.state = .validating ∧ task.leasedBy = none then some .validator
  else none

/-- `busy_ids`. -/
def Db.busyIds (db : Db) : List String :=
  (db.tasks.rows.filter fun t => t.leasedBy.isSome && t.state.active).filterMap Task.leasedBy

/-- `affinity_map.get(worker_id, set())`. -/
def Db.allowedRepos (db : Db) (workerId : String) : List String :=
  (db.affinities.filter fun a => a.workerId = workerId).map Affinity.repository

def rulesShaMatches (expectedRulesSha : Option String) (worker : Worker) : Bool :=
  !truthy expectedRulesSha || worker.rulesSha == expectedRulesSha

section Views

variable (db : Db) (expectedRulesSha : Option String) (heartbeatTtlSeconds : Int) (task : Task)
  (lane : Option Lane) (now : Instant) (worker : Worker)

/-- The tests on one worker, in their order. -/
def idleTests : List (Bool × IdleReason) :=
  let age := ageSeconds (some worker.lastHeartbeatAt) now
  let allowedRepos := db.allowedRepos worker.workerId
  [(age.all fun n : Nat => heartbeatTtlSeconds * Float64.unit < (n : Int), .offlineOrStale),
    (worker.profile ≠ .normal, .profileNotNormal),
    (!worker.gatewayOk || !worker.stateValidated, .governanceNotReady),
    (!rulesShaMatches expectedRulesSha worker, .rulesShaMismatch),
    (worker.workerId ∈ db.busyIds, .workerBusy),
    (allowedRepos ≠ [] ∧ task.repository ∉ allowedRepos, .repositoryAffinityMismatch),
    (lane.all fun l => !l.enabled, .laneDisabledOrMissing),
    (worker.role == .builder && lane.any fun l => l.maxInFlight ≤ db.inFlight task.repository,
      .laneCapacityReached),
    (worker.role == .validator && some worker.workerId == task.builderWorkerId,
      .validatorSameAsBuilder),
    (some worker.role ≠ requiredRole task, .roleNotRequiredForTaskState)]

def workerView : WorkerView :=
  let reasons := ((idleTests db expectedRulesSha heartbeatTtlSeconds task lane now worker).filter
    Prod.fst).map fun test => test.2.text
  { workerId := worker.workerId
    role := worker.role
    profile := worker.profile
    heartbeatAgeSeconds := ageSeconds (some worker.lastHeartbeatAt) now
    gatewayOk := worker.gatewayOk
    stateValidated := worker.stateValidated
    rulesShaMatches := rulesShaMatches expectedRulesSha worker
    eligibilityPrecheck := reasons.length == 0
    whyIdle := reasons.head?.getD "available_precheck_only"
    reasons := reasons }

end Views

/-- `re.fullmatch(r"[a-z][a-z0-9_:-]{0,127}", …)`. -/
def isReasonCode (text : String) : Bool :=
  headedRun (fun c => 'a' ≤ c && c ≤ 'z')
    (fun c => ('a' ≤ c && c ≤ 'z') || ('0' ≤ c && c ≤ '9') || c == '_' || c == ':' || c == '-')
    0 127 text

def shownReason (blockedReason : Option String) : Option String :=
  if truthy blockedReason then
    if isReasonCode (blockedReason.getD "") then blockedReason else some "redacted"
  else none

def taskView (task : Task) (progressStallSeconds : Int) (now : Instant) : TaskView :=
  let progressAge := ageSeconds (some task.lastMaterialProgressAt) now
  { taskId := task.taskId
    repository := task.repository
    issueNumber := task.issueNumber
    state := task.state
    baseSha := task.baseSha
    producedSha := task.producedSha
    leasedBy := task.leasedBy
    leaseExpiresAt := task.leaseExpiresAt
    leaseExpiredObserved := truthy task.leaseExpiresAt &&
      (parseIso (task.leaseExpiresAt.getD "")).any fun expires => expires ≤ now
    attemptCount := task.attemptCount
    maxAttempts := task.maxAttempts
    blockedReason := shownReason task.blockedReason
    updatedAt := task.updatedAt
    lastMaterialProgressAt := task.lastMaterialProgressAt
    progressAgeSeconds := progressAge
    progressStalledObserved := task.state.active &&
      progressAge.any fun n : Nat => progressStallSeconds * Float64.unit ≤ (n : Int) }

/-- `ORDER BY role,worker_id`. -/
def Worker.before (a b : Worker) : Prop :=
  a.role.text < b.role.text ∨ a.role.text = b.role.text ∧ a.workerId ≤ b.workerId

instance (a b : Worker) : Decidable (a.before b) := inferInstanceAs (Decidable (_ ∨ _))

def readTaskDiagnostics (db : Db) (taskId : String) (expectedRulesSha : Option String)
    (heartbeatTtlSeconds progressStallSeconds : Int) (now : Instant)
    (readMode : String) : Except DiagnosticsError TaskDiagnostics := do
  if ¬ isTaskId taskId then throw (.value "task_id inválido")
  if heartbeatTtlSeconds ≤ 0 ∨ progressStallSeconds ≤ 0 then throw (.value "timeouts inválidos")
  match db.tasks.find? taskId with
  | none => throw (.notFound "task_not_found")
  | some task =>
    let lane := db.lanes.find? task.repository
    let views := (db.workers.rows.insertionSort Worker.before).map
      (workerView db expectedRulesSha heartbeatTtlSeconds task lane now)
    return {
      schemaVersion := "1.0.0"
      readMode := readMode
      observedAt := Calendar.iso now
      task := taskView task progressStallSeconds now
      requiredRole := requiredRole task
      lane := {
        configured := lane.isSome
        enabled := lane.any Lane.enabled
        maxInFlight := lane.map Lane.maxInFlight
        activeCount := db.inFlight task.repository }
      workers := views
      precheckEligibleWorkers := views.countP WorkerView.eligibilityPrecheck
      claimPerformed := false
      reconciliationRequested := false }

/-! ### What makes a worker eligible -/

/-- The tests that the report and the claim both make. -/
structure Db.BothAsk (db : Db) (c : Call) (t : Task) (w : Worker) : Prop where
  governed : w.profile = .normal ∧ w.gatewayOk = true ∧ w.stateValidated = true
  rules : c.store.expectedRulesSha ≠ none → w.rulesSha = c.store.expectedRulesSha
  free : db.workerBusy w.workerId = false
  affine : db.affine w.workerId t.repository = true
  required : requiredRole t = some w.role
  lane : ∃ l, db.lanes.find? t.repository = some l ∧
    (w.role = .builder → db.inFlight t.repository < l.maxInFlight)
  other : w.role = .validator → t.builderWorkerId ≠ some w.workerId

/-- The lane of the repository takes new work. -/
def Db.laneEnabled (db : Db) (repository : String) : Bool :=
  (db.lanes.find? repository).any Lane.enabled

/-- The age of the heartbeat, rounded to milliseconds, is within its limit. -/
def Worker.freshRounded (w : Worker) (c : Call) (now : Instant) : Bool :=
  (ageSeconds (some w.lastHeartbeatAt) now).any fun age =>
    age ≤ c.store.heartbeatTtlSeconds * Float64.unit

/-- The age of the heartbeat is within its limit. -/
def Worker.freshExact (w : Worker) (c : Call) (now : Instant) : Bool :=
  (parseIso w.lastHeartbeatAt).any fun heartbeat => !heartbeatStale c now heartbeat

def TaskDiagnostics.eligible (report : TaskDiagnostics) (workerId : String) : Bool :=
  report.workers.any fun v => v.workerId == workerId && v.eligibilityPrecheck

section Eligible

variable {rt : Runtime} {c : Call} {a : ClaimTask} {t : Task} {w : Worker} {db : Db} {now : Instant}

theorem workerBusy_iff : db.workerBusy w.workerId = true ↔ w.workerId ∈ db.busyIds := by
  simp only [Db.workerBusy, Db.busyIds, List.any_eq_true, List.mem_filterMap, List.mem_filter,
    Bool.and_eq_true, beq_iff_eq]
  constructor
  · rintro ⟨u, hu, held, active⟩
    exact ⟨u, ⟨hu, by rw [held]; rfl, active⟩, held⟩
  · rintro ⟨u, ⟨hu, -, active⟩, held⟩
    exact ⟨u, hu, held, active⟩

theorem affine_iff (repository : String) : db.affine w.workerId repository = true ↔
    ¬ (db.allowedRepos w.workerId ≠ [] ∧ repository ∉ db.allowedRepos w.workerId) := by
  have named : repository ∈ db.allowedRepos w.workerId ↔
      (db.affinities.any fun e => e.workerId == w.workerId && e.repository == repository) = true := by
    simp [Db.allowedRepos, and_assoc]
  have none_ : db.allowedRepos w.workerId = [] ↔
      (db.affinities.all fun e => e.workerId != w.workerId) = true := by
    simp [Db.allowedRepos, List.filter_eq_nil_iff]
  rw [Db.affine, Bool.or_eq_true, ← named, ← none_]
  tauto

theorem rulesShaMatches_iff : rulesShaMatches c.store.expectedRulesSha w = true ↔
    (c.store.expectedRulesSha ≠ none → w.rulesSha = c.store.expectedRulesSha) := by
  have valid := c.store.rulesShaValid
  cases expected : c.store.expectedRulesSha with
  | none => simp [rulesShaMatches]
  | some sha =>
    have nonempty : sha ≠ "" := LifeCycle.sha_ne_empty (valid sha expected)
    simp [rulesShaMatches, truthy, nonempty]

/-- An age that is there and not above a limit. -/
theorem not_stale_iff (limit unit : Nat) (age : Option Nat) :
    (age.all fun n : Nat => decide ((limit : Int) * (unit : Int) < (n : Int))) = false ↔
      (age.any fun n => n ≤ limit * unit) = true := by
  cases age with
  | none => simp
  | some n =>
    simp only [Option.all_some, Option.any_some, decide_eq_false_iff_not, decide_eq_true_eq, not_lt]
    rw [← Int.natCast_mul, Int.ofNat_le]

/-- The view of a worker is eligible where every test passes. -/
theorem workerView_eligible_iff :
    (workerView db c.store.expectedRulesSha c.store.heartbeatTtlSeconds t
      (db.lanes.find? t.repository) now w).eligibilityPrecheck = true ↔
      db.BothAsk c t w ∧ w.freshRounded c now = true ∧ db.laneEnabled t.repository = true := by
  have passed : (workerView db c.store.expectedRulesSha c.store.heartbeatTtlSeconds t
      (db.lanes.find? t.repository) now w).eligibilityPrecheck = true ↔
      ∀ test ∈ idleTests db c.store.expectedRulesSha c.store.heartbeatTtlSeconds t
        (db.lanes.find? t.repository) now w, test.1 = false := by
    simp only [workerView, beq_iff_eq, List.length_map, List.length_eq_zero_iff,
      List.filter_eq_nil_iff, Bool.not_eq_true]
  have stale := not_stale_iff c.store.heartbeatTtlSeconds Float64.unit
    (ageSeconds (some w.lastHeartbeatAt) now)
  have rules := rulesShaMatches_iff (c := c) (w := w)
  have busy : db.workerBusy w.workerId = true ↔ _ := workerBusy_iff
  have affine : db.affine w.workerId t.repository = true ↔ _ := affine_iff t.repository
  rw [passed]
  simp only [idleTests, List.forall_mem_cons, stale]
  simp only [decide_eq_false_iff_not, Bool.not_eq_false', Bool.or_eq_false_iff, ne_eq,
    Decidable.not_not, Bool.and_eq_false_iff, beq_eq_false_iff_ne, List.not_mem_nil,
    IsEmpty.forall_iff, implies_true, and_true, rules, ← busy]
  rw [← affine, Bool.not_eq_true, ← Worker.freshRounded]
  cases found : db.lanes.find? t.repository with
  | none =>
    constructor
    · rintro ⟨-, -, -, -, -, -, absurd_, -⟩
      cases absurd_
    · rintro ⟨-, -, isOpen⟩
      simp [Db.laneEnabled, found] at isOpen
  | some l =>
    simp only [Option.all_some, Option.any_some, Bool.not_eq_false', decide_eq_false_iff_not,
      not_le, Db.laneEnabled, found]
    constructor
    · rintro ⟨fresh, profile, governed, rules, free, affine, enabled, room, other, required⟩
      refine ⟨⟨⟨profile, governed⟩, rules, free, affine, required.symm, ⟨l, found, fun builder => ?_⟩,
        fun validator => ?_⟩, fresh, enabled⟩
      · exact room.resolve_left fun no => no builder
      · exact fun same => other.elim (fun no => no validator) fun differs => differs same.symm
    · rintro ⟨asked, fresh, enabled⟩
      obtain ⟨l', found', room⟩ := asked.lane
      obtain rfl := Option.some.inj (found.symm.trans found')
      refine ⟨fresh, asked.governed.1, asked.governed.2, asked.rules, asked.free, asked.affine,
        enabled, ?_, ?_, asked.required.symm⟩
      · by_cases builder : w.role = .builder
        · exact .inr (room builder)
        · exact .inl builder
      · by_cases validator : w.role = .validator
        · exact .inr fun same => asked.other validator same.symm
        · exact .inl validator

/-- The report on a stored task, as the service asks for it. -/
def Call.diagnose (c : Call) (db : Db) (taskId : String) (now : Instant) :
    Except DiagnosticsError TaskDiagnostics :=
  readTaskDiagnostics db taskId c.store.expectedRulesSha c.store.heartbeatTtlSeconds
    c.store.progressStallSeconds now "sqlite_mode_ro"

theorem diagnose_eligible_iff (ht : t ∈ db.tasks.rows) (hw : w ∈ db.workers.rows)
    (shaped : isTaskId t.taskId = true) :
    (∃ report, c.diagnose db t.taskId now = .ok report ∧ report.eligible w.workerId = true) ↔
      db.BothAsk c t w ∧ w.freshRounded c now = true ∧ db.laneEnabled t.repository = true := by
  have positive := c.store.positive
  have ttls : ¬ ((c.store.heartbeatTtlSeconds : Int) ≤ 0 ∨ (c.store.progressStallSeconds : Int) ≤ 0) := by
    omega
  have found : db.tasks.find? t.taskId = some t := Table.find?_of_mem ht
  have mine : ∀ u ∈ db.workers.rows, u.workerId = w.workerId → u = w := fun u hu same =>
    List.inj_on_of_nodup_map db.workers.unique hu hw same
  rw [← workerView_eligible_iff]
  simp only [Call.diagnose, readTaskDiagnostics, shaped, not_true_eq_false, if_false, ttls, found]
  constructor
  · rintro ⟨_, ⟨⟩, eligible⟩
    obtain ⟨v, hv, both⟩ := List.any_eq_true.mp eligible
    obtain ⟨u, hu, rfl⟩ := List.mem_map.mp hv
    obtain ⟨same, passed⟩ := Bool.and_eq_true_iff.mp both
    rw [List.mem_insertionSort] at hu
    obtain rfl := mine u hu (eq_of_beq same)
    exact passed
  · intro passed
    refine ⟨_, rfl, List.any_eq_true.mpr ⟨_, List.mem_map.mpr ⟨w, ?_, rfl⟩, ?_⟩⟩
    · rwa [List.mem_insertionSort]
    · exact Bool.and_eq_true_iff.mpr ⟨beq_iff_eq.mpr rfl, passed⟩

theorem freshExact_iff (still : ∀ site, c.clock site = now) : w.freshExact c now = true ↔
    ∃ heartbeat, parseIso w.lastHeartbeatAt = some heartbeat ∧
      heartbeatStale c (c.clock .ready) heartbeat = false := by
  simp only [Worker.freshExact, still, Option.any_eq_true, Bool.not_eq_true']

theorem requiredRole_iff {role : Role} : requiredRole t = some role ↔
    t.state = role.wanted ∧ t.leasedBy = none := by
  cases free : t.leasedBy with
  | some holder => simp [requiredRole, free]
  | none => cases state : t.state <;> cases role <;> simp [requiredRole, free, state, Role.wanted]

/-- The selection of a builder for a stored task. -/
theorem builder_eligible_iff {records : Nat} (cycle : LifeCycle t records) (asks : a.Asks rt c t w)
    {l : Lane} : db.eligible a .builder (t, l) = true ↔ requiredRole t = some .builder ∧
      db.affine w.workerId t.repository = true ∧ db.inFlight t.repository < l.maxInFlight ∧
      l.enabled = true := by
  simp only [requiredRole_iff, Db.eligible, Db.builderEligible, Bool.and_eq_true, beq_iff_eq,
    asks.worker, asks.only, asks.fencing, Bool.or_eq_true, decide_eq_true_eq, Role.wanted]
  constructor
  · rintro ⟨⟨⟨⟨⟨queued, -⟩, enabled⟩, affine⟩, room⟩, -⟩
    exact ⟨⟨queued, cycle.idle (by rw [queued]; rfl)⟩, affine, room, enabled⟩
  · rintro ⟨⟨queued, -⟩, affine, room, enabled⟩
    exact ⟨⟨⟨⟨⟨queued, trivial⟩, enabled⟩, affine⟩, room⟩, .inr trivial⟩

/-- The selection of a validator for a stored task. -/
theorem validator_eligible_iff {records : Nat} (cycle : LifeCycle t records)
    (asks : a.Asks rt c t w) {l : Lane} : db.eligible a .validator (t, l) = true ↔
      requiredRole t = some .validator ∧ db.affine w.workerId t.repository = true ∧
      t.builderWorkerId ≠ some w.workerId := by
  have other : (t.builderWorkerId = none ∨ t.builderWorkerId ≠ some w.workerId) ↔
      t.builderWorkerId ≠ some w.workerId := by
    constructor
    · rintro (absent | differs)
      · rw [absent]
        nofun
      · exact differs
    · exact .inr
  simp only [requiredRole_iff, Db.eligible, Db.validatorEligible, Bool.and_eq_true, beq_iff_eq,
    bne_iff_ne, asks.worker, asks.only, asks.fencing, Bool.or_eq_true, Role.wanted,
    Option.isNone_iff_eq_none, Option.isSome_iff_ne_none, other]
  constructor
  · rintro ⟨⟨⟨⟨⟨⟨validating, -⟩, free⟩, -⟩, other⟩, affine⟩, -⟩
    exact ⟨⟨validating, free⟩, affine, other⟩
  · rintro ⟨⟨validating, free⟩, affine, other⟩
    exact ⟨⟨⟨⟨⟨⟨validating, trivial⟩, free⟩, cycle.produced (.inl validating)⟩, other⟩, affine⟩,
      .inr trivial⟩

/-- The claim asks what the report asks, and that the lane is enabled of a builder only. -/
theorem claimable_iff {records : Nat} (still : ∀ site, c.clock site = now)
    (cycle : LifeCycle t records) (asks : a.Asks rt c t w) : db.Claimable c a t w ↔
      db.BothAsk c t w ∧ w.freshExact c now = true ∧
        db.Grants c w.role (orDefault a.leaseSeconds c.store.defaultLeaseSeconds) t ∧
        (w.role = .builder → db.laneEnabled t.repository = true) := by
  rw [freshExact_iff still]
  constructor
  · rintro ⟨⟨governed, rules, fresh, free⟩, ⟨l, found, eligible⟩, grants⟩
    have enabled : ∀ e, l.enabled = e → db.laneEnabled t.repository = e := by
      rintro _ rfl
      simp [Db.laneEnabled, found]
    cases role : w.role with
    | builder =>
      rw [role] at eligible
      obtain ⟨required, affine, room, isOpen⟩ := (builder_eligible_iff cycle asks).mp eligible
      exact ⟨⟨governed, rules, free, affine, role ▸ required, ⟨l, found, fun _ => room⟩,
        fun no => absurd (role.symm.trans no) (by decide)⟩, fresh, role ▸ grants, fun _ => enabled _ isOpen⟩
    | validator =>
      rw [role] at eligible
      obtain ⟨required, affine, other⟩ := (validator_eligible_iff cycle asks).mp eligible
      exact ⟨⟨governed, rules, free, affine, role ▸ required, ⟨l, found,
        fun no => absurd (role.symm.trans no) (by decide)⟩, fun _ => other⟩, fresh, role ▸ grants,
        fun no => absurd no (by decide)⟩
  · rintro ⟨asked, fresh, grants, isOpen⟩
    obtain ⟨l, found, room⟩ := asked.lane
    refine ⟨⟨asked.governed, asked.rules, fresh, asked.free⟩, ⟨l, found, ?_⟩, grants⟩
    have required := asked.required
    cases role : w.role with
    | builder =>
      have enabled : l.enabled = true := by simpa [Db.laneEnabled, found] using isOpen role
      exact (builder_eligible_iff cycle asks).mpr
        ⟨role ▸ required, asked.affine, room role, enabled⟩
    | validator =>
      exact (validator_eligible_iff cycle asks).mpr
        ⟨role ▸ required, asked.affine, asked.other role⟩

end Eligible

/-! ### The report and the claim -/

/-- Where all tests that both make pass, the two differ in what they ask beside them: the
report a rounded age and an enabled lane, the claim the age itself, of a builder only an
enabled lane, and an end of the lease and a workspace that it can have. -/
def Db.Mirrors (db : Db) (c : Call) (a : ClaimTask) (t : Task) (w : Worker) (now : Instant) : Prop :=
  db.BothAsk c t w →
    let granted := w.freshExact c now = true ∧
      db.Grants c w.role (orDefault a.leaseSeconds c.store.defaultLeaseSeconds) t
    (db.laneEnabled t.repository = true → (w.freshRounded c now = true ↔ granted)) ∧
      (db.laneEnabled t.repository = false → w.role = .validator → ¬ granted)

/-- The report on a task calls a worker eligible exactly when a claim of the task by this
worker would be granted, if and only if the tests that only one of them makes agree. -/
theorem diagnostics_mirror_iff {rt : Runtime} {s : Pool} {c : Call} {now : Instant}
    {a : ClaimTask} {t : Task} {w : Worker} {token attemptId : Uuid} (h : (pool rt).Reachable s)
    (still : ∀ site, c.clock site = now) (ht : t ∈ s.db.tasks.rows) (hw : w ∈ s.db.workers.rows)
    (asks : a.Asks rt c t w) (fresh : attemptId ∉ s.drawn) :
    ((∃ report, c.diagnose s.db t.taskId now = .ok report ∧ report.eligible w.workerId = true) ↔
      ∃ r db', (claimTask rt c a token attemptId).Yields s.db (some r) db') ↔
      s.db.Mirrors c a t w now := by
  have sound := reachable_claimSound h
  have current : s.db.Current t := Db.current_of_mem ht
  have new : ¬ s.Drawn attemptId.hex := by
    rintro ⟨u, hu, same⟩
    have one : u = attemptId := by
      cases u
      cases attemptId
      cases same
      rfl
    exact fresh (one ▸ hu)
  rw [diagnose_eligible_iff ht hw ((sound t.taskId).shaped t current),
    claimTask_exact_iff sound ht hw asks new,
    claimable_iff still ((sound t.taskId).cycle.2 t current) asks, Db.Mirrors]
  by_cases asked : s.db.BothAsk c t w
  · cases isOpen : s.db.laneEnabled t.repository with
    | true => simp [asked]
    | false =>
      cases role : w.role with
      | builder => simp
      | validator => simp [asked]
  · simp [asked]

namespace Sample

/-- An exact claim for validation. -/
def exactValidation (workerId : String) : ClaimTask :=
  ⟨workerId, "validator", "corr", none, some taskId, true⟩

/-- A task that waits for a validator in a lane that takes no new work. -/
def closedLane : List (Call × Op) :=
  produced ++ [(.at start, .configureRepository "o/r" false 1)]

/-- Its rows. -/
theorem closedLane_rows : (∃ t ∈ (Pool.empty.run .ascii closedLane).db.tasks.rows,
      t.taskId = taskId ∧ t.fencingRequired = true) ∧
    ∃ w ∈ (Pool.empty.run .ascii closedLane).db.workers.rows,
      w.workerId = "v1" ∧ w.role = .validator := by
  decide +kernel

theorem exactValidation_asks {t : Task} {w : Worker}
    (task : t.taskId = taskId ∧ t.fencingRequired = true)
    (worker : w.workerId = "v1" ∧ w.role = .validator) :
    (exactValidation "v1").Asks .ascii (.at start) t w where
  worker := worker.1.symm
  role := by rw [worker.2]; decide
  only := congrArg some task.1.symm
  fencing := task.2.symm
  lease := by decide

end Sample

theorem diagnostics_mirror_sample :
    let s := Pool.empty.run .ascii Sample.closedLane
    ∃ t ∈ s.db.tasks.rows, ∃ w ∈ s.db.workers.rows,
      (((∃ report, (Call.at Sample.start).diagnose s.db t.taskId Sample.start = .ok report ∧
          report.eligible w.workerId = true) ↔
        ∃ r db', (claimTask .ascii (.at Sample.start) (Sample.exactValidation "v1")
          (Sample.uuid 'e') (Sample.uuid 'f')).Yields s.db (some r) db') ↔
        s.db.Mirrors (.at Sample.start) (Sample.exactValidation "v1") t w Sample.start) := by
  intro s
  obtain ⟨⟨t, ht, task⟩, w, hw, worker⟩ := Sample.closedLane_rows
  exact ⟨t, ht, w, hw, diagnostics_mirror_iff (Pool.reachable_run (by decide)) (fun _ => rfl) ht hw
    (Sample.exactValidation_asks task worker) (by decide +kernel)⟩

/-- In a closed lane the report calls no validator eligible, and the claim of one is granted. -/
theorem closed_lane_granted :
    let s := Pool.empty.run .ascii Sample.closedLane
    ∃ t ∈ s.db.tasks.rows, ∃ w ∈ s.db.workers.rows,
      (Sample.exactValidation "v1").Asks .ascii (.at Sample.start) t w ∧
      ¬ ((∃ report, (Call.at Sample.start).diagnose s.db t.taskId Sample.start = .ok report ∧
          report.eligible w.workerId = true) ↔
        ∃ r db', (claimTask .ascii (.at Sample.start) (Sample.exactValidation "v1")
          (Sample.uuid 'e') (Sample.uuid 'f')).Yields s.db (some r) db') := by
  intro s
  obtain ⟨⟨t, ht, task⟩, w, hw, worker⟩ := Sample.closedLane_rows
  refine ⟨t, ht, w, hw, Sample.exactValidation_asks task worker, fun agree => ?_⟩
  have granted : (claimTask .ascii (.at Sample.start) (Sample.exactValidation "v1")
      (Sample.uuid 'e') (Sample.uuid 'f')).test s.db (fun r _ => r.isSome) = true := by
    decide +kernel
  obtain ⟨r, db', returned, some_⟩ := test_iff.mp granted
  obtain ⟨r, rfl⟩ := Option.isSome_iff_exists.mp some_
  obtain ⟨report, read, eligible⟩ := agree.mpr ⟨r, db', returned⟩
  have refused : ((Call.at Sample.start).diagnose s.db Sample.taskId Sample.start).toOption.any
      (fun report => report.eligible "v1") = false := by decide +kernel
  rw [task.1] at read
  rw [worker.1] at eligible
  rw [read] at refused
  exact Bool.false_ne_true (refused.symm.trans eligible)

end WorkerPool
