import WorkerPool.Lib.Threads
import WorkerPool.Sweeps

/-!
# Worker governance

`heartbeat_worker` reads the row of its worker, and writes every governance column back in a
later transaction. A column that the call was not given keeps its value as long as the row
still has, in that column, what the call has read.
-/

namespace WorkerPool

open PyText Transaction Transaction.Tx Transition

/-- The columns that decide whether a worker is governed. -/
inductive Governance where
  | profile | gatewayOk | stateValidated
  deriving DecidableEq

abbrev Governance.Value : Governance → Type
  | .profile => Profile
  | .gatewayOk => Bool
  | .stateValidated => Bool

def Worker.governance (w : Worker) : (f : Governance) → f.Value
  | .profile => w.profile
  | .gatewayOk => w.gatewayOk
  | .stateValidated => w.stateValidated

/-! ### Transactions -/

/-- One transaction, or one `SELECT`, of a call on a worker. -/
inductive WorkerRequest where
  | worker (workerId : String)
  | register (c : Call) (a : RegisterWorker) (role : Role) (profile : Profile)
      (rulesSha : Option String)
  | heartbeat (c : Call) (a : Heartbeat) (current : Worker) (profile : Profile)

def WorkerRequest.Reply : WorkerRequest → Type
  | .worker _ => Worker
  | .register .. => Unit
  | .heartbeat .. => Unit

/-- The transaction of `register_worker`. -/
def writeRegistration (c : Call) (a : RegisterWorker) (role : Role) (profile : Profile)
    (rulesSha : Option String) : Body Unit :=
  write fun db => { db with
    workers := db.workers.upsert {
        workerId := strip a.workerId, host := strip a.host, role := role, profile := profile
        capacityScore := a.capacityScore, controllerVersion := a.controllerVersion
        rulesSha := rulesSha, gatewayOk := a.gatewayOk, stateValidated := a.stateValidated
        worktreeRoot := a.worktreeRoot, registeredAt := c.iso .stamp
        lastHeartbeatAt := c.iso .stamp, correlationId := strip a.correlationId }
      fun w => { w with
        host := strip a.host, role := role, profile := profile
        capacityScore := a.capacityScore, controllerVersion := a.controllerVersion
        rulesSha := rulesSha, gatewayOk := a.gatewayOk, stateValidated := a.stateValidated
        worktreeRoot := a.worktreeRoot, lastHeartbeatAt := c.iso .stamp
        correlationId := strip a.correlationId } }

def inPool {α : Type} (m : Body α) : Tx Pool PoolError α := fun s =>
  ((m s.db).1, { s with db := (m s.db).2 })

def WorkerRequest.run : (q : WorkerRequest) → Tx Pool PoolError q.Reply
  | .worker workerId => inPool (getWorker workerId)
  | .register c a role profile rulesSha =>
    inPool (atomically (writeRegistration c a role profile rulesSha))
  | .heartbeat c a current profile => inPool (atomically (writeHeartbeat c a current profile))

/-! ### Calls in flight -/

abbrev WorkerProgram (α : Type) := Program PoolError WorkerRequest WorkerRequest.Reply α

namespace WorkerProgram

open Program

def getWorker (workerId : String) : WorkerProgram Worker := request (WorkerRequest.worker workerId)

def writeRegistration (c : Call) (a : RegisterWorker) (role : Role) (profile : Profile)
    (rulesSha : Option String) : WorkerProgram Unit :=
  request (WorkerRequest.register c a role profile rulesSha)

def writeHeartbeat (c : Call) (a : Heartbeat) (current : Worker) (profile : Profile) :
    WorkerProgram Unit :=
  request (WorkerRequest.heartbeat c a current profile)

def registerWorker (rt : Runtime) (c : Call) (a : RegisterWorker) : WorkerProgram Worker := do
  Program.need (strip a.workerId ≠ "" ∧ strip a.host ≠ "" ∧ strip a.correlationId ≠ "")
    (.value "worker_id, host e correlation_id são obrigatórios")
  let role ← unwrap (Role.ofText (rt.lower a.role)) (.value "role/profile inválido")
  let profile ← unwrap (Profile.ofText (rt.upper a.profile)) (.value "role/profile inválido")
  let rulesSha := orNone (rt.lower (strip (a.rulesSha.getD "")))
  Program.need (∀ sha ∈ rulesSha, isSha40 sha = true) (.value "rules_sha inválido")
  WorkerProgram.writeRegistration c a role profile rulesSha
  WorkerProgram.getWorker a.workerId

def heartbeatWorker (rt : Runtime) (c : Call) (a : Heartbeat) : WorkerProgram Worker := do
  let current ← WorkerProgram.getWorker a.workerId
  let profile ← unwrap (heartbeatProfile rt a.profile current.profile) (.value "profile inválido")
  WorkerProgram.writeHeartbeat c a current profile
  WorkerProgram.getWorker a.workerId

end WorkerProgram

inductive WorkerOp where
  | registerWorker (c : Call) (a : RegisterWorker)
  | heartbeatWorker (c : Call) (a : Heartbeat)

def WorkerOp.body (rt : Runtime) : WorkerOp → WorkerProgram Worker
  | .registerWorker c a => WorkerProgram.registerWorker rt c a
  | .heartbeatWorker c a => WorkerProgram.heartbeatWorker rt c a

abbrev WorkerWorld := Threads.World Pool PoolError WorkerRequest WorkerRequest.Reply Worker WorkerOp

abbrev WorkerLabel := Threads.Label WorkerOp (Call × Op)

/-- Any calls on workers, interleaved between their transactions with each other and with
every other call of the pool. -/
def workerSystem (rt : Runtime) : System WorkerWorld WorkerLabel :=
  Threads.system (fun s => s = .empty) WorkerRequest.run (WorkerOp.body rt)
    fun s l t => l.2.governs = false ∧ (pool rt).step s l t

section Alone

variable {rt : Runtime} {c : Call} {α β : Type}

/-- A program that nobody interrupts does what the operation of the pool does. -/
def WorkerProgram.Computes (p : WorkerProgram α) (m : Body α) : Prop :=
  ∀ s, p.eval WorkerRequest.run s = inPool m s

theorem WorkerProgram.Computes.bind {p : WorkerProgram α} {m : Body α} {k : α → WorkerProgram β}
    {k' : α → Body β} (h : WorkerProgram.Computes p m)
    (rest : ∀ a, WorkerProgram.Computes (k a) (k' a)) :
    WorkerProgram.Computes (p >>= k) (m >>= k') := by
  intro s
  have first := h s
  refine Program.eval_bind.trans ?_
  change _ = ((Tx.bind m k' s.db).1, { s with db := (Tx.bind m k' s.db).2 })
  unfold inPool at first
  unfold Tx.bind
  rw [first]
  cases m s.db with
  | mk result t =>
    cases result with
    | ok a => exact rest a _
    | error e => rfl

theorem WorkerProgram.computes_need (c : Prop) [Decidable c] (e : PoolError) :
    WorkerProgram.Computes (Program.need c e) (require c e) := by
  intro s
  unfold Program.need require
  split <;> rfl

theorem WorkerProgram.computes_unwrap (o : Option α) (e : PoolError) :
    WorkerProgram.Computes (Program.unwrap o e) (unwrap o e) := by
  intro s
  cases o <;> rfl

theorem WorkerProgram.computes_getWorker (workerId : String) :
    (WorkerProgram.getWorker workerId).Computes (WorkerPool.getWorker workerId) :=
  fun _ => Program.eval_request

theorem registerWorker_computes (a : RegisterWorker) :
    (WorkerProgram.registerWorker rt c a).Computes (registerWorker rt c a) := by
  refine (WorkerProgram.computes_need _ _).bind fun _ => ?_
  refine (WorkerProgram.computes_unwrap _ _).bind fun role => ?_
  refine (WorkerProgram.computes_unwrap _ _).bind fun profile => ?_
  refine (WorkerProgram.computes_need _ _).bind fun _ => ?_
  refine WorkerProgram.Computes.bind (fun _ => Program.eval_request) fun _ => ?_
  exact WorkerProgram.computes_getWorker _

theorem heartbeatWorker_computes (a : Heartbeat) :
    (WorkerProgram.heartbeatWorker rt c a).Computes (heartbeatWorker rt c a) := by
  refine (WorkerProgram.computes_getWorker _).bind fun current => ?_
  refine (WorkerProgram.computes_unwrap _ _).bind fun profile => ?_
  refine WorkerProgram.Computes.bind (fun _ => Program.eval_request) fun _ => ?_
  exact WorkerProgram.computes_getWorker _

end Alone

/-! ### The other calls of the pool -/

/-- The table of workers is as it was. -/
def Db.SameWorkers (db db' : Db) : Prop := db'.workers = db.workers

instance : Std.Refl Db.SameWorkers := ⟨fun _ => rfl⟩

instance : IsTrans Db Db.SameWorkers where
  trans _ _ _ h h' := Eq.trans h' h

theorem AllStatements.sameWorkers : AllStatements Db.SameWorkers where
  recorded h := h.workers
  updateTask taskId f keeps _ := (updateTask_aside taskId f keeps).mono fun _ _ h => h.workers
  insertTask t _ := (insertTask_aside t).mono fun _ _ h => h.workers
  reconfigured h := h.workers

/-- Only the calls on workers write the table of workers. -/
theorem Op.run_sameWorkers {rt : Runtime} {c : Call} {op : Op} (h : op.governs = false) :
    (op.run rt c).Within Db.SameWorkers := Op.run_within_all .sameWorkers h

/-! ### What a request commits -/

def RegisterWorker.governance (a : RegisterWorker) (profile : Profile) : (f : Governance) → f.Value
  | .profile => profile
  | .gatewayOk => a.gatewayOk
  | .stateValidated => a.stateValidated

/-- The columns that the call was given. -/
def Heartbeat.governance (a : Heartbeat) (profile : Profile) : (f : Governance) → Option f.Value
  | .profile => (a.profile.bind orNone).map fun _ => profile
  | .gatewayOk => a.gatewayOk
  | .stateValidated => a.stateValidated

namespace WorkerRequest

/-- The value that the request commits to a column of a worker, where its call was given one. -/
def supplies (q : WorkerRequest) (workerId : String) (f : Governance) : Option f.Value :=
  match q with
  | .worker _ => none
  | .register _ a _ profile _ =>
    if strip a.workerId = workerId then some (a.governance profile f) else none
  | .heartbeat _ a _ profile => if a.workerId = workerId then a.governance profile f else none

/-- The profile of a heartbeat is the one that `heartbeat_worker` computes. -/
def Computed (rt : Runtime) : WorkerRequest → Prop
  | .heartbeat _ a current profile => heartbeatProfile rt a.profile current.profile = some profile
  | _ => True

/-- A row that a heartbeat writes is still, in the columns that the call was not given, what the
call has read. -/
def Current (s : Pool) : WorkerRequest → Prop
  | .heartbeat _ a current profile => ∀ row, s.db.workers.find? a.workerId = some row →
      ∀ f, a.governance profile f = none → row.governance f = current.governance f
  | _ => True

end WorkerRequest

section Requests

variable {rt : Runtime} {q : WorkerRequest} {s : Pool} {workerId : String} {row : Worker}
  {f : Governance}

theorem worker_reads (id : String) (s : Pool) : ((WorkerRequest.worker id).run s).2 = s := by
  have unchanged : (getWorker id).Within Eq := (Within.read _).bind fun _ => .unwrap _ _
  have same : (getWorker id s.db).2 = s.db := (unchanged s.db).symm
  exact congrArg (fun db => (⟨db, s.drawn⟩ : Pool)) same

theorem find?_heartbeat {c : Call} {a : Heartbeat} {current : Worker} {profile : Profile}
    (computed : heartbeatProfile rt a.profile current.profile = some profile)
    (found : s.db.workers.find? workerId = some row) :
    ∃ row', ((WorkerRequest.heartbeat c a current profile).run s).2.db.workers.find? workerId =
        some row' ∧ ∀ f, row'.governance f = if a.workerId = workerId then
          (a.governance profile f).getD (current.governance f) else row.governance f := by
  have after := Table.find?_modify s.db.workers a.workerId workerId (fun w => { w with
    profile := profile, lastHeartbeatAt := c.iso .stamp
    gatewayOk := a.gatewayOk.getD current.gatewayOk
    stateValidated := a.stateValidated.getD current.stateValidated
    correlationId := a.correlationId }) (fun _ => rfl)
  rw [found] at after
  by_cases same : workerId = a.workerId
  · rw [if_pos same] at after
    refine ⟨_, after, fun f => ?_⟩
    rw [if_pos same.symm]
    cases f with
    | gatewayOk | stateValidated => rfl
    | profile =>
      -- a profile that was not given is the one that was read
      unfold heartbeatProfile at computed
      unfold Heartbeat.governance Worker.governance
      cases given : a.profile.bind orNone with
      | none =>
        rw [given] at computed
        exact (Option.some.inj computed).symm
      | some text => rfl
  · rw [if_neg same] at after
    refine ⟨row, after, fun f => ?_⟩
    rw [if_neg fun eq => same eq.symm]

theorem find?_register (c : Call) (a : RegisterWorker) (role : Role) (profile : Profile)
    (rulesSha : Option String) (s : Pool) (workerId : String) :
    (strip a.workerId ≠ workerId →
      ((WorkerRequest.register c a role profile rulesSha).run s).2.db.workers.find? workerId =
        s.db.workers.find? workerId) ∧
    (strip a.workerId = workerId → ∃ row',
      ((WorkerRequest.register c a role profile rulesSha).run s).2.db.workers.find? workerId =
        some row' ∧ ∀ f, row'.governance f = a.governance profile f) := by
  have after := Table.find?_upsert s.db.workers {
      workerId := strip a.workerId, host := strip a.host, role := role, profile := profile
      capacityScore := a.capacityScore, controllerVersion := a.controllerVersion
      rulesSha := rulesSha, gatewayOk := a.gatewayOk, stateValidated := a.stateValidated
      worktreeRoot := a.worktreeRoot, registeredAt := c.iso .stamp
      lastHeartbeatAt := c.iso .stamp, correlationId := strip a.correlationId }
    (fun w => { w with
      host := strip a.host, role := role, profile := profile
      capacityScore := a.capacityScore, controllerVersion := a.controllerVersion
      rulesSha := rulesSha, gatewayOk := a.gatewayOk, stateValidated := a.stateValidated
      worktreeRoot := a.worktreeRoot, lastHeartbeatAt := c.iso .stamp
      correlationId := strip a.correlationId }) (fun _ => rfl) workerId
  constructor
  · intro other
    exact after.trans (if_neg fun same => other same.symm)
  · intro same
    refine ⟨_, after.trans (if_pos same.symm), fun f => ?_⟩
    cases s.db.workers.find? workerId with
    | none => cases f <;> rfl
    | some w => cases f <;> rfl

/-- A request commits the columns that its call was given, and keeps the others as long as what
the call has read is current. -/
theorem kept_iff_current (computed : q.Computed rt) : q.Current s ↔
    ∀ workerId row, s.db.workers.find? workerId = some row →
      ∃ row', (q.run s).2.db.workers.find? workerId = some row' ∧
        ∀ f, row'.governance f = (q.supplies workerId f).getD (row.governance f) := by
  cases q with
  | worker id =>
    refine ⟨fun _ workerId row found => ⟨row, ?_, fun _ => rfl⟩, fun _ => trivial⟩
    rw [worker_reads]
    exact found
  | register c a role profile rulesSha =>
    refine ⟨fun _ workerId row found => ?_, fun _ => trivial⟩
    obtain ⟨others, mine⟩ := find?_register c a role profile rulesSha s workerId
    by_cases same : strip a.workerId = workerId
    · obtain ⟨row', found', written⟩ := mine same
      exact ⟨row', found', fun f => by simp [WorkerRequest.supplies, same, written]⟩
    · exact ⟨row, (others same).trans found, fun f => by simp [WorkerRequest.supplies, same]⟩
  | heartbeat c a current profile =>
    constructor
    · intro holds workerId row found
      obtain ⟨row', found', written⟩ := find?_heartbeat (c := c) computed found
      refine ⟨row', found', fun f => (written f).trans ?_⟩
      by_cases same : a.workerId = workerId
      · subst same
        cases given : a.governance profile f with
        | none => simpa [WorkerRequest.supplies, given] using (holds row found f given).symm
        | some v => simp [WorkerRequest.supplies, given]
      · simp [WorkerRequest.supplies, same]
    · intro kept row found f omitted
      obtain ⟨row', found', same⟩ := kept a.workerId row found
      obtain ⟨row'', found'', written⟩ := find?_heartbeat (c := c) computed found
      cases found'.symm.trans found''
      have value := (written f).symm.trans (same f)
      simpa [WorkerRequest.supplies, omitted] using value.symm

/-- What a call was given is what it leaves in the row. -/
theorem supplied_stored {v : f.Value} (computed : q.Computed rt)
    (supplied : q.supplies workerId f = some v)
    (found : (q.run s).2.db.workers.find? workerId = some row) : row.governance f = v := by
  cases q with
  | worker id => cases supplied
  | register c a role profile rulesSha =>
    unfold WorkerRequest.supplies at supplied
    by_cases same : strip a.workerId = workerId
    · obtain ⟨row', found', written⟩ := (find?_register c a role profile rulesSha s workerId).2 same
      cases found.symm.trans found'
      rw [written]
      simpa [same] using supplied
    · simp [same] at supplied
  | heartbeat c a current profile =>
    unfold WorkerRequest.supplies at supplied
    by_cases same : a.workerId = workerId
    · subst same
      simp only [↓reduceIte] at supplied
      cases before : s.db.workers.find? a.workerId with
      | none =>
        have after := Table.find?_modify s.db.workers a.workerId a.workerId (fun w => { w with
          profile := profile, lastHeartbeatAt := c.iso .stamp
          gatewayOk := a.gatewayOk.getD current.gatewayOk
          stateValidated := a.stateValidated.getD current.stateValidated
          correlationId := a.correlationId }) (fun _ => rfl)
        rw [if_pos rfl, before] at after
        cases found.symm.trans after
      | some old =>
        obtain ⟨row', found', written⟩ := find?_heartbeat (c := c) computed before
        cases found.symm.trans found'
        rw [written, if_pos rfl, supplied]
        rfl
    · simp [same] at supplied

end Requests

/-! ### Runs -/

section Runs

variable {rt : Runtime} {w w₁ w₂ : WorkerWorld} {l : WorkerLabel} {q : WorkerRequest}
  {workerId : String} {f : Governance}

/-- A heartbeat writes only while what it has read is still current. -/
def Current (w : WorkerWorld) (l : WorkerLabel) (_ : WorkerWorld) : Prop :=
  ∀ q, w.Asks l q → q.Current w.shared

/-- No call commits the column. -/
def Silent (workerId : String) (f : Governance) (w : WorkerWorld) (l : WorkerLabel)
    (_ : WorkerWorld) : Prop :=
  ∀ q, w.Asks l q → q.supplies workerId f = none

theorem body_computed (rt : Runtime) (op : WorkerOp) :
    (op.body rt).Only (WorkerRequest.Computed rt) := by
  cases op with
  | registerWorker c a =>
    refine .bind (.need _ _) fun _ => .unwrap fun role _ => .unwrap fun profile _ => ?_
    exact .bind (.need _ _) fun _ => .bind (.request trivial) fun _ => .request trivial
  | heartbeatWorker c a =>
    refine .bind (.request trivial) fun current => .unwrap fun profile computed => ?_
    exact .bind (.request computed) fun _ => .request trivial

theorem asks_computed (h : (workerSystem rt).Reachable w) (asks : w.Asks l q) : q.Computed rt :=
  Threads.asks_permitted (body_computed rt) h asks

/-- One step in which nobody commits the column leaves it as it is. -/
theorem step_kept (h : ((workerSystem rt).restrict Current).Reachable w)
    (step : (((workerSystem rt).restrict Current).restrict (Silent workerId f)).step w l w₁)
    {row : Worker} (found : w.shared.db.workers.find? workerId = some row) :
    ∃ row', w₁.shared.db.workers.find? workerId = some row' ∧
      row'.governance f = row.governance f := by
  obtain ⟨⟨step, current⟩, silent⟩ := step
  rcases step.shared with same | ⟨q, asks, same⟩ | ⟨e, governs, -, same⟩
  · exact ⟨row, same ▸ found, rfl⟩
  · have computed := asks_computed h.of_restrict asks
    obtain ⟨row', found', kept⟩ := (kept_iff_current computed).mp (current q asks) workerId row found
    refine ⟨row', same ▸ found', (kept f).trans ?_⟩
    rw [silent q asks]
    rfl
  · have workers : (e.2.run rt e.1).Within Db.SameWorkers := Op.run_sameWorkers governs
    refine ⟨row, ?_, rfl⟩
    rw [same]
    exact (congrArg (Table.find? · workerId) (workers w.shared.db)).trans found

theorem steps_kept (h : ((workerSystem rt).restrict Current).Reachable w₁)
    (steps : (((workerSystem rt).restrict Current).restrict (Silent workerId f)).Steps w₁ w₂)
    {row : Worker} (found : w₁.shared.db.workers.find? workerId = some row) :
    ∃ row', w₂.shared.db.workers.find? workerId = some row' ∧
      row'.governance f = row.governance f := by
  have both : ((workerSystem rt).restrict Current).Reachable w₂ ∧
      ∃ row', w₂.shared.db.workers.find? workerId = some row' ∧
        row'.governance f = row.governance f := by
    refine steps.preserves (P := fun w => ((workerSystem rt).restrict Current).Reachable w ∧
      ∃ row', w.shared.db.workers.find? workerId = some row' ∧
        row'.governance f = row.governance f) ?_ ⟨h, row, found, rfl⟩
    rintro u l v ⟨reach, row', found', same⟩ step
    obtain ⟨row'', found'', same'⟩ := step_kept reach step found'
    exact ⟨reach.step step.1, row'', found'', same'.trans same⟩
  exact both.2

/-- `v` is the value of the column that was committed last by a call that was given one. -/
def LastCommitted (S : System WorkerWorld WorkerLabel) (workerId : String) (f : Governance)
    (v : f.Value) (w : WorkerWorld) : Prop :=
  ∃ before l after q, S.Reachable before ∧ S.step before l after ∧ before.Asks l q ∧
    q.supplies workerId f = some v ∧ after.shared.db.workers.find? workerId ≠ none ∧
    (S.restrict (Silent workerId f)).Steps after w

/-- In every run whose heartbeats write only what is current, a column has the value that was
committed last by a call that was given one. A write is current exactly when it keeps every
column that its call was not given. -/
theorem governance_kept :
    (∀ workerId f v w, LastCommitted ((workerSystem rt).restrict Current) workerId f v w →
      ∃ row, w.shared.db.workers.find? workerId = some row ∧ row.governance f = v) ∧
    ∀ (w : WorkerWorld) (l : WorkerLabel) q, (workerSystem rt).Reachable w → w.Asks l q →
      (q.Current w.shared ↔ ∀ workerId row, w.shared.db.workers.find? workerId = some row →
        ∃ row', (q.run w.shared).2.db.workers.find? workerId = some row' ∧
          ∀ f, row'.governance f = (q.supplies workerId f).getD (row.governance f)) := by
  constructor
  · rintro workerId f v w ⟨before, l, after, q, h, step, asks, supplied, stored, steps⟩
    obtain ⟨row, found⟩ := Option.ne_none_iff_exists'.mp stored
    obtain ⟨row', found', same⟩ := steps_kept (h.step step) steps found
    refine ⟨row', found', same.trans ?_⟩
    have computed := asks_computed h.of_restrict asks
    obtain ⟨place, th, k, rfl, at_, next⟩ := asks
    cases step.1 with
    | run here asked =>
      cases at_.symm.trans here
      cases next.symm.trans asked
      exact supplied_stored computed supplied found
  · exact fun w l q h asks => kept_iff_current (asks_computed h asks)

end Runs

/-! ### Two calls on one worker -/

namespace Sample

def registers : WorkerOp :=
  .registerWorker (.at start) ⟨"b1", "host", "builder", "corr", "NORMAL", 50, none, none, true, true,
    none⟩

/-- A heartbeat with nothing but its liveness. -/
def beats : WorkerOp := .heartbeatWorker (.at start) ⟨"b1", "corr", none, none, none⟩

/-- The gateway of the worker is down. -/
def withdraws : WorkerOp := .heartbeatWorker (.at start) ⟨"b1", "corr", none, some false, none⟩

/-- A heartbeat that was called with the registration, and waits for it. -/
def begun : WorkerWorld :=
  Threads.World.begin (WorkerOp.body .ascii) .empty [registers, beats]

def registered : WorkerWorld := begun.run WorkerRequest.run 0

/-- The registered worker after its heartbeat. -/
def alive : WorkerWorld := registered.runs WorkerRequest.run [1, 1, 1]

/-- The request changes no gateway, and what it writes back is what is stored. -/
def settled (q : WorkerRequest) (s : Pool) : Bool :=
  (q.supplies "b1" .gatewayOk).isNone && match q with
    | .heartbeat _ a current _ => decide (s.db.workers.find? a.workerId = some current)
    | _ => true

theorem settled_current {q : WorkerRequest} {s : Pool} (h : settled q s = true) :
    q.supplies "b1" .gatewayOk = none ∧ q.Current s := by
  obtain ⟨quiet, same⟩ := Bool.and_eq_true_iff.mp h
  refine ⟨Option.isNone_iff_eq_none.mp quiet, ?_⟩
  cases q with
  | heartbeat c a current profile =>
    intro row found f _
    cases found.symm.trans (of_decide_eq_true same)
    rfl
  | _ => trivial

/-- A registered worker with two heartbeats under way, both of which have read its row. -/
def bothRead : WorkerWorld :=
  (Threads.World.begin (WorkerOp.body .ascii) .empty [registers, beats, withdraws]).runs
    WorkerRequest.run [0, 1, 2]

def withdrawn : WorkerWorld := bothRead.run WorkerRequest.run 2

end Sample

/-- The heartbeat of the sample worker leaves the gateway of its registration. -/
theorem registration_kept : ∃ row, Sample.alive.shared.db.workers.find? "b1" = some row ∧
    row.governance .gatewayOk = true := by
  obtain ⟨written, stored, allowed⟩ : (Sample.begun.next 0).map (·.supplies "b1" .gatewayOk) =
        some (some true) ∧
      (Sample.registered.shared.db.workers.find? "b1").isSome = true ∧
      Sample.registered.allows WorkerRequest.run Sample.settled [1, 1, 1] = true := by
    decide +kernel
  obtain ⟨q, asks, supplied⟩ := Option.map_eq_some_iff.mp written
  have begun : ((workerSystem .ascii).restrict Current).Reachable Sample.begun := by
    have start : ((workerSystem .ascii).restrict Current).Reachable ⟨.empty, []⟩ :=
      .init ⟨rfl, rfl⟩
    refine start.steps (Threads.steps_begin _ _ _ _ _ [Sample.registers, Sample.beats] ?_ [])
    rintro u op u' q ⟨place, th, k, made, -⟩
    cases made
  have registers : ∀ q, Sample.begun.next 0 = some q → q.Current Sample.begun.shared := by
    rintro q ⟨⟩
    trivial
  have steps : (((workerSystem .ascii).restrict Current).restrict
      (Silent "b1" .gatewayOk)).Steps Sample.registered Sample.alive := by
    refine Transition.System.Steps.restrict_both (Threads.steps_allowed _ _ _ _ ?_ allowed)
    intro u place u' passed
    have each : ∀ q, u.Asks (.run place : WorkerLabel) q →
        q.supplies "b1" .gatewayOk = none ∧ q.Current u.shared := fun q asks =>
      Sample.settled_current (passed q (Threads.asks_run_iff.mp asks))
    exact ⟨fun q asks => (each q asks).2, fun q asks => (each q asks).1⟩
  exact governance_kept.1 _ _ _ _ ⟨Sample.begun, _, _, q, begun, ⟨Threads.step_next _ _ _ _ asks,
    fun q asked => registers q (Threads.asks_run_iff.mp asked)⟩, Threads.asks_run_iff.mpr asks,
    supplied, Option.isSome_iff_ne_none.mp stored, steps⟩

/-- The heartbeat that has read the row before the gateway was withdrawn gives it back. -/
theorem governance_overwritten : ∃ w row,
    LastCommitted (workerSystem .ascii) "b1" .gatewayOk false w ∧
    w.shared.db.workers.find? "b1" = some row ∧ row.governance .gatewayOk = true := by
  obtain ⟨⟨written, stored⟩, silent, value⟩ :
      ((Sample.bothRead.next 2).map (·.supplies "b1" .gatewayOk) = some (some false) ∧
        (Sample.withdrawn.shared.db.workers.find? "b1").isSome = true) ∧
      (Sample.withdrawn.next 1).map (·.supplies "b1" .gatewayOk) = some none ∧
      ((Sample.withdrawn.run WorkerRequest.run 1).shared.db.workers.find? "b1").map
        (·.governance .gatewayOk) = some true := by
    decide +kernel
  obtain ⟨q, asks, supplied⟩ := Option.map_eq_some_iff.mp written
  obtain ⟨q', asks', quiet⟩ := Option.map_eq_some_iff.mp silent
  obtain ⟨row, found, back⟩ := Option.map_eq_some_iff.mp value
  have together : (workerSystem .ascii).Reachable Sample.bothRead :=
    ⟨⟨.empty, []⟩, ⟨rfl, rfl⟩, Threads.steps_together _ _ _ _ _ _ _⟩
  refine ⟨_, row, ⟨Sample.bothRead, _, Sample.withdrawn, q, together, Threads.step_next _ _ _ _ asks,
    Threads.asks_run_iff.mpr asks, supplied, Option.isSome_iff_ne_none.mp stored, ?_⟩, found, back⟩
  refine .single ⟨Threads.step_next _ _ _ _ asks', fun q'' asked => ?_⟩
  cases asks'.symm.trans (Threads.asks_run_iff.mp asked)
  exact quiet

end WorkerPool
