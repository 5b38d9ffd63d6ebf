import WorkerPool.Executor

/-!
# The order of the executor's requests

Whatever its ports answer or raise, a run of the executor makes a request only after those that entitle it to
this request. What a run may ask next is said of its past alone.
-/

namespace WorkerPool

open Program

/-- What a run has asked and been answered, the last first. -/
abbrev Past : Type := List (Event Raised Request Request.Reply)

/-! ### Kinds of requests -/

def Request.claims : Request → Bool
  | .claimExact .. | .claimFencedExact .. => true
  | _ => false

def Request.publishes : Request → Bool
  | .publish .. => true
  | _ => false

/-- The calls that end the work under a lease. -/
def Request.ends : Request → Bool
  | .submitValidation .. | .complete .. => true
  | _ => false

def Request.writesReceipt : Request → Bool
  | .writeReceipt .. => true
  | _ => false

/-- The requests that change nothing that outlives the run, outside the worktree. -/
def Request.looks : Request → Bool
  | .acquire .. | .release .. | .writeReceipt .. | .publish .. | .claimExact .. | .claimFencedExact .. | .start ..
  | .submitValidation .. | .complete .. | .fail .. | .block .. | .recordCheckpoint _ => false
  | _ => true

/-- The requests that change what outlives the run. -/
def Request.mutates : Request → Bool
  | .writeReceipt .. | .publish .. | .claimExact .. | .claimFencedExact .. | .start .. | .submitValidation .. | .complete ..
  | .fail .. | .block .. | .recordCheckpoint _ => true
  | _ => false

/-- What a claim was answered, and whether it was the claim of a fenced task. -/
def claimReply : Event Raised Request Request.Reply → Option (Bool × Json)
  | ⟨.claimExact .., .ok reply⟩ => some (false, reply)
  | ⟨.claimFencedExact .., .ok reply⟩ => some (true, reply)
  | _ => none

/-! ### What a run may ask -/

/-- No request of the kind was made. -/
def Unasked (kind : Request → Bool) (past : Past) : Prop := ∀ e ∈ past, kind e.1 = false

/-- The request was made and returned. -/
def Granted (past : Past) (q : Request) : Prop := ∃ r, (⟨q, .ok r⟩ : Event Raised Request Request.Reply) ∈ past

/-- The first request returned, and the second after it. -/
def InTurn (past : Past) (first second : Request) : Prop :=
  ∃ later r earlier, past = later ++ ⟨second, .ok r⟩ :: earlier ∧ Granted earlier first

section Permissions

variable (it : Interpreter) (x : Executor) (i : Input)

/-- The run has claimed, and the lease has passed its checks. -/
def Leased (past : Past) (h : Held) : Prop :=
  ∃ fenced claim now, (∃ e ∈ past, claimReply e = some (fenced, claim)) ∧
    (⟨.now, .ok now⟩ : Event Raised Request Request.Reply) ∈ past ∧ i.readLease it fenced claim now = .ok h

/-- Whatever was published was verified afterwards. -/
def Verified (past : Past) : Prop :=
  ∀ later e earlier, past = later ++ e :: earlier → e.1.publishes = true →
    ∃ sha artifact, Granted later (.verify i.manifest sha artifact)

/-- The call that ends the work of a run with a result. -/
def Executor.ending (h : Held) (result : AdapterResult) : Request :=
  match i.role with
  | .builder => .submitValidation (i.credential h) result.producedSha x.boundary.correlationId
  | .validator => .complete (i.credential h) x.boundary.correlationId

/-- A claim of the task of this run, the first one. -/
structure ClaimEntitled (past : Past) (workerId taskId correlationId : String) : Prop where
  worker : workerId = i.workerId
  task : taskId = i.manifest.taskId
  correlation : correlationId = x.boundary.correlationId
  first : Unasked Request.claims past
  validated : Granted past (.validateBeforeClaim i.manifest i.descriptor)

/-- The fence of a checkpoint is that of the lease. -/
structure CheckpointEntitled (past : Past) (a : RecordCheckpoint) (h : Held) (f : Fence) : Prop where
  leased : Leased it i past h
  fence : h.fence = some f
  task : a.taskId = i.manifest.taskId
  worker : a.workerId = i.workerId
  token : a.leaseToken = h.token
  generation : a.leaseGeneration = f.generation
  attempt : a.attemptId = f.attemptId

/-- The first publication, under the lease of the run, after its pending checkpoint. -/
structure PublishEntitled (past : Past) (manifest : TaskManifest) (f : Fence) (effectId : String) (h : Held) : Prop where
  leased : Leased it i past h
  fence : h.fence = some f
  manifest : manifest = i.manifest
  first : Unasked Request.publishes past
  announced : Granted past (.recordCheckpoint (x.pendingCheckpoint it i h f effectId))

/-- The revision is handed over once; that of a fenced task after its artifact was verified and then recorded. -/
structure SubmitEntitled (past : Past) (produced : String) (h : Held) : Prop where
  leased : Leased it i past h
  first : Unasked Request.ends past
  verified : Verified i past
  recorded : ∀ f, h.fence = some f → ∃ resumed artifact, InTurn past (.verify i.manifest produced artifact)
    (.recordCheckpoint
      (x.builtCheckpoint it i h f resumed (artifactEffectId it i.manifest.taskId produced) artifact))

/-- A revision is accepted once, after the adapter has validated it. -/
structure CompleteEntitled (past : Past) (produced : String) (h : Held) : Prop where
  leased : Leased it i past h
  first : Unasked Request.ends past
  validated : Granted past (.validate produced)
  recorded : ∀ f, h.fence = some f → ∃ artifact, InTurn past (.verify i.manifest produced artifact)
    (.recordCheckpoint (x.validatedCheckpoint it i h f artifact))

/-- A failure is reported unless the work has ended or a publication is in doubt. -/
structure FailEntitled (past : Past) (h : Held) : Prop where
  leased : Leased it i past h
  open_ : ∀ e ∈ past, e.1.ends = true → ∃ raised, e.2 = .error raised
  verified : Verified i past

/-- A receipt is written once, after the call that ended the work. -/
structure ReceiptEntitled (past : Past) (receipt : Json) (h : Held) (result : AdapterResult) : Prop where
  leased : Leased it i past h
  first : Unasked Request.writesReceipt past
  ended : Granted past (x.ending i h result)
  content : ∃ contract artifact, receipt = x.receipt it i h contract result artifact

/-- What a run may ask after its past. -/
def Permitted (past : Past) : Request → Prop
  | .claimExact w t c => ClaimEntitled x i past w t c
  | .claimFencedExact w t c => ClaimEntitled x i past w t c ∧ Granted past .preflight
  | .start p c | .block p c _ => ∃ h, Leased it i past h ∧ p = i.credential h ∧ c = x.boundary.correlationId
  | .recordCheckpoint a => ∃ h f, CheckpointEntitled it i past a h f
  | .publish manifest f effectId _ => ∃ h, PublishEntitled it x i past manifest f effectId h
  | .submitValidation p produced c => ∃ h, p = i.credential h ∧ c = x.boundary.correlationId ∧
    SubmitEntitled it x i past produced h
  | .complete p c => ∃ h produced, p = i.credential h ∧ c = x.boundary.correlationId ∧
    CompleteEntitled it x i past produced h
  | .fail p c _ => ∃ h, p = i.credential h ∧ c = x.boundary.correlationId ∧ FailEntitled it i past h
  | .writeReceipt taskId role receipt => taskId = i.manifest.taskId ∧ role = i.role ∧
    ∃ h result, ReceiptEntitled it x i past receipt h result
  | .release taskId role => Granted past (.acquire taskId role)
  | _ => True

end Permissions

/-! ### What a longer past keeps -/

section Past

variable {it : Interpreter} {x : Executor} {i : Input} {past : Past} {h : Held} {q : Request}
  {e : Event Raised Request Request.Reply} {kind : Request → Bool}

theorem Unasked.cons (unasked : Unasked kind past) (other : kind e.1 = false) : Unasked kind (e :: past) := by
  intro e' mem
  rcases List.mem_cons.mp mem with rfl | old
  · exact other
  · exact unasked e' old

theorem Granted.cons (granted : Granted past q) : Granted (e :: past) q := by
  obtain ⟨r, mem⟩ := granted
  exact ⟨r, List.mem_cons_of_mem _ mem⟩

theorem Granted.here {r : q.Reply} : Granted (⟨q, .ok r⟩ :: past) q := ⟨r, List.mem_cons_self⟩

theorem InTurn.cons {first second : Request} (inTurn : InTurn past first second) : InTurn (e :: past) first second := by
  obtain ⟨later, r, earlier, rfl, granted⟩ := inTurn
  exact ⟨e :: later, r, earlier, rfl, granted⟩

theorem InTurn.here {first second : Request} {r : second.Reply} (granted : Granted past first) :
    InTurn (⟨second, .ok r⟩ :: past) first second := ⟨[], r, past, rfl, granted⟩

theorem Leased.cons (leased : Leased it i past h) : Leased it i (e :: past) h := by
  obtain ⟨fenced, claim, now, ⟨c, mem, reply⟩, clock, checked⟩ := leased
  exact ⟨fenced, claim, now, ⟨c, List.mem_cons_of_mem _ mem, reply⟩, List.mem_cons_of_mem _ clock, checked⟩

theorem Verified.cons (verified : Verified i past) (other : e.1.publishes = false) : Verified i (e :: past) := by
  intro later e' earlier split publishes
  cases later with
  | nil =>
    obtain ⟨rfl, -⟩ := List.cons.inj split
    rw [other] at publishes
    cases publishes
  | cons d later =>
    obtain ⟨rfl, behind⟩ := List.cons.inj split
    obtain ⟨sha, artifact, granted⟩ := verified later e' earlier behind publishes
    exact ⟨sha, artifact, granted.cons⟩

theorem Unasked.verified (unasked : Unasked Request.publishes past) : Verified i past := by
  rintro later e earlier rfl publishes
  have never := unasked e (by simp)
  rw [publishes] at never
  cases never

/-- A verification settles whatever was published before. -/
theorem verified_here {sha : String} {artifact : DurableArtifact} {u : Unit} :
    Verified i (⟨.verify i.manifest sha artifact, .ok u⟩ :: past) := by
  intro later e earlier split publishes
  cases later with
  | nil =>
    obtain ⟨rfl, -⟩ := List.cons.inj split
    cases publishes
  | cons d later =>
    obtain ⟨rfl, -⟩ := List.cons.inj split
    exact ⟨sha, artifact, .here⟩

/-- A request that only looks is permitted. -/
theorem permitted_of_looks (looks : q.looks = true) : Permitted it x i past q := by
  cases q with
  | acquire | receiptExists | receiptIsFile | readReceipt | validateBeforeClaim | validateReplay | head | status
  | changedPaths | now | build | validate | preflight | materialize | verify | getTask | getLatestCheckpoint => trivial
  | _ => cases looks

/-- A request that only looks is of none of the other kinds. -/
structure Plain (q : Request) : Prop where
  claims : q.claims = false
  publishes : q.publishes = false
  ends : q.ends = false
  writesReceipt : q.writesReceipt = false

theorem plain_of_looks (looks : q.looks = true) : Plain q := by
  cases q with
  | acquire | release | writeReceipt | publish | claimExact | claimFencedExact | start | submitValidation | complete
  | fail | block | recordCheckpoint => cases looks
  | _ => exact ⟨rfl, rfl, rfl, rfl⟩

theorem not_mutates_of_looks (looks : q.looks = true) : q.mutates = false := by
  cases q with
  | acquire | release | writeReceipt | publish | claimExact | claimFencedExact | start | submitValidation | complete
  | fail | block | recordCheckpoint => cases looks
  | _ => rfl

/-- A past that has changed nothing holds no request of a kind that changes something. -/
theorem Unasked.of_mutates (idle : Unasked Request.mutates past) (changes : ∀ q, kind q = true → q.mutates = true) :
    Unasked kind past := by
  intro e mem
  by_contra asked
  have never := idle e mem
  rw [changes e.1 (eq_true_of_ne_false asked)] at never
  cases never

end Past

/-! ### Parts that only look -/

def Looks {α : Type} (p : ExecutorProgram α) : Prop := p.Only fun q => q.looks = true

section Looks

variable {it : Interpreter} {x : Executor} {i : Input}

/-- What every plain request keeps, a part that looks keeps. -/
theorem Looks.keeps {α : Type} {p : ExecutorProgram α} {past : Past} {K : Past → Prop} (looks : Looks p)
    (grows : ∀ past q r, Request.looks q = true → K past → K (⟨q, r⟩ :: past)) (start : K past) :
    p.Orderly (Permitted it x i) (fun past _ => K past) past :=
  (looks.kept grows start).allow fun _ _ both => permitted_of_looks both.1

theorem looks_lift {α : Type} (e : Except Raised α) : Looks (liftM e : ExecutorProgram α) := .ofExcept e

theorem ask_looks {q : Request} (looks : q.looks = true) : Looks (ask q) := .request looks

theorem Looks.bind {α β : Type} {p : ExecutorProgram α} {k : α → ExecutorProgram β} (first : Looks p)
    (rest : ∀ a, Looks (k a)) : Looks (p >>= k) := Only.bind first rest

theorem Looks.pure {α : Type} (a : α) : Looks (pure a : ExecutorProgram α) := Only.pure a

theorem produce_looks (latest : Option Json) : Looks (Executor.produce i latest) := by
  cases latest with
  | none => exact (ask_looks rfl).bind fun _ => (looks_lift _).bind fun _ => .pure _
  | some checkpoint =>
    refine (looks_lift _).bind fun _ => (looks_lift _).bind fun _ => ?_
    exact (ask_looks rfl).bind fun _ => (looks_lift _).bind fun _ => .pure _

theorem inspect_looks (latest : Option Json) (result : AdapterResult) (invoked : List String) :
    Looks (Executor.inspect i latest result invoked) := by
  refine (ask_looks rfl).bind fun _ => (looks_lift _).bind fun _ => ?_
  refine (ask_looks rfl).bind fun _ => (looks_lift _).bind fun _ => ?_
  refine (ask_looks rfl).bind fun _ => (looks_lift _).bind fun _ => ?_
  split
  · exact (looks_lift _).bind fun _ => looks_lift _
  · exact .pure _

theorem verifyArtifact_looks (latest : Option Json) (produced : String) :
    Looks (Executor.verifyArtifact i latest produced) := by
  cases latest with
  | none => exact Only.raise _
  | some checkpoint =>
    refine (looks_lift _).bind fun _ => (looks_lift _).bind fun _ => ?_
    exact (ask_looks rfl).bind fun _ => .pure _

theorem readTask_looks : Looks (x.readTask i) := by
  refine (ask_looks rfl).bind fun _ => (looks_lift _).bind fun _ => (looks_lift _).bind fun _ => ?_
  refine (looks_lift _).bind fun _ => (looks_lift _).bind fun _ => (looks_lift _).bind fun _ => ?_
  split
  · refine (looks_lift _).bind fun _ => (looks_lift _).bind fun _ => ?_
    exact (looks_lift _).bind fun _ => .pure _
  · exact .pure _

theorem prepare_looks : Looks (x.prepare it i) := by
  refine (ask_looks rfl).bind fun _ => ?_
  have ready : ∀ u : Unit, Looks (do
      let _ ← i.descriptor.commandsFor i.role
      need (Json.sameSet (x.commandRegistries i.manifest.adapterId) i.descriptor.commandKeys)
        "local_command_registry" : ExecutorProgram Unit) := fun _ => (looks_lift _).bind fun _ => looks_lift _
  split
  · refine (ask_looks rfl).bind fun built => ?_
    split
    · refine (ask_looks rfl).bind fun _ => (looks_lift _).bind fun _ => (looks_lift _).bind fun _ => ?_
      exact ready ()
    · exact ready ()
  · exact ready ()

theorem replay_looks (task : Json) (fenced : Bool) : Looks (x.replay it i task fenced) := by
  refine (ask_looks rfl).bind fun _ => (looks_lift _).bind fun _ => (ask_looks rfl).bind fun previous => ?_
  refine (looks_lift _).bind fun _ => (looks_lift _).bind fun _ => Looks.bind ?_ fun held => ?_
  · split
    · exact (looks_lift _).bind fun _ => .pure _
    · exact .pure _
  refine (ask_looks rfl).bind fun _ => (ask_looks rfl).bind fun _ => (looks_lift _).bind fun _ => ?_
  cases held with
  | none =>
    split
    · exact .pure _
    · exact Only.raise _
  | some held =>
    refine (ask_looks rfl).bind fun _ => (looks_lift _).bind fun _ => (ask_looks rfl).bind fun _ => ?_
    split
    · exact .pure _
    · exact Only.raise _

end Looks

/-! ### Handlers -/

section Handlers

variable {α : Type} {allowed : Past → Request → Prop} {past : Past}

theorem onException_orderly {m post : Past → Except Raised α → Prop} {p : ExecutorProgram α}
    {handler : Raised → ExecutorProgram α} (first : p.Orderly allowed m past)
    (returns : ∀ past a, m past (.ok a) → post past (.ok a))
    (fatal : ∀ past, m past (.error .fatal) → post past (.error .fatal))
    (handled : ∀ past e, e ≠ .fatal → m past (.error e) → (handler e).Orderly allowed post past) :
    (onException p handler).Orderly allowed post past := by
  refine first.handle returns fun past e holds => ?_
  cases e with
  | fatal => exact fatal past holds
  | _ => exact handled past _ nofun holds

/-- Whatever a part that may fail has kept is kept, and only a fatal exception passes. -/
theorem attempt_orderly {K : Past → Prop} {p : ExecutorProgram Unit} (first : p.Orderly allowed (fun past _ => K past) past) :
    (attempt p).Orderly allowed (fun past r => K past ∧ (r = .ok () ∨ r = .error .fatal)) past :=
  onException_orderly first (fun _ _ kept => ⟨kept, .inl rfl⟩) (fun _ kept => ⟨kept, .inr rfl⟩)
    fun _ _ _ kept => ⟨kept, .inl rfl⟩

end Handlers

/-! ### The work under a lease -/

section Work

variable {it : Interpreter} {x : Executor} {i : Input} {past : Past} {h : Held} {f : Fence}

/-- The work under a lease has not ended, and nothing that was published is in doubt. -/
structure Working (it : Interpreter) (i : Input) (h : Held) (past : Past) : Prop where
  leased : Leased it i past h
  verified : Verified i past
  open_ : Unasked Request.ends past
  receipts : Unasked Request.writesReceipt past

theorem Working.cons {e : Event Raised Request Request.Reply} (working : Working it i h past)
    (plain : e.1.publishes = false ∧ e.1.ends = false ∧ e.1.writesReceipt = false) : Working it i h (e :: past) :=
  ⟨working.leased.cons, working.verified.cons plain.1, working.open_.cons plain.2.1, working.receipts.cons plain.2.2⟩

theorem Working.looks {q : Request} {r : Except Raised q.Reply} (working : Working it i h past) (looks : q.looks = true) :
    Working it i h (⟨q, r⟩ :: past) :=
  working.cons ⟨(plain_of_looks looks).publishes, (plain_of_looks looks).ends, (plain_of_looks looks).writesReceipt⟩

/-- A failure of the work may be reported, unless it is fatal or leaves a publication in doubt. -/
def Failed (it : Interpreter) (i : Input) (h : Held) (past : Past) (e : Raised) : Prop :=
  e = .fatal ∨ e = .blocked [.str "artifact_publish_ambiguous"] ∨ FailEntitled it i past h

theorem Working.failed (working : Working it i h past) (e : Raised) : Failed it i h past e := by
  refine .inr (.inr ⟨working.leased, fun e mem ends => ?_, working.verified⟩)
  rw [working.open_ e mem] at ends
  cases ends

theorem checkpoint_entitled (leased : Leased it i past h) (fence : h.fence = some f) {a : RecordCheckpoint}
    (task : a.taskId = i.manifest.taskId) (worker : a.workerId = i.workerId) (token : a.leaseToken = h.token)
    (generation : a.leaseGeneration = f.generation) (attempt : a.attemptId = f.attemptId) :
    Permitted it x i past (.recordCheckpoint a) :=
  ⟨h, f, leased, fence, task, worker, token, generation, attempt⟩

theorem publishArtifact_orderly {effectId : String} {result : AdapterResult} (fence : h.fence = some f)
    (working : Working it i h past) (first : Unasked Request.publishes past) :
    (x.publishArtifact it i h f effectId result).Orderly (Permitted it x i) (fun past r => match r with
      | .ok artifact => Working it i h past ∧ Granted past (.verify i.manifest result.producedSha artifact)
      | .error e => Failed it i h past e) past := by
  have leased := working.leased
  refine .request_bind (checkpoint_entitled leased fence rfl rfl rfl rfl rfl) (fun _ => ?_)
    fun e => (working.cons ⟨rfl, rfl, rfl⟩).failed e
  refine onException_orderly (m := fun past r => match r with
    | .ok artifact => Working it i h past ∧ Granted past (.verify i.manifest result.producedSha artifact)
    | .error _ => Leased it i past h) ?_ (fun _ _ holds => holds) (fun _ _ => .inl rfl) ?_
  · -- Between the publication and its verification nothing is known of the artifact.
    refine .request_bind ⟨h, leased.cons, fence, rfl, first.cons rfl, .here⟩ (fun published => ?_) fun _ => leased.cons.cons
    refine .lift_bind (fun artifact _ => ?_) fun _ => leased.cons.cons
    refine .request_bind trivial (fun _ => ?_) fun _ => leased.cons.cons.cons
    refine ⟨⟨leased.cons.cons.cons, verified_here, ?_, ?_⟩, .here⟩
    · exact ((working.open_.cons rfl).cons rfl).cons rfl
    · exact ((working.receipts.cons rfl).cons rfl).cons rfl
  · rintro past e - leased
    refine Orderly.bind (attempt_orderly (K := fun past => Leased it i past h) ?_) ?_ ?_
    · exact .request (checkpoint_entitled leased fence rfl rfl rfl rfl rfl) fun _ => leased.cons
    · rintro past - ⟨leased, -⟩
      refine Orderly.bind (attempt_orderly (K := fun past => Leased it i past h) ?_) ?_ ?_
      · exact .request ⟨h, leased, rfl, rfl⟩ fun _ => leased.cons
      · exact fun _ _ _ => .inr (.inl rfl)
      · rintro past e ⟨-, ended⟩
        exact .inl (by simpa using ended)
    · rintro past e ⟨-, ended⟩
      exact .inl (by simpa using ended)

theorem secureArtifact_orderly {latest : Option Json} {result : AdapterResult} {recovered : Option DurableArtifact}
    (fence : h.fence = some f) (working : Working it i h past) (first : Unasked Request.publishes past) :
    (x.secureArtifact it i h f latest result recovered).Orderly (Permitted it x i) (fun past r => match r with
      | .ok artifact => Working it i h past ∧ ∃ resumed, InTurn past (.verify i.manifest result.producedSha artifact)
        (.recordCheckpoint
          (x.builtCheckpoint it i h f resumed (artifactEffectId it i.manifest.taskId result.producedSha) artifact))
      | .error e => Failed it i h past e) past := by
  have recorded : ∀ past artifact, Working it i h past →
      Granted past (.verify i.manifest result.producedSha artifact) → (do
        ask (.recordCheckpoint (x.builtCheckpoint it i h f latest.isSome
          (artifactEffectId it i.manifest.taskId result.producedSha) artifact))
        pure artifact : ExecutorProgram DurableArtifact).Orderly (Permitted it x i) (fun past r => match r with
          | .ok artifact => Working it i h past ∧ ∃ resumed, InTurn past (.verify i.manifest result.producedSha artifact)
            (.recordCheckpoint
              (x.builtCheckpoint it i h f resumed (artifactEffectId it i.manifest.taskId result.producedSha) artifact))
          | .error e => Failed it i h past e) past := by
    intro past artifact working granted
    refine .request_bind (checkpoint_entitled working.leased fence rfl rfl rfl rfl rfl) (fun _ => ?_)
      fun e => (working.cons ⟨rfl, rfl, rfl⟩).failed e
    exact ⟨working.cons ⟨rfl, rfl, rfl⟩, _, .here granted⟩
  refine .lift_bind (fun _ _ => ?_) fun e => working.failed e
  cases recovered with
  | none =>
    refine Orderly.bind (publishArtifact_orderly fence working first) ?_ fun _ _ failed => failed
    exact fun past artifact both => recorded past artifact both.1 both.2
  | some artifact =>
    refine .request_bind trivial (fun _ => ?_) fun e => (working.looks rfl).failed e
    exact recorded _ artifact (working.looks rfl) .here

/-- What a finished branch leaves for the receipt. -/
structure Finished (it : Interpreter) (x : Executor) (i : Input) (h : Held) (past : Past) (result : AdapterResult) :
    Prop where
  leased : Leased it i past h
  ended : Granted past (x.ending i h result)
  receipts : Unasked Request.writesReceipt past

/-- A call that ends the work and was refused leaves it open. -/
theorem Working.refused {q : Request} {raised : Raised} (working : Working it i h past) (publishes : q.publishes = false)
    (e : Raised) : Failed it i h (⟨q, .error raised⟩ :: past) e := by
  refine .inr (.inr ⟨working.leased.cons, fun e mem ends => ?_, working.verified.cons publishes⟩)
  rcases List.mem_cons.mp mem with rfl | old
  · exact ⟨raised, rfl⟩
  · have never := working.open_ e old
    rw [ends] at never
    cases never

theorem buildTask_orderly {latest : Option Json} (role : i.role = .builder) (working : Working it i h past)
    (first : Unasked Request.publishes past) :
    (x.buildTask it i h latest).Orderly (Permitted it x i) (fun past r => match r with
      | .ok (result, _) => Finished it x i h past result
      | .error e => Failed it i h past e) past := by
  let Fresh (past : Past) : Prop := Working it i h past ∧ Unasked Request.publishes past
  have looking : ∀ past q r, Request.looks q = true → Fresh past → Fresh (⟨q, r⟩ :: past) :=
    fun past q r looks both => ⟨both.1.looks looks, both.2.cons (plain_of_looks looks).publishes⟩
  refine .request_bind ⟨h, working.leased, rfl, rfl⟩ (fun _ => ?_) fun e => (working.cons ⟨rfl, rfl, rfl⟩).failed e
  refine Orderly.bind ((produce_looks latest).keeps looking ⟨working.cons ⟨rfl, rfl, rfl⟩, first.cons rfl⟩) ?_
    fun _ e both => both.1.failed e
  rintro past ⟨result, invoked, recovered⟩ fresh
  refine Orderly.bind ((inspect_looks latest result invoked).keeps looking fresh) ?_ fun _ e both => both.1.failed e
  rintro past _ ⟨working, first⟩
  have submitted : ∀ past (artifact : Option DurableArtifact), SubmitEntitled it x i past result.producedSha h →
      Working it i h past → (do
        ask (.submitValidation (i.credential h) result.producedSha x.boundary.correlationId)
        pure (result, artifact) : ExecutorProgram (AdapterResult × Option DurableArtifact)).Orderly (Permitted it x i)
          (fun past r => match r with
            | .ok (result, _) => Finished it x i h past result
            | .error e => Failed it i h past e) past := by
    intro past artifact entitled working
    refine .request_bind ⟨h, rfl, rfl, entitled⟩ (fun _ => ?_) fun e => working.refused rfl e
    refine ⟨working.leased.cons, ?_, working.receipts.cons rfl⟩
    rw [Executor.ending, role]
    exact .here
  cases fence : h.fence with
  | none =>
    refine submitted past none ⟨working.leased, working.open_, working.verified, fun f held => ?_⟩ working
    rw [fence] at held
    cases held
  | some f =>
    refine Orderly.bind (m := fun past (r : Except Raised (Option DurableArtifact)) => match r with
      | .ok _ => SubmitEntitled it x i past result.producedSha h ∧ Working it i h past
      | .error e => Failed it i h past e) ?_ (fun past artifact both => submitted past artifact both.1 both.2)
      fun _ _ failed => failed
    refine Orderly.bind (secureArtifact_orderly fence working first) ?_ fun _ _ failed => failed
    rintro past artifact ⟨working, resumed, inTurn⟩
    refine ⟨⟨working.leased, working.open_, working.verified, fun f' held => ?_⟩, working⟩
    rw [fence] at held
    cases held
    exact ⟨resumed, artifact, inTurn⟩

theorem verifyArtifact_orderly {latest : Option Json} {produced : String} (working : Working it i h past) :
    (Executor.verifyArtifact i latest produced).Orderly (Permitted it x i) (fun past r => Working it i h past ∧
      ∀ artifact, r = .ok artifact → Granted past (.verify i.manifest produced artifact)) past := by
  cases latest with
  | none => exact ⟨working, nofun⟩
  | some checkpoint =>
    refine .lift_bind (fun _ _ => ?_) fun _ => ⟨working, nofun⟩
    refine .lift_bind (fun artifact _ => ?_) fun _ => ⟨working, nofun⟩
    refine .request_bind trivial (fun _ => ⟨working.looks rfl, ?_⟩) fun _ => ⟨working.looks rfl, nofun⟩
    rintro _ ⟨⟩
    exact .here

/-- The artifact that a fenced validator has verified. -/
def ArtifactVerified (i : Input) (h : Held) (produced : String) (artifact : Option DurableArtifact) (past : Past) : Prop :=
  ∀ f, h.fence = some f → ∃ a, artifact = some a ∧ Granted past (.verify i.manifest produced a)

theorem ArtifactVerified.cons {produced : String} {artifact : Option DurableArtifact}
    {e : Event Raised Request Request.Reply} (verified : ArtifactVerified i h produced artifact past) :
    ArtifactVerified i h produced artifact (e :: past) := by
  intro f fence
  obtain ⟨a, rfl, granted⟩ := verified f fence
  exact ⟨a, rfl, granted.cons⟩

theorem validateTask_orderly {latest : Option Json} (role : i.role = .validator) (working : Working it i h past) :
    (x.validateTask it i h latest).Orderly (Permitted it x i) (fun past r => match r with
      | .ok (result, _) => Finished it x i h past result
      | .error e => Failed it i h past e) past := by
  refine .lift_bind (fun _ _ => ?_) working.failed
  refine .lift_bind (fun produced _ => ?_) working.failed
  refine .lift_bind (fun _ _ => ?_) working.failed
  refine Orderly.bind (m := fun past r => Working it i h past ∧
    ∀ artifact, r = .ok artifact → ArtifactVerified i h produced artifact past) ?_ ?_ fun _ e both => both.1.failed e
  · split
    · refine Orderly.bind (verifyArtifact_orderly working) ?_ fun _ _ both => ⟨both.1, nofun⟩
      rintro past artifact ⟨working, granted⟩
      refine ⟨working, ?_⟩
      rintro _ ⟨⟩ f -
      exact ⟨artifact, rfl, granted artifact rfl⟩
    · rename_i unfenced
      refine ⟨working, ?_⟩
      rintro _ ⟨⟩ f fence
      simp [fence] at unfenced
  rintro past artifact ⟨working, verified⟩
  replace verified := verified artifact rfl
  refine .request_bind trivial (fun beforeHead => ?_) fun e => (working.looks rfl).failed e
  replace working := working.looks (q := .head) (r := .ok beforeHead) rfl
  refine .request_bind trivial (fun beforeStatus => ?_) fun e => (working.looks rfl).failed e
  replace working := working.looks (q := .status) (r := .ok beforeStatus) rfl
  refine .request_bind trivial (fun reply => ?_) fun e => (working.looks rfl).failed e
  replace working := working.looks (q := .validate produced) (r := .ok reply) rfl
  refine .lift_bind (fun result _ => ?_) working.failed
  refine .request_bind trivial (fun head => ?_) fun e => (working.looks rfl).failed e
  replace working := working.looks (q := .head) (r := .ok head) rfl
  refine .request_bind trivial (fun status => ?_) fun e => (working.looks rfl).failed e
  replace working := working.looks (q := .status) (r := .ok status) rfl
  refine .lift_bind (fun _ _ => ?_) working.failed
  refine .lift_bind (fun _ _ => ?_) working.failed
  refine .lift_bind (fun _ _ => ?_) working.failed
  have completed : ∀ past, Working it i h past → Granted past (.validate produced) →
      (∀ f, h.fence = some f → ∃ artifact, InTurn past (.verify i.manifest produced artifact)
        (.recordCheckpoint (x.validatedCheckpoint it i h f artifact))) → (do
        ask (.complete (i.credential h) x.boundary.correlationId)
        pure (result, artifact) : ExecutorProgram (AdapterResult × Option DurableArtifact)).Orderly (Permitted it x i)
          (fun past r => match r with
            | .ok (result, _) => Finished it x i h past result
            | .error e => Failed it i h past e) past := by
    intro past working validated recorded
    refine .request_bind ⟨h, produced, rfl, rfl, working.leased, working.open_, validated, recorded⟩ (fun _ => ?_)
      fun e => working.refused rfl e
    refine ⟨working.leased.cons, ?_, working.receipts.cons rfl⟩
    rw [Executor.ending, role]
    exact .here
  cases fence : h.fence with
  | none =>
    refine completed _ working ⟨reply, by simp⟩ fun f held => ?_
    rw [fence] at held
    cases held
  | some f =>
    obtain ⟨a, rfl, granted⟩ := verified f fence
    refine .request_bind (checkpoint_entitled working.leased fence rfl rfl rfl rfl rfl) (fun _ => ?_)
      fun e => (working.cons ⟨rfl, rfl, rfl⟩).failed e
    refine completed _ (working.cons ⟨rfl, rfl, rfl⟩) ⟨reply, by simp⟩ fun f' held => ?_
    rw [fence] at held
    cases held
    exact ⟨a, .here granted.cons.cons.cons.cons.cons⟩

theorem Working.failEntitled (working : Working it i h past) : FailEntitled it i past h := by
  refine ⟨working.leased, fun e mem ends => ?_, working.verified⟩
  rw [working.open_ e mem] at ends
  cases ends

theorem reportFailure_orderly {α : Type} {e : Raised} {post : Past → Except Raised α → Prop} (alive : e ≠ .fatal)
    (failed : Failed it i h past e) (any : ∀ past e, post past (.error e)) :
    (x.reportFailure i h e : ExecutorProgram α).Orderly (Permitted it x i) post past := by
  refine .lift_bind (fun candidate read => ?_) fun e => any _ e
  refine .lift_bind (fun closed _ => ?_) fun e => any _ e
  have raised : ∀ (past : Past) (rejected : Bool), (if rejected && !candidate.isNull then .raise e
      else if closed then .raise e else .raise (.blocked [.str "adapter_failed"]) : ExecutorProgram α).Orderly
        (Permitted it x i) post past := by
    intro past rejected
    split
    · exact any _ _
    · split
      · exact any _ _
      · exact any _ _
  refine Orderly.bind (m := fun _ _ => True) ?_ (fun past rejected _ => raised past rejected) fun _ e _ => any _ e
  split
  · trivial
  · rename_i certain
    have entitled : FailEntitled it i past h := by
      rcases failed with rfl | rfl | entitled
      · exact absurd rfl alive
      · cases read
        exact absurd (by decide) certain
      · exact entitled
    refine onException_orderly (m := fun _ _ => True) ?_ (fun _ _ _ => trivial) (fun _ _ => trivial) fun _ _ _ _ => trivial
    exact .request_bind ⟨h, rfl, rfl, entitled⟩ (fun _ => trivial) fun _ => trivial

end Work

/-! ### The run -/

section Run

variable {it : Interpreter} {x : Executor} {i : Input} {past : Past} {h : Held} {fenced : Bool}

/-- The claim of the run was answered. -/
structure Claimed (fenced : Bool) (past : Past) (claim : Json) : Prop where
  reply : ∃ e ∈ past, claimReply e = some (fenced, claim)
  published : Unasked Request.publishes past
  open_ : Unasked Request.ends past
  receipts : Unasked Request.writesReceipt past

theorem claimed_here {q : Request} {r : q.Reply} {claim : Json} (idle : Unasked Request.mutates past)
    (reply : claimReply ⟨q, .ok r⟩ = some (fenced, claim))
    (kind : q.publishes = false ∧ q.ends = false ∧ q.writesReceipt = false) : Claimed fenced (⟨q, .ok r⟩ :: past) claim := by
  refine ⟨⟨_, List.mem_cons_self, reply⟩, .cons ?_ kind.1, .cons ?_ kind.2.1, .cons ?_ kind.2.2⟩
  all_goals
    refine idle.of_mutates fun q asked => ?_
    cases q with
    | publish | submitValidation | complete | writeReceipt => rfl
    | _ => cases asked

theorem claim_orderly (idle : Unasked Request.mutates past)
    (validated : Granted past (.validateBeforeClaim i.manifest i.descriptor)) :
    (x.claim i fenced).Orderly (Permitted it x i) (fun past r => ∀ claim, r = .ok claim → Claimed fenced past claim)
      past := by
  have first : ∀ past, Unasked Request.mutates past → Unasked Request.claims past := fun past idle =>
    idle.of_mutates fun q asked => by
      cases q with
      | claimExact | claimFencedExact => rfl
      | _ => cases asked
  refine .ite ?_ ?_
  · rintro rfl
    refine .lift_bind (fun _ _ => ?_) nofun
    refine .lift_bind (fun _ _ => ?_) nofun
    refine Orderly.bind (m := fun past r => Unasked Request.mutates past ∧ Granted past (.validateBeforeClaim i.manifest
      i.descriptor) ∧ (r = .ok () → Granted past .preflight)) ?_ ?_ fun _ _ _ => nofun
    · refine onException_orderly (m := fun past r => Unasked Request.mutates past ∧ Granted past (.validateBeforeClaim
        i.manifest i.descriptor) ∧ (r = .ok () → Granted past .preflight)) ?_ (fun _ _ holds => holds)
        (fun _ holds => holds) fun _ _ _ holds => ⟨holds.1, holds.2.1, nofun⟩
      refine .request trivial fun r => ⟨idle.cons rfl, validated.cons, ?_⟩
      rintro rfl
      exact .here
    · rintro past _ ⟨idle, validated, preflight⟩
      refine .request ⟨⟨rfl, rfl, rfl, first past idle, validated⟩, preflight rfl⟩ fun r => ?_
      rintro claim rfl
      exact claimed_here idle rfl ⟨rfl, rfl, rfl⟩
  · intro unfenced
    obtain rfl := eq_false_of_ne_true unfenced
    refine .request ⟨rfl, rfl, rfl, first past idle, validated⟩ fun r => ?_
    rintro claim rfl
    exact claimed_here idle rfl ⟨rfl, rfl, rfl⟩

theorem readRecovery_orderly {claim : Json} (working : Working it i h past) (first : Unasked Request.publishes past) :
    (x.readRecovery i h claim).Orderly (Permitted it x i)
      (fun past _ => Working it i h past ∧ Unasked Request.publishes past) past := by
  unfold Executor.readRecovery
  split
  · exact ⟨working, first⟩
  · refine onException_orderly (m := fun past _ => Working it i h past ∧ Unasked Request.publishes past) ?_
      (fun _ _ holds => holds) (fun _ holds => holds) ?_
    · refine .lift_bind (fun _ _ => ?_) fun _ => ⟨working, first⟩
      refine .lift_bind (fun _ _ => ?_) fun _ => ⟨working, first⟩
      exact .lift_bind (fun _ _ => ⟨working, first⟩) fun _ => ⟨working, first⟩
    · rintro past e - ⟨working, first⟩
      refine Orderly.bind (attempt_orderly (K := fun past => Working it i h past ∧ Unasked Request.publishes past) ?_)
        (fun _ _ holds => holds.1) fun _ _ holds => holds.1
      exact .request ⟨h, working.leased, rfl, rfl⟩ fun _ => ⟨working.cons ⟨rfl, rfl, rfl⟩, first.cons rfl⟩

/-- The receipt that the run returns was written. -/
def Receipted (i : Input) (past : Past) (r : Except Raised Json) : Prop :=
  ∀ receipt, r = .ok receipt → Granted past (.writeReceipt i.manifest.taskId i.role receipt)

theorem execute_orderly (idle : Unasked Request.mutates past)
    (validated : Granted past (.validateBeforeClaim i.manifest i.descriptor)) :
    (x.execute it i fenced).Orderly (Permitted it x i) (Receipted i) past := by
  refine Orderly.bind (claim_orderly idle validated) ?_ fun _ _ _ => nofun
  rintro past claim claimed
  obtain ⟨reply, first, open_, receipts⟩ := claimed claim rfl
  refine .request_bind trivial (fun now => ?_) fun _ => nofun
  refine .lift_bind (fun h checked => ?_) fun _ => nofun
  have leased : Leased it i (⟨.now, .ok now⟩ :: past) h := by
    obtain ⟨e, mem, reply⟩ := reply
    exact ⟨fenced, claim, now, ⟨e, List.mem_cons_of_mem _ mem, reply⟩, List.mem_cons_self, checked⟩
  have published : Unasked Request.publishes (⟨.now, .ok now⟩ :: past) := first.cons rfl
  refine Orderly.bind (readRecovery_orderly ⟨leased, published.verified, open_.cons rfl, receipts.cons rfl⟩ published) ?_
    fun _ _ _ => nofun
  rintro past latest ⟨working, first⟩
  refine .lift_bind (fun same _ => ?_) fun _ => nofun
  split
  · refine Orderly.bind (m := fun past r => ∀ result artifact, r = .ok (result, artifact) →
      Finished it x i h past result) ?_ ?_ fun _ _ _ => nofun
    · refine onException_orderly (m := fun past r => match r with
        | .ok (result, _) => Finished it x i h past result
        | .error e => Failed it i h past e) ?_ ?_ (fun _ _ => nofun) ?_
      · split
        · rename_i role
          exact buildTask_orderly role working first
        · rename_i role
          exact validateTask_orderly role working
      · rintro past ⟨result, artifact⟩ finished _ _ ⟨⟩
        exact finished
      · exact fun past e alive failed => reportFailure_orderly alive failed fun _ _ => nofun
    · rintro past ⟨result, artifact⟩ finished
      obtain ⟨leased, ended, receipts⟩ := finished result artifact rfl
      refine .lift_bind (fun contract _ => ?_) fun _ => nofun
      refine .request_bind ⟨rfl, rfl, h, result, leased, receipts, ended, contract, artifact, rfl⟩ (fun _ => ?_)
        fun _ => nofun
      rintro receipt ⟨⟩
      exact .here
  · refine Orderly.bind (attempt_orderly (K := fun _ => True) ?_) (fun _ _ _ => nofun) fun _ _ _ => nofun
    exact .request ⟨h, rfl, rfl, working.failEntitled⟩ fun _ => trivial

end Run

/-! ### A whole run -/

/-- A past only grows. -/
theorem orderly_grows {α : Type} {allowed : Past → Request → Prop} {post : Past → Except Raised α → Prop}
    {p : ExecutorProgram α} {past base : Past} (h : p.Orderly allowed post past) (suffix : base <:+ past) :
    p.Orderly allowed (fun past r => post past r ∧ base <:+ past) past := by
  induction p generalizing past with
  | done a => exact ⟨h, suffix⟩
  | raise e => exact ⟨h, suffix⟩
  | ask q k ih => exact ⟨h.1, fun r => ih r (h.2 r) (suffix.trans (List.suffix_cons _ _))⟩

section Whole

variable {it : Interpreter} {x : Executor} {i : Input} {past : Past}

/-- What a run leaves: the lock is released last, and a receipt that it returns was written, unless it was found and
nothing was changed. -/
structure Ended (i : Input) (past : Past) (r : Except Raised Json) : Prop where
  released : Granted past (.acquire i.manifest.taskId i.role) →
    ∃ answer earlier, past = ⟨.release i.manifest.taskId i.role, answer⟩ :: earlier
  receipt : Unasked Request.mutates past ∨ Receipted i past r

theorem Unasked.nil {kind : Request → Bool} : Unasked kind [] := fun _ mem => absurd mem List.not_mem_nil

theorem idle_looks (past : Past) (q : Request) (r : Except Raised q.Reply) (looks : q.looks = true)
    (idle : Unasked Request.mutates past) : Unasked Request.mutates (⟨q, r⟩ :: past) :=
  idle.cons (not_mutates_of_looks looks)

theorem Looks.after {α : Type} {q : Request} {k : q.Reply → ExecutorProgram α} (looks : Looks (ask q >>= k))
    (r : q.Reply) : Looks (k r) := (Only.ask looks).2 (.ok r)

/-- The checks before the claim change nothing, and return only after the adapter's. -/
theorem prepare_orderly (idle : Unasked Request.mutates past) :
    (x.prepare it i).Orderly (Permitted it x i) (fun past r => Unasked Request.mutates past ∧
      (r = .ok () → Granted past (.validateBeforeClaim i.manifest i.descriptor))) past := by
  refine .request_bind trivial (fun u => ?_) fun _ => ⟨idle.cons rfl, by rintro ⟨⟩⟩
  have whole : Looks (x.prepare it i) := prepare_looks
  refine ((Looks.after whole u).keeps (K := fun past => Unasked Request.mutates past ∧
    Granted past (.validateBeforeClaim i.manifest i.descriptor)) ?_ ⟨idle.cons rfl, .here⟩).mono ?_
  · exact fun past q r looks both => ⟨idle_looks past q r looks both.1, both.2.cons⟩
  · exact fun past r both => ⟨both.1, fun _ => both.2⟩

theorem locked_orderly (idle : Unasked Request.mutates past) :
    (x.locked it i).Orderly (Permitted it x i) (fun past r => Unasked Request.mutates past ∨ Receipted i past r) past := by
  refine .request_bind trivial (fun (hasReceipt : Bool) => ?_) fun _ => .inl (idle.cons rfl)
  replace idle := Unasked.cons (e := ⟨.receiptExists i.manifest.taskId i.role, .ok hasReceipt⟩) idle rfl
  have rest : ∀ past : Past, Unasked Request.mutates past →
      (hasReceipt ≠ true → Granted past (.validateBeforeClaim i.manifest i.descriptor)) → (do
        let r ← x.readTask i
        if hasReceipt = true then x.replay it i r.1 r.2 else x.execute it i r.2 : ExecutorProgram Json).Orderly
          (Permitted it x i) (fun past r => Unasked Request.mutates past ∨ Receipted i past r) past := by
    intro past idle validated
    refine Orderly.bind (readTask_looks.keeps (K := fun past => Unasked Request.mutates past ∧ (hasReceipt ≠ true →
      Granted past (.validateBeforeClaim i.manifest i.descriptor))) ?_ ⟨idle, validated⟩) ?_ fun _ _ both => .inl both.1
    · exact fun past q r looks both => ⟨idle_looks past q r looks both.1, fun none_yet => (both.2 none_yet).cons⟩
    · rintro past ⟨task, fenced⟩ ⟨idle, validated⟩
      refine .ite (fun _ => ?_) fun none_yet => ?_
      · exact ((replay_looks task fenced).keeps idle_looks idle).mono fun _ _ => .inl
      · exact (execute_orderly idle (validated none_yet)).mono fun _ _ => .inr
  refine .ite (fun found => rest _ idle fun none_yet => absurd found none_yet) fun none_yet => ?_
  refine Orderly.bind (prepare_orderly idle) ?_ fun _ _ both => .inl both.1
  exact fun past _ both => rest past both.1 fun _ => both.2 rfl

end Whole

end WorkerPool
