import WorkerPool.RagReceipt

/-!
# What a write leaves open

The provider answers as it likes. `publish` sorts the exceptions of a write by their texts: those of
the object store are refusals, but so it takes those of the port, which say that an answer was lost
or not understood.
-/

namespace WorkerPool.Issue

open Program PyText

abbrev PortEvent : Type := Event Handoff PortRequest PortReply

/-- Both sides of the port: each request is answered by what was asked and answered before it. -/
abbrev Provider : Type := List PortEvent → (q : PortRequest) → PortReply q

/-- The outcome of a program, and the past of the provider then. -/
def Provider.play {α : Type} (provider : Provider) (p : PortProgram α) (past : List PortEvent) :
    Except Handoff α × List PortEvent :=
  p.eval (logged fun past q => .ok (provider past q)) past

/-- The text of an exception that the port raised on account of an answer. -/
def portReason? {α : Type} : Except Handoff α → Option String
  | .error (.port reason) => some reason
  | _ => none

/-- Why the port does not accept the answer, if it does not. -/
def refusal : PortEvent → Option String
  | ⟨.clock, r⟩ => portReason? r
  | ⟨.http c, r⟩ => portReason? (r.bind (received c))

def writes : PortRequest → Bool
  | .http c => c.method = .put
  | .clock => false

def isPut (e : PortEvent) : Bool := writes e.1

/-- The store itself refuses the write: for its arguments, for the issue, for the history of the branch
or for its capacity. -/
def Rejected (write : Except Handoff String) : Prop :=
  ∃ reason, write = .error (.blocked reason) ∧ reason ≠ readbackRequired

/-- The outcome of a publication against that of its write and of a readback that follows it. -/
structure Reconciles (s : Sealed) (write : Except Handoff String × List PortEvent)
    (readback : Except Handoff Bytes × List PortEvent)
    (outcome : Except Handoff DurableArtifact × List PortEvent) : Prop where
  once : outcome.2.countP isPut ≤ 1
  decided : ¬ Rejected write.1 →
    (outcome.1 = .ok (receiptArtifact s.digest) ↔ readback.1 = .ok s.raw)
  reread : ¬ Rejected write.1 → outcome.2 = readback.2

/-! ### Every refusal is raised -/

/-- No answer was refused. -/
def Clean (past : List PortEvent) : Prop := past.findSome? refusal = none

/-- As long as no answer is refused the program goes on, and then it ends. -/
structure Heeds {α : Type} (p : PortProgram α) : Prop where
  orderly : ∀ past, Clean past →
    p.Orderly (fun _ _ => True) (fun past r => portReason? r = past.findSome? refusal) past

section Heeds

variable {α β : Type}

theorem Heeds.of_outcome {x : Except Handoff α} (other : portReason? x = none) : Heeds (liftM x) := by
  refine ⟨fun past clean => ?_⟩
  rw [orderly_lift, other]
  exact clean.symm

theorem Heeds.pure (a : α) : Heeds (pure a) := Heeds.of_outcome (x := .ok a) rfl

theorem Heeds.raise {e : Handoff} (other : portReason? (.error e : Except Handoff α) = none) :
    Heeds (.raise e : PortProgram α) := Heeds.of_outcome other

/-- The exception is the same one, whatever the program would have returned. -/
theorem portReason?_error (e : Handoff) :
    portReason? (.error e : Except Handoff α) = portReason? (.error e : Except Handoff β) := by
  cases e <;> rfl

theorem Heeds.bind {p : PortProgram α} {k : α → PortProgram β} (first : Heeds p)
    (rest : ∀ a, Heeds (k a)) : Heeds (p >>= k) := by
  refine ⟨fun past clean => orderly_bind.mpr ((first.orderly past clean).mono fun past' r heard => ?_)⟩
  cases r with
  | ok a => exact (rest a).orderly past' heard.symm
  | error e => exact (portReason?_error e).trans heard

theorem Heeds.require (c : Prop) [Decidable c] (reason : String) : Heeds (require c reason) :=
  ⟨fun _ clean => orderly_need.mpr ⟨fun _ => clean.symm, fun _ => clean.symm⟩⟩

theorem portReason?_of (e : Raised) : portReason? (.error (Handoff.of e) : Except Handoff α) = none := by
  unfold Handoff.of
  split <;> rfl

theorem Heeds.fromRaised (x : Except Raised α) : Heeds (fromRaised x) := by
  cases x with
  | ok a => exact Heeds.pure a
  | error e => exact Heeds.raise (portReason?_of e)

theorem heard {e : PortEvent} {past : List PortEvent} (clean : Clean past) :
    refusal e = (e :: past).findSome? refusal := by
  rw [List.findSome?_cons]
  cases refusal e with
  | some reason => rfl
  | none => exact clean.symm

theorem Heeds.clock : Heeds readClock := by
  refine ⟨fun past clean => ?_⟩
  exact (orderly_request (q := PortRequest.clock)).mpr ⟨trivial, fun r =>
    heard (e := ⟨.clock, r⟩) clean⟩

theorem Heeds.answer (c : HttpCall) :
    Heeds (do let answer ← Program.request (.http c); liftM (received c answer)) := by
  refine ⟨fun past clean => orderly_bind.mpr (orderly_request.mpr ⟨trivial, fun r => ?_⟩)⟩
  have raised : portReason? (r.bind (received c)) = ((⟨.http c, r⟩ :: past).findSome? refusal) :=
    heard (e := ⟨.http c, r⟩) clean
  cases r with
  | ok answer => exact orderly_lift.mpr raised
  | error e => exact (portReason?_error e).trans raised

theorem Heeds.http (c : HttpCall) : Heeds (portRequest c) :=
  .bind (.require _ _) fun _ => .answer c

end Heeds

/-! ### What writes nothing -/

/-- A program that makes no `PUT` and heeds every refusal. -/
structure Quiet {α : Type} (p : PortProgram α) : Prop where
  heeds : Heeds p
  only : p.Only (fun q => writes q = false)

section Quiet

variable {α β : Type}

theorem Quiet.of_outcome {x : Except Handoff α} (other : portReason? x = none) : Quiet (liftM x) :=
  ⟨.of_outcome other, .ofExcept x⟩

theorem Quiet.pure (a : α) : Quiet (pure a) := ⟨.pure a, .pure a⟩

theorem Quiet.raise {e : Handoff} (other : portReason? (.error e : Except Handoff α) = none) :
    Quiet (.raise e : PortProgram α) :=
  ⟨.raise other, .raise e⟩

theorem Quiet.bind {p : PortProgram α} {k : α → PortProgram β} (first : Quiet p)
    (rest : ∀ a, Quiet (k a)) : Quiet (p >>= k) :=
  ⟨first.heeds.bind fun a => (rest a).heeds, first.only.bind fun a => (rest a).only⟩

theorem Quiet.require (c : Prop) [Decidable c] (reason : String) : Quiet (require c reason) :=
  ⟨.require c reason, .need c _⟩

theorem Quiet.fromRaised (x : Except Raised α) : Quiet (fromRaised x) := ⟨.fromRaised x, .ofExcept _⟩

theorem Quiet.clock : Quiet readClock := ⟨.clock, .request rfl⟩

theorem only_http {c : HttpCall} {permitted : PortRequest → Prop} (asked : permitted (.http c)) :
    (portRequest c).Only permitted :=
  .bind (.need _ _) fun _ => .bind (.request asked) fun _ => .ofExcept _

theorem Quiet.http {c : HttpCall} (reads : writes (.http c) = false) : Quiet (portRequest c) :=
  ⟨.http c, only_http reads⟩

variable (it : Interpreter) (cas : GitHubObjectCas)

theorem portReason?_need {c : Prop} [Decidable c] {e : Handoff} (other : portReason? (.error e : Except Handoff Unit) = none) :
    portReason? (Handoff.need c e) = none := by
  unfold Handoff.need
  split
  · rfl
  · exact other

theorem portReason?_bind {x : Except Handoff α} {k : α → Except Handoff β} (first : portReason? x = none)
    (rest : ∀ a, portReason? (k a) = none) : portReason? (x >>= k) = none := by
  cases x with
  | ok a => exact rest a
  | error e => exact (portReason?_error e).trans first

theorem branchScope_quiet (compare : Json) : portReason? (branchScope compare) = none := by
  unfold branchScope
  dsimp only
  repeat' split
  all_goals rfl

theorem fileContents_quiet (path : String) (payload : Json) :
    portReason? (fileContents path payload) = none := by
  refine portReason?_bind (portReason?_need rfl) fun _ => ?_
  split
  · refine portReason?_bind (portReason?_need rfl) fun _ => ?_
    split
    · exact portReason?_bind (portReason?_need rfl) fun _ => rfl
    · rfl
  · rfl

theorem appended_quiet (path blob : String) (result : Json) :
    portReason? (GitHubObjectCas.appended path blob result) = none := by
  unfold GitHubObjectCas.appended
  dsimp only
  split
  · exact portReason?_bind (portReason?_need rfl) fun _ => rfl
  · rfl

theorem checkedPut_quiet (put : PutObject) : portReason? (GitHubObjectCas.checkedPut put) = none := by
  refine portReason?_bind ?_ fun _ => portReason?_bind (portReason?_need rfl) fun _ => rfl
  unfold checkedKey
  repeat' split
  all_goals rfl

theorem authorized_quiet : Quiet (cas.authorized it) :=
  .bind .clock fun _ => .bind (.bind (.require _ _) fun _ => .http rfl) fun _ =>
    .bind (.require _ _) fun _ => .bind (.bind (.require _ _) fun _ => .http rfl) fun _ =>
    .bind (.bind (.require _ _) fun _ => .http rfl) fun _ =>
    .bind (.fromRaised _) fun _ => .require _ _

theorem head_quiet : Quiet cas.head := by
  refine .bind (.http rfl) fun result => ?_
  split
  · exact .pure none
  · exact .bind (.require _ _) fun _ => .pure _

theorem countFrom_quiet (sha : String) : Quiet (cas.countFrom sha) := by
  unfold GitHubObjectCas.countFrom
  split
  · exact .pure 0
  · exact .bind (.http rfl) fun _ => .of_outcome (branchScope_quiet _)

theorem ensureBranch_quiet : Quiet cas.ensureBranch := by
  refine .bind (head_quiet cas) fun found => ?_
  cases found with
  | some sha => exact countFrom_quiet cas sha
  | none =>
    refine .bind (.bind (.http rfl) fun _ => .require _ _) fun _ => ?_
    refine .bind (head_quiet cas) fun found => ?_
    cases found with
    | some sha => exact countFrom_quiet cas sha
    | none => exact .raise rfl

theorem get_quiet (path : String) : Quiet (cas.get path) := by
  refine .bind (.http rfl) fun payload => ?_
  split
  · exact .pure none
  · exact .bind (.of_outcome (fileContents_quiet _ _)) fun _ => .pure _

theorem getObject_quiet (bucket key : String) : Quiet (cas.getObject bucket key) := by
  refine .bind (.of_outcome ?_) fun _ => .bind (head_quiet cas) fun _ => .bind (.require _ _) fun _ =>
    .bind (get_quiet cas _) fun body => ?_
  · unfold checkedKey
    repeat' split
    all_goals rfl
  · cases body with
    | some body => exact .bind (.require _ _) fun _ => .pure _
    | none => exact .raise rfl

theorem prepare_quiet (cas : IssueRagReceiptCas) (t : ReceiptTask) (receipt : Json)
    (independentRead : SourceRead) : Quiet (cas.prepare it t receipt independentRead) :=
  .bind (.require _ _) fun _ => .bind (.fromRaised _) fun _ =>
    .bind (authorized_quiet it _) fun _ => .bind (authorized_quiet it _) fun _ =>
    .bind (.fromRaised _) fun _ => .bind (.fromRaised _) fun _ => .bind (.require _ _) fun _ =>
    .bind (.fromRaised _) fun _ => .pure _

theorem append_heeds (path : String) (body : Bytes) : Heeds (cas.append path body) :=
  .bind (.http _) fun _ => .bind (.of_outcome (appended_quiet _ _ _)) fun _ =>
    .bind (head_quiet cas).heeds fun _ => .bind (.require _ _) fun _ =>
    .bind (ensureBranch_quiet cas).heeds fun _ => .pure _

theorem putObject_heeds (put : PutObject) : Heeds (cas.putObject it put) := by
  refine .bind (.of_outcome (checkedPut_quiet put)) fun path =>
    .bind (authorized_quiet it cas).heeds fun _ => .bind (ensureBranch_quiet cas).heeds fun _ =>
    .bind (get_quiet cas path).heeds fun found => ?_
  cases found with
  | some body => exact .raise rfl
  | none => exact .bind (.require _ _) fun _ => append_heeds cas path put.body

theorem read_only (cas : IssueRagReceiptCas) (key : String) :
    (cas.read it key).Only (fun q => writes q = false) := by
  refine .handle (.bind (authorized_quiet it _).only fun _ => .bind (getObject_quiet _ _ _).only fun _ =>
    .bind (.need _ _) fun _ => .pure _) fun e => ?_
  split
  · exact .raise _
  · exact .raise _

end Quiet

/-! ### One write -/

section Play

variable {α β : Type} (provider : Provider) {past : List PortEvent}

theorem play_bind {p : PortProgram α} {k : α → PortProgram β} :
    provider.play (p >>= k) past = match provider.play p past with
      | (.ok a, t) => provider.play (k a) t
      | (.error e, t) => (.error e, t) := by
  refine eval_bind.trans ?_
  unfold Provider.play
  cases p.eval _ past with
  | mk r t => cases r <;> rfl

theorem play_handle {p : PortProgram α} {h : Handoff → PortProgram α} :
    provider.play (p.handle h) past = match provider.play p past with
      | (.ok a, t) => (.ok a, t)
      | (.error e, t) => provider.play (h e) t := by
  refine eval_handle.trans ?_
  unfold Provider.play
  cases p.eval _ past with
  | mk r t => cases r <;> rfl

theorem play_pure {a : α} : provider.play (pure a) past = (.ok a, past) := rfl

theorem play_raise {e : Handoff} : provider.play (.raise e : PortProgram α) past = (.error e, past) := rfl

theorem play_require (c : Prop) [Decidable c] (reason : String) : provider.play (require c reason) past =
    (if c then .ok () else .error (.blocked reason), past) := by
  unfold require Program.need
  split <;> rfl

/-- The number of writes that a program makes is at most `n`. -/
def WritesAtMost (n : Nat) (p : PortProgram α) : Prop :=
  ∀ past, (provider.play p past).2.countP isPut ≤ past.countP isPut + n

variable {provider}

theorem WritesAtMost.of_only {p : PortProgram α} (h : p.Only (fun q => writes q = false)) :
    WritesAtMost provider 0 p := by
  intro past
  obtain ⟨later, grown, quiet⟩ := @Only.later _ _ _ _ (fun past q => .ok (provider past q)) past _ _ h
  have none_later : later.countP isPut = 0 :=
    List.countP_eq_zero.mpr fun e inside => Bool.eq_false_iff.mp (quiet e inside)
  show (p.eval _ past).2.countP isPut ≤ _
  rw [grown, List.countP_append, none_later]
  omega

theorem WritesAtMost.bind {p : PortProgram α} {k : α → PortProgram β} {m n : Nat}
    (first : WritesAtMost provider m p) (rest : ∀ a, WritesAtMost provider n (k a)) :
    WritesAtMost provider (m + n) (p >>= k) := by
  intro past
  have before := first past
  rw [play_bind]
  cases h : provider.play p past with
  | mk r t =>
    rw [h] at before
    cases r with
    | ok a =>
      have after := rest a t
      dsimp only at before ⊢
      omega
    | error e =>
      dsimp only at before ⊢
      omega

/-- What writes nothing does not count. -/
theorem WritesAtMost.after {p : PortProgram α} {k : α → PortProgram β} {n : Nat}
    (first : p.Only (fun q => writes q = false)) (rest : ∀ a, WritesAtMost provider n (k a)) :
    WritesAtMost provider n (p >>= k) := by
  have both := WritesAtMost.bind (.of_only first) rest
  rwa [Nat.zero_add] at both

theorem WritesAtMost.http (c : HttpCall) : WritesAtMost provider 1 (portRequest c) := by
  have asked : WritesAtMost provider 1
      (do let answer ← Program.request (.http c); liftM (received c answer)) := by
    refine .bind (m := 1) (n := 0) (fun past => ?_) fun answer => .of_only (.ofExcept _)
    show (⟨_, _⟩ :: past : List PortEvent).countP isPut ≤ _
    rw [List.countP_cons]
    split <;> omega
  exact .after (.need _ _) fun _ => asked

variable (it : Interpreter)

theorem append_writes (cas : GitHubObjectCas) (path : String) (body : Bytes) :
    WritesAtMost provider 1 (cas.append path body) :=
  .bind (m := 1) (n := 0) (.http _) fun _ => .of_only (.bind (.ofExcept _) fun _ =>
    .bind (head_quiet cas).only fun _ => .bind (.need _ _) fun _ =>
    .bind (ensureBranch_quiet cas).only fun _ => .pure _)

theorem putObject_writes (cas : GitHubObjectCas) (put : PutObject) :
    WritesAtMost provider 1 (cas.putObject it put) := by
  refine .after (.ofExcept _) fun path => .after (authorized_quiet it cas).only fun _ =>
    .after (ensureBranch_quiet cas).only fun _ => .after (get_quiet cas path).only fun found => ?_
  cases found with
  | some body => exact fun past => Nat.le_succ _
  | none => exact .after (.need _ _) fun _ => append_writes cas path put.body

/-! ### What a write raises -/

theorem portReason?_checked {c : Prop} [Decidable c] {e : Handoff} {k : Unit → Except Handoff α}
    {reason : String} (h : portReason? (Handoff.need c e >>= k) = some reason) :
    e = .port reason ∨ portReason? (k ()) = some reason := by
  unfold Handoff.need at h
  split at h
  · exact .inr h
  · cases e with
    | port text => exact .inl (congrArg Handoff.port (Option.some.inj h))
    | blocked | alreadyExists | error => cases h

theorem Shape.verify_port {data : Json} {shape : Shape} {reason : String}
    (h : portReason? (shape.verify data) = some reason) : reason ≠ readbackRequired := by
  cases shape with
  | any => cases h
  | issue | comment | branch =>
    rcases portReason?_checked h with named | later
    · cases named
      decide
    · cases later

/-- No text of the port is the one that asks for a readback. -/
theorem received_port {c : HttpCall} {t : Transport} {reason : String}
    (h : portReason? (received c t) = some reason) : reason ≠ readbackRequired := by
  cases t with
  | tokenUnavailable | tokenInvalid | failed =>
    cases h
    decide
  | raised => cases h
  | response r =>
    rcases portReason?_checked h with named | h
    · cases named
      decide
    split at h
    · cases h
    rcases portReason?_checked h with named | h
    · cases named
      decide
    rcases portReason?_checked h with named | h
    · cases named
      decide
    split at h
    · exact Shape.verify_port h
    · exact Shape.verify_port h
    · cases h
    · cases h
      decide

/-- A provider never raises. -/
def Answered (past : List PortEvent) : Prop := ∀ e ∈ past, ∃ q a, e = ⟨q, .ok a⟩

theorem play_answered {p : PortProgram α} (before : Answered past) :
    Answered (provider.play p past).2 := by
  induction p generalizing past with
  | done a => exact before
  | raise e => exact before
  | ask q k ih => exact ih _ (List.forall_mem_cons.mpr ⟨⟨_, _, rfl⟩, before⟩)

theorem play_heeds {p : PortProgram α} (heeds : Heeds p) (clean : Clean past) :
    portReason? (provider.play p past).1 = (provider.play p past).2.findSome? refusal :=
  (heeds.orderly past clean).outcome

theorem play_port {p : PortProgram α} (heeds : Heeds p) (clean : Clean past)
    (before : Answered past) {reason : String} (h : portReason? (provider.play p past).1 = some reason) : reason ≠ readbackRequired := by
  rw [play_heeds heeds clean] at h
  obtain ⟨e, inside, refused⟩ := List.exists_of_findSome?_eq_some h
  obtain ⟨q, answer, rfl⟩ := play_answered before e inside
  cases q with
  | clock => cases refused
  | http c => exact received_port refused

/-! ### Outcomes that are certain -/

/-- As long as `inv` holds of the past the program ends with `r`, and then it holds still. -/
def Settles (provider : Provider) (inv : List PortEvent → Prop) (p : PortProgram α)
    (r : Except Handoff α) : Prop :=
  ∀ past, inv past → ∃ later, provider.play p past = (r, later) ∧ inv later

variable {inv : List PortEvent → Prop}

theorem Settles.of_outcome (x : Except Handoff α) : Settles provider inv (liftM x) x := by
  intro past holds
  cases x with
  | ok a => exact ⟨past, rfl, holds⟩
  | error e => exact ⟨past, rfl, holds⟩

theorem Settles.bind {p : PortProgram α} {k : α → PortProgram β} {a : α} {r : Except Handoff β}
    (first : Settles provider inv p (.ok a)) (rest : Settles provider inv (k a) r) :
    Settles provider inv (p >>= k) r := by
  intro past holds
  obtain ⟨between, ends, still⟩ := first past holds
  obtain ⟨later, ends', still'⟩ := rest between still
  refine ⟨later, ?_, still'⟩
  rw [play_bind, ends]
  exact ends'

theorem Settles.require {c : Prop} [Decidable c] {reason : String} (h : c) :
    Settles provider inv (require c reason) (.ok ()) := by
  intro past holds
  refine ⟨past, ?_, holds⟩
  rw [play_require, if_pos h]

theorem Settles.clock {now : Moment}
    (kept : ∀ past answer, inv past → inv (⟨.clock, .ok answer⟩ :: past))
    (answer : ∀ past, inv past → provider past .clock = now) :
    Settles provider inv readClock (.ok now) := by
  intro past holds
  refine ⟨_, ?_, kept past (provider past .clock) holds⟩
  rw [← answer past holds]
  rfl

theorem Settles.http {c : HttpCall} {r : Except Handoff Json} (route : validRoute c = true)
    (kept : ∀ past answer, inv past → inv (⟨.http c, .ok answer⟩ :: past))
    (answer : ∀ past, inv past → received c (provider past (.http c)) = r) :
    Settles provider inv (portRequest c) r := by
  intro past holds
  refine ⟨_, ?_, kept past (provider past (.http c)) holds⟩
  unfold portRequest
  rw [play_bind, play_require, if_pos route]
  dsimp only
  rw [play_bind, ← answer past holds]
  show (Program.ofExcept (received c (provider past (.http c)))).eval _ _ = _
  cases received c (provider past (.http c)) with
  | ok v => rfl
  | error e => rfl

theorem Settles.handle {p : PortProgram α} {h : Handoff → PortProgram α} {a : α}
    (body : Settles provider inv p (.ok a)) : Settles provider inv (p.handle h) (.ok a) := by
  intro past holds
  obtain ⟨later, ends, still⟩ := body past holds
  refine ⟨later, ?_, still⟩
  rw [play_handle, ends]

theorem Settles.raised {x : Except Raised α} {a : α} (h : x = .ok a) :
    Settles provider inv (fromRaised x) (.ok a) := by
  rw [h]
  exact .of_outcome (.ok a)

/-! ### Single steps -/

theorem play_after {p : PortProgram α} {k : α → PortProgram β} {a : α}
    {t : List PortEvent} (h : provider.play p past = (.ok a, t)) :
    provider.play (p >>= k) past = provider.play (k a) t := by
  rw [play_bind, h]

theorem play_stops {p : PortProgram α} {k : α → PortProgram β} {e : Handoff}
    {t : List PortEvent} (h : provider.play p past = (.error e, t)) :
    provider.play (p >>= k) past = (.error e, t) := by
  rw [play_bind, h]

theorem play_required {c : Prop} [Decidable c] (reason : String)
    (h : c) : provider.play (require c reason) past = (.ok (), past) := by
  rw [play_require, if_pos h]

/-- A connection that fails is reported as a result that is uncertain. -/
theorem play_failed {c : HttpCall} (route : validRoute c = true)
    (fails : provider past (.http c) = .failed) : provider.play (portRequest c) past =
      (.error (.port "github_result_uncertain"), ⟨.http c, .ok .failed⟩ :: past) := by
  refine (play_after (play_required _ route)).trans ?_
  show (Program.ofExcept (received c (provider past (.http c)))).eval _
    (⟨.http c, .ok (provider past (.http c))⟩ :: past) = _
  rw [fails]
  rfl

end Play

/-! ### Publication -/

section Publish

variable {it : Interpreter} {cas : IssueRagReceiptCas} {provider : Provider} {past : List PortEvent}
  {s : Sealed}

/-- The exceptions of a write that `publish` raises again. -/
def Reraised (e : Handoff) : Prop := ∃ reason, e.reason? = some reason ∧ reason ≠ readbackRequired

theorem play_tryWrite {write : Except Handoff String} {t : List PortEvent}
    (written : provider.play (cas.writer.putObject it s.put) past = (write, t)) :
    (∃ e, write = .error e ∧ Reraised e ∧ provider.play (cas.tryWrite it s) past = (.error e, t)) ∨
    (∀ e, write = .error e → ¬ Reraised e) ∧
      ∃ writeError, provider.play (cas.tryWrite it s) past = (.ok writeError, t) := by
  unfold IssueRagReceiptCas.tryWrite
  rw [play_handle, play_bind, written]
  cases write with
  | ok tag => exact .inr ⟨fun _ raised => (nomatch raised), false, rfl⟩
  | error e =>
    cases text : e.reason? with
    | none =>
      refine .inr ⟨?_, true, ?_⟩
      · rintro _ ⟨⟩ ⟨reason, found, -⟩
        rw [text] at found
        cases found
      · simp only [text]
        rfl
    | some reason =>
      by_cases asks : reason = readbackRequired
      · refine .inr ⟨?_, true, ?_⟩
        · rintro _ ⟨⟩ ⟨other, found, ne⟩
          rw [text] at found
          exact ne ((Option.some.inj found).symm.trans asks)
        · simp only [text, asks, if_true]
          rfl
      · refine .inl ⟨e, rfl, ⟨reason, text, asks⟩, ?_⟩
        simp only [text, if_neg asks]
        rfl

/-- What is read back decides, whatever the write raised. -/
theorem play_confirm (writeError : Bool) :
    ((provider.play (cas.confirm it s writeError) past).1 = .ok (receiptArtifact s.digest) ↔
      (provider.play (cas.read it s.key) past).1 = .ok s.raw) ∧
    (provider.play (cas.confirm it s writeError) past).2 = (provider.play (cas.read it s.key) past).2 := by
  unfold IssueRagReceiptCas.confirm
  rw [play_bind, play_handle]
  cases provider.play (cas.read it s.key) past with
  | mk r t =>
    cases r with
    | error e =>
      dsimp only
      cases e.reason? with
      | some reason => exact ⟨⟨fun h => (nomatch h), fun h => (nomatch h)⟩, rfl⟩
      | none => exact ⟨⟨fun h => (nomatch h), fun h => (nomatch h)⟩, rfl⟩
    | ok observed =>
      dsimp only
      rw [play_bind, play_require]
      by_cases same : observed = s.raw
      · rw [if_pos same, same]
        exact ⟨⟨fun _ => rfl, fun _ => rfl⟩, rfl⟩
      · rw [if_neg same]
        exact ⟨⟨fun h => (nomatch h), fun h => absurd (Except.ok.inj h) same⟩, rfl⟩

/-- A readback asks for something. -/
theorem play_read_later (key : String) : (provider.play (cas.read it key) past).2 ≠ past := by
  obtain ⟨k, asks⟩ : ∃ k, cas.read it key = .ask .clock k := ⟨_, rfl⟩
  have only := read_only it cas key
  rw [asks] at only ⊢
  obtain ⟨later, grown, -⟩ := @Only.later _ _ _ _ (fun past q => .ok (provider past q))
    (⟨.clock, .ok (provider past .clock)⟩ :: past) _ _ (only.ask.2 (.ok (provider past .clock)))
  intro same
  have lengths := congrArg List.length (grown.symm.trans same)
  simp only [List.length_append, List.length_cons] at lengths
  omega

theorem publish_writes (t : ReceiptTask) (receipt : Json) (independentRead : SourceRead) :
    WritesAtMost provider 1 (cas.publish it t receipt independentRead) := by
  refine .after (prepare_quiet it cas t receipt independentRead).only fun s => ?_
  refine .bind (m := 1) (n := 0) (fun past => ?_) fun writeError => .of_only ?_
  · have once : (provider.play (cas.writer.putObject it s.put) past).2.countP isPut ≤ past.countP isPut + 1 :=
      putObject_writes it cas.writer s.put past
    cases written : provider.play (cas.writer.putObject it s.put) past with
    | mk write t =>
      rw [written] at once
      rcases play_tryWrite written with ⟨e, -, -, ends⟩ | ⟨-, writeError, ends⟩
      · rw [ends]
        exact once
      · rw [ends]
        exact once
  · refine .bind (.handle (read_only it cas s.key) fun e => ?_) fun _ => .bind (.need _ _) fun _ => .pure _
    split
    · exact .raise _
    · exact .raise _

/-- After its preparation, `publish` either raises what its write raised or goes by the readback. -/
theorem play_publish {t : ReceiptTask} {receipt : Json} {independentRead : SourceRead}
    (prepared : provider.play (cas.prepare it t receipt independentRead) [] = (.ok s, past))
    {write : Except Handoff String} {t' : List PortEvent}
    (written : provider.play (cas.writer.putObject it s.put) past = (write, t')) :
    (∃ e, write = .error e ∧ Reraised e ∧
      provider.play (cas.publish it t receipt independentRead) [] = (.error e, t')) ∨
    (∀ e, write = .error e → ¬ Reraised e) ∧ ∃ writeError,
      provider.play (cas.publish it t receipt independentRead) [] =
        provider.play (cas.confirm it s writeError) t' := by
  unfold IssueRagReceiptCas.publish
  rw [play_bind, prepared]
  dsimp only
  rw [play_bind]
  rcases play_tryWrite written with ⟨e, raised, again, ends⟩ | ⟨other, writeError, ends⟩
  · rw [ends]
    exact .inl ⟨e, raised, again, rfl⟩
  · rw [ends]
    exact .inr ⟨other, writeError, rfl⟩

/-- A write whose exception is none of the port and is raised again was rejected. -/
theorem rejected_of_reraised {e : Handoff} (again : Reraised e)
    (other : portReason? (.error e : Except Handoff String) = none) : Rejected (.error e) := by
  obtain ⟨reason, text, ne⟩ := again
  cases e with
  | port text' => cases other
  | blocked text' =>
    cases text
    exact ⟨reason, rfl, ne⟩
  | alreadyExists | error => cases text

end Publish

/-! ### A sample -/

namespace Sample

def asciiBytes (text : String) : Bytes := text.toList.map fun c => UInt8.ofNat c.toNat

def sourceText : Bytes := asciiBytes "The current code requires 42 cases.\n"

def someDigest : String := modelDigestPrefix ++ String.ofList (List.replicate 52 '0')

def sourceDigest : String := Sha256.hexdigestOfBytes sourceText

def sourceBlob : String := Sha1.gitBlob sourceText

def sourceOf (sha blob : String) : Json := .obj [("path", .str "README.md"), ("ref_sha", .str commit),
  ("sha256", .str sha), ("blob_sha", .str blob), ("bytes", .int 36)]

def selectedOf (sha : String) : Json := .obj [
  ("path", .str "README.md"),
  ("line", .int 1),
  ("excerpt", .str "The current code requires 42 cases."),
  ("score", .int 3),
  ("untrusted_source_text", .bool true),
  ("source_sha256", .str sha),
  ("url", .str (citationUrl commit "README.md" 1))]

/-- All of a receipt for the only line of the source but its digest. -/
def restOf (asked sha blob : String) : List (String × Json) := [
  ("schema_version", .str "worker.rag.issue-context-v1"),
  ("repository", .str repo),
  ("issue_number", .int 7),
  ("request_id", .str binding.requestId),
  ("correlation_id", .str (issueName 7 commit)),
  ("head_sha", .str commit),
  ("base_sha", .str commit),
  ("question_sha256", .str asked),
  ("search_query_sha256", .arr [.str someDigest]),
  ("sources", .arr [sourceOf sha blob]),
  ("selected_reference", selectedOf sha),
  ("state", .str "supported"),
  ("model_calls", .int 2),
  ("model_digest", .str someDigest),
  ("model_process_verified", .bool true),
  ("issue_head_readback_stable", .bool true),
  ("execution_authorized", .bool false),
  ("state_changed", .bool false)]

def receiptRest : List (String × Json) := restOf (Sha256.hexdigest question) sourceDigest sourceBlob

def receiptDigest : String :=
  Sha256.hexdigest (String.ofList ((Json.obj receiptRest).dumps false interpreter.floatRepr))

def receiptOf (asked sha blob digest : String) : Json :=
  .obj (restOf asked sha blob ++ [("receipt_sha256", .str digest)])

def receipt : Json := receiptOf (Sha256.hexdigest question) sourceDigest sourceBlob receiptDigest

def readSource : SourceRead := fun _ _ => some sourceText

def contract : String := "08732a911dacc6633397794c3e9ed7ca38bbcac4821ada4a6675c3a84b066645"

def task : ReceiptTask where
  manifest := {
    schemaVersion := .int 1
    taskId := "cwp-0123456789abcdef01234567"
    repository := repo
    baseSha := commit
    workspaceSha := commit
    adapterId := profile
    adapterContractSha256 := contract
    beforeSha256 := [(sourcePath, someDigest)] }
  fence := ⟨1, "attempt-1"⟩
  effectId := "effect-1"

def citedOf (sha blob digest : String) : Citation where
  path := "README.md"
  line := 1
  excerpt := "The current code requires 42 cases."
  sourceSha256 := sha
  blobSha := blob
  size := 36
  url := citationUrl commit "README.md" 1
  modelDigest := someDigest
  modelCalls := 2
  receiptSha256 := digest

def cited : Citation := citedOf sourceDigest sourceBlob receiptDigest

def verified : BoundIssueRag := cited.bound binding

def taskValue : Json := taskBindingValue binding task.manifest task.fence task.effectId someDigest

def envelopeOf (asked sha blob digest : String) : Json :=
  receiptEnvelope taskValue ((citedOf sha blob digest).bound binding) (receiptOf asked sha blob digest)

def envelope : Json := envelopeOf (Sha256.hexdigest question) sourceDigest sourceBlob receiptDigest

/-- What the publication of the receipt writes. -/
def written : Sealed :=
  let raw := (envelope.dumps true interpreter.floatRepr).map fun c => UInt8.ofNat c.toNat
  ⟨raw, casKey "issue-rag-v1" "context" (Sha256.hexdigestOfBytes raw)⟩

def client (port : Nat) : GitHubObjectCas := ⟨port, binding, by decide⟩

def cas : IssueRagReceiptCas := ⟨client 1, client 2, binding, true, by decide, rfl, rfl⟩

def answered (status : Nat) (v : Json) : Transport := .response ⟨true, status, 0, true, .value v⟩

def issueJson : Json := (github.getIssue 7).toOption.getD .null

def commentJson : Json := (github.getComment 9).toOption.getD .null

def branchJson (name : String) : Json := .obj [("name", .str name), ("commit", .obj [("sha", .str commit)])]

/-- What is read of the repository, with an object of the store if it is there. -/
def page (stored : Bool) (c : HttpCall) : Transport :=
  if c.query = [] then
    if c.tail = "/issues/7" then answered 200 issueJson
    else if c.tail = "/issues/comments/9" then answered 200 commentJson
    else if c.tail = "/branches/" ++ quote [] "main" then answered 200 (branchJson "main")
    else answered 200 (branchJson (client 1).branch)
  else if stored then answered 200 (fileJson (evidencePath written.key) written.raw)
  else answered 404 .null

/-- Every connection of a write fails. -/
def github' (stored : List PortEvent → Bool) : Provider := fun past q =>
  match q with
  | .clock => request.now
  | .http c => if c.method = .put then .failed else page (stored past) c

end Sample

theorem sample_receiptBound : receiptBound Sample.binding Sample.receipt = .ok () := by
  have request : isIssueRequest Sample.binding.requestId = true := isIssueRequest_of (Sha256.hexdigest_hexRun _)
  have correlation : isIssueCorrelation Sample.binding.correlationId = true := by decide
  have base : isSha40 Sample.binding.baseSha = true := by decide
  have positive : 0 < Sample.binding.number := by decide
  have keys : Sample.receipt.sameKeys? receiptFields = some true := by rfl
  have number : item "issue_number" Sample.receipt = .int 7 := rfl
  have schema : item "schema_version" Sample.receipt = .str "worker.rag.issue-context-v1" := rfl
  have repository : item "repository" Sample.receipt = .str repo := rfl
  have requestId : item "request_id" Sample.receipt = .str Sample.binding.requestId := rfl
  have headSha : item "head_sha" Sample.receipt = .str Sample.commit := rfl
  have baseSha : item "base_sha" Sample.receipt = .str Sample.commit := rfl
  have correlationId : item "correlation_id" Sample.receipt = .str (issueName 7 Sample.commit) := rfl
  have asked : item "question_sha256" Sample.receipt = .str (Sha256.hexdigest question) := rfl
  have state : item "state" Sample.receipt = .str "supported" := rfl
  have model : item "model_process_verified" Sample.receipt = .bool true := rfl
  have stable : item "issue_head_readback_stable" Sample.receipt = .bool true := rfl
  have execution : item "execution_authorized" Sample.receipt = .bool false := rfl
  have changed : item "state_changed" Sample.receipt = .bool false := rfl
  have texts : textsAre Sample.receipt [
      ("schema_version", "worker.rag.issue-context-v1"), ("repository", repo),
      ("request_id", Sample.binding.requestId), ("head_sha", Sample.binding.baseSha),
      ("base_sha", Sample.binding.baseSha), ("correlation_id", Sample.binding.correlationId),
      ("question_sha256", Sha256.hexdigest question), ("state", "supported")] = true := by
    have sha : Sample.binding.baseSha = Sample.commit := rfl
    have name : Sample.binding.correlationId = issueName 7 Sample.commit := rfl
    simp only [textsAre, List.all_cons, List.all_nil, schema, repository, requestId, headSha, baseSha,
      correlationId, asked, state, sha, name, Json.isStr, beq_self_eq_true, Bool.and_true]
  unfold receiptBound
  simp only [need, positive, base, request, correlation, keys, number, texts, model, stable, execution,
    changed, and_self, if_true]
  rfl

theorem sample_modelAttestation :
    modelAttestation Sample.receipt = .ok (Sample.someDigest, 2) := by
  have model : item "model_digest" Sample.receipt = .str Sample.someDigest := rfl
  have calls : item "model_calls" Sample.receipt = .int 2 := rfl
  have bounds : 2 ≤ (2 : Int) ∧ (2 : Int) ≤ maxModelCalls ∧ isSha256 Sample.someDigest = true ∧
      prefixOf 12 Sample.someDigest = modelDigestPrefix := by decide
  unfold modelAttestation
  simp only [model, calls, Json.str?, Json.int?, need, if_pos bounds]
  rfl

theorem sample_queryEvidence : queryEvidence Sample.receipt = .ok () := by
  have searches : item "search_query_sha256" Sample.receipt = .arr [.str Sample.someDigest] := rfl
  have bounds : 1 ≤ [Json.str Sample.someDigest].length ∧ [Json.str Sample.someDigest].length ≤ maxSources ∧
      [Json.str Sample.someDigest].all (·.isText isSha256) = true := by decide
  unfold queryEvidence
  simp only [searches, need, if_pos bounds]

theorem sample_receiptIntegrity :
    receiptIntegrity Sample.interpreter Sample.receipt = .ok Sample.receiptDigest := by
  have rest : receiptContent Sample.receipt = .obj Sample.receiptRest := rfl
  have printable : (Json.obj Sample.receiptRest).Everywhere Printable := by
    simp [Sample.receiptRest, Sample.restOf, Sample.sourceOf, Sample.selectedOf, Json.everywhere_obj,
      Json.everywhere_arr, Printable]
    decide
  refine receiptIntegrity_of rfl (Sha256.hexdigest_hexRun _) ?_
  rw [rest]
  unfold contentDigest Sample.receiptDigest
  rw [if_pos printable]

/-- A citation of the line, whatever the digests of its source are. -/
theorem sample_citedLine (sha : String) : citedLine (Sample.selectedOf sha) =
    .ok ("README.md", 1, "The current code requires 42 cases.") := by
  have bounds : "README.md" ∈ allowedSources ∧ (1 : Int) ≤ 1 ∧ (1 : Int) ≤ 4096 ∧
      1 ≤ "The current code requires 42 cases.".length ∧
      "The current code requires 42 cases.".length ≤ maxLine ∧ (1 : Int) ≤ 3 ∧ (3 : Int) ≤ 24 ∧
      (Json.bool true).isTrue = true := by decide
  have path : item "path" (Sample.selectedOf sha) = .str "README.md" := rfl
  have line : item "line" (Sample.selectedOf sha) = .int 1 := rfl
  have excerpt : item "excerpt" (Sample.selectedOf sha) =
      .str "The current code requires 42 cases." := rfl
  have score : item "score" (Sample.selectedOf sha) = .int 3 := rfl
  have marked : item "untrusted_source_text" (Sample.selectedOf sha) = .bool true := rfl
  unfold citedLine
  simp only [path, line, excerpt, score, marked, Json.str?, Json.int?, need_of bounds, ok_bind]
  rfl

theorem sample_matchingSource (sha blob : String) :
    matchingSource Sample.binding "README.md" [Sample.sourceOf sha blob] = .ok (Sample.sourceOf sha blob) := by
  have path : item "path" (Sample.sourceOf sha blob) = .str "README.md" := rfl
  have ref : item "ref_sha" (Sample.sourceOf sha blob) = .str Sample.commit := rfl
  have base : Sample.binding.baseSha = Sample.commit := rfl
  have allowed : (Json.str "README.md").inTexts? allowedSources = some true := by decide
  have all : allAllowed Sample.commit [Sample.sourceOf sha blob] = .ok true := by
    simp only [allAllowed, path, ref, allowed, orError, Json.isStr, beq_self_eq_true, Bool.and_self,
      if_true, ok_bind]
  unfold matchingSource
  simp only [List.filter_cons, List.filter_nil, path, ref, base, Json.isStr, beq_self_eq_true,
    Bool.and_self, if_true, all, ok_bind]
  rfl

theorem sample_sourceDigests {sha blob : String} (hex : isSha256 sha = true) (hex' : isSha40 blob = true) :
    sourceDigests (Sample.selectedOf sha) (Sample.sourceOf sha blob) = .ok (sha, blob, 36) := by
  have names : item "sha256" (Sample.sourceOf sha blob) = .str sha := rfl
  have blobs : item "blob_sha" (Sample.sourceOf sha blob) = .str blob := rfl
  have bytes : item "bytes" (Sample.sourceOf sha blob) = .int 36 := rfl
  have again : item "source_sha256" (Sample.selectedOf sha) = .str sha := rfl
  have bounds : isSha256 sha = true ∧ isSha40 blob = true ∧ (sha == sha) = true ∧ (0 : Int) < 36 ∧
      (36 : Int) ≤ ragMaxBytes := ⟨hex, hex', beq_self_eq_true _, by decide⟩
  unfold sourceDigests
  simp only [names, blobs, bytes, again, Json.str?, Json.int?, Json.isStr, need_of bounds, ok_bind]
  rfl

theorem sample_receiptSources {receipt : Json} {sha blob : String}
    (sources : item "sources" receipt = .arr [Sample.sourceOf sha blob])
    (selected : item "selected_reference" receipt = Sample.selectedOf sha) :
    receiptSources receipt = .ok [Sample.sourceOf sha blob] := by
  have bounds : 1 ≤ [Sample.sourceOf sha blob].length ∧ [Sample.sourceOf sha blob].length ≤ maxSources ∧
      [Sample.sourceOf sha blob].all Json.isObj = true ∧ (Sample.selectedOf sha).isObj = true :=
    ⟨Nat.le_refl 1, Nat.le_succ 1, rfl, rfl⟩
  unfold receiptSources
  simp only [sources, selected, need_of bounds, ok_bind]
  rfl

theorem sample_sourceBlob : isSha40 Sample.sourceBlob = true := by decide +kernel

theorem sample_citation :
    citation Sample.interpreter Sample.binding Sample.receipt = .ok Sample.cited := by
  have selected : item "selected_reference" Sample.receipt = Sample.selectedOf Sample.sourceDigest := rfl
  have sources := @sample_receiptSources Sample.receipt Sample.sourceDigest Sample.sourceBlob rfl rfl
  have sha : isSha256 Sample.sourceDigest = true := Sha256.hexdigestOfBytes_hexRun _
  have blob := sample_sourceBlob
  have url : (item "url" (Sample.selectedOf Sample.sourceDigest)).isStr
      (citationUrl Sample.binding.baseSha "README.md" 1) = true := beq_self_eq_true _
  unfold citation
  simp only [sample_receiptBound, sample_queryEvidence, sample_modelAttestation, sample_receiptIntegrity,
    sources, selected, sample_citedLine, sample_matchingSource, sample_sourceDigests sha blob,
    need_of url, ok_bind]
  rfl

theorem sample_confirmSource : confirmSource Sample.cited Sample.sourceText = .ok () := by
  have size : 0 < Sample.sourceText.length ∧ Sample.sourceText.length ≤ ragMaxBytes := by decide
  have digests : Sha256.hexdigestOfBytes Sample.sourceText = Sample.cited.sourceSha256 ∧
      Sha1.gitBlob Sample.sourceText = Sample.cited.blobSha ∧
      (Sample.sourceText.length : Int) = Sample.cited.size := ⟨rfl, rfl, by decide⟩
  have read : (decodeUtf8 Sample.sourceText).map (fun text =>
      ((splitLines [] text.toList)[0]?).map quotedLine) =
      some (some "The current code requires 42 cases.") := by decide
  obtain ⟨text, decoded, line⟩ := Option.map_eq_some_iff.mp read
  have quoted : ((splitLines [] text.toList)[(Sample.cited.line - 1).toNat]?).map quotedLine =
      some Sample.cited.excerpt := line
  unfold confirmSource
  simp only [need_of size, need_of digests, decoded, need_of quoted, ok_bind]

theorem sample_bindIssueRag :
    bindIssueRag Sample.interpreter Sample.binding Sample.receipt Sample.readSource = .ok Sample.verified := by
  have read : Sample.readSource Sample.cited.path Sample.binding.baseSha = some Sample.sourceText := rfl
  unfold bindIssueRag
  simp only [sample_citation, read, sample_confirmSource, ok_bind]
  rfl

theorem sample_taskBinding : taskBinding Sample.interpreter Sample.binding Sample.task.manifest
    Sample.task.fence Sample.task.effectId = .ok Sample.taskValue := by
  have contract : issueDescriptor.contractSha256 Sample.interpreter = .ok Sample.contract := by
    have found : (issueDescriptor.contractSha256 Sample.interpreter).toOption = some Sample.contract := by
      decide +kernel
    cases contract : issueDescriptor.contractSha256 Sample.interpreter with
    | error e =>
      rw [contract] at found
      cases found
    | ok text =>
      rw [contract] at found
      exact congrArg Except.ok (Option.some.inj found)
  have same : Sample.task.manifest.repository = repo ∧ Sample.task.manifest.adapterId = profile ∧
      Sample.task.manifest.adapterContractSha256 = Sample.contract ∧
      Sample.task.manifest.baseSha = Sample.binding.baseSha ∧
      Sample.task.manifest.workspaceSha = Sample.binding.baseSha := ⟨rfl, rfl, rfl, rfl, rfl⟩
  have before : sourceHash? Sample.task.manifest = some Sample.someDigest := by decide
  have fence : 1 ≤ Sample.task.fence.generation ∧ isSafeId Sample.task.fence.attemptId = true ∧
      isSafeId Sample.task.effectId = true := by decide
  unfold taskBinding
  simp only [contract, need_of same, before, need_of fence, ok_bind]
  rfl

theorem sample_width {asked sha blob digest : String} (lengths : asked.length = 64 ∧ sha.length = 64 ∧
    blob.length = 40 ∧ digest.length = 64) : Json.width Sample.interpreter.floatRepr
      (Sample.envelopeOf asked sha blob digest) ≤ maxReceiptBytes := by
  obtain ⟨asked_length, sha_length, blob_length, digest_length⟩ := lengths
  simp only [Sample.envelopeOf, receiptEnvelope, sourceValue, Citation.bound, Sample.citedOf, Sample.receiptOf, Sample.restOf,
    Sample.sourceOf, Sample.selectedOf, Json.width, Json.widthOfFields, Json.widthOfItems,
    List.cons_append, List.nil_append, asked_length, sha_length, blob_length, digest_length]
  decide +kernel

theorem sample_envelope_width :
    Json.width Sample.interpreter.floatRepr Sample.envelope ≤ maxReceiptBytes :=
  sample_width ⟨length_of_hexRun (Sha256.hexdigest_hexRun _),
    length_of_hexRun (Sha256.hexdigestOfBytes_hexRun _), length_of_hexRun sample_sourceBlob,
    length_of_hexRun (Sha256.hexdigest_hexRun _)⟩

theorem sample_writable (asked sha blob digest : String) :
    (Sample.envelopeOf asked sha blob digest).Everywhere Writable ∧
      (Sample.envelopeOf asked sha blob digest).Everywhere
        (Json.FloatsAscii Sample.interpreter.floatRepr) := by
  simp [Sample.envelopeOf, receiptEnvelope, Sample.taskValue, taskBindingValue, sourceValue,
    Sample.receiptOf, Sample.restOf, Sample.sourceOf, Sample.selectedOf, Json.everywhere_obj,
    Json.everywhere_arr, Writable, Json.FloatsAscii, Citation.bound, Sample.citedOf]
  decide

theorem sample_receiptCanonical :
    receiptCanonical Sample.interpreter Sample.envelope = .ok Sample.written.raw := by
  obtain ⟨writable, floats⟩ := sample_writable (Sha256.hexdigest question) Sample.sourceDigest
    Sample.sourceBlob Sample.receiptDigest
  exact receiptCanonical_writes writable floats

theorem sample_size : 0 < Sample.written.raw.length ∧ Sample.written.raw.length ≤ maxReceiptBytes := by
  have length : Sample.written.raw.length =
      (Sample.envelope.dumps true Sample.interpreter.floatRepr).length := List.length_map _
  rw [length]
  exact ⟨Json.dumps_obj_pos _ _ _, Nat.le_trans (Json.length_dumps _) sample_envelope_width⟩

theorem sample_receiptKey :
    receiptKey (Sha256.hexdigestOfBytes Sample.written.raw) = .ok Sample.written.key := by
  have hex : isSha256 (Sha256.hexdigestOfBytes Sample.written.raw) = true :=
    Sha256.hexdigestOfBytes_hexRun _
  unfold receiptKey
  simp only [need_of hex, ok_bind]
  rfl

theorem written_named : Sample.written.Named := rfl

section Served

variable {stored : List PortEvent → Bool} {b : Bool}

/-- Only a write changes what is stored. -/
def Steady (stored : List PortEvent → Bool) : Prop :=
  ∀ past q a, writes q = false → stored (⟨q, .ok a⟩ :: past) = stored past

theorem serves_clock (steady : Steady stored) :
    Settles (Sample.github' stored) (stored · = b) readClock (.ok Sample.request.now) :=
  .clock (fun past answer holds => (steady past _ answer rfl).trans holds) fun _ _ => rfl

theorem serves_get (steady : Steady stored) {c : HttpCall} {r : Except Handoff Json} (get : c.method = .get)
    (route : validRoute c = true) (answer : received c (Sample.page b c) = r) :
    Settles (Sample.github' stored) (stored · = b) (portRequest c) r := by
  have reads : writes (.http c) = false := by simp [writes, get]
  refine .http route (fun past answer holds => (steady past _ answer reads).trans holds) fun past holds => ?_
  have not_put : c.method ≠ .put := by simp [get]
  rw [← answer, ← holds]
  exact congrArg (received c) (if_neg not_put)

theorem validRoute_of_tail {c : HttpCall} (tail : String) (same : c.tail = tail)
    (valid : validRoute { port := 0, method := .get, tail } = true) : validRoute c = true := by
  unfold validRoute at valid ⊢
  rw [same]
  exact valid

theorem sample_admitted : admitBinding Sample.interpreter Sample.issueJson Sample.commentJson
    (Sample.branchJson "main") Sample.commit Sample.request.now.isoformat Sample.request.now.reading =
      .ok Sample.binding := by
  have found : (admitBinding Sample.interpreter Sample.issueJson Sample.commentJson
      (Sample.branchJson "main") Sample.commit Sample.request.now.isoformat
      Sample.request.now.reading).toOption = some Sample.binding := by decide +kernel
  cases admitted : admitBinding Sample.interpreter Sample.issueJson Sample.commentJson
      (Sample.branchJson "main") Sample.commit Sample.request.now.isoformat Sample.request.now.reading with
  | error e =>
    rw [admitted] at found
    cases found
  | ok b =>
    rw [admitted] at found
    exact congrArg Except.ok (Option.some.inj found)

theorem serves_authorized (steady : Steady stored) (port : Nat) :
    Settles (Sample.github' stored) (stored · = b)
      ((Sample.client port).authorized Sample.interpreter) (.ok ()) := by
  have main : Settles (Sample.github' stored) (stored · = b) (getBranch port "main")
      (.ok (Sample.branchJson "main")) :=
by
    refine .bind (.require (.inl rfl)) (serves_get steady rfl
      (validRoute_of_tail ("/branches/" ++ quote [] "main") rfl (by decide +kernel)) ?_)
    have other : "/branches/" ++ quote [] "main" ≠ "/issues/7" ∧
        "/branches/" ++ quote [] "main" ≠ "/issues/comments/9" := by decide
    simp only [Sample.page, if_true, if_neg other.1, if_neg other.2]
    rfl
  have issue : Settles (Sample.github' stored) (stored · = b) (getIssue port 7)
      (.ok Sample.issueJson) :=
    .bind (.require (by decide)) (serves_get steady rfl
      (validRoute_of_tail "/issues/7" rfl (by decide)) rfl)
  have comment : Settles (Sample.github' stored) (stored · = b) (getComment port 9)
      (.ok Sample.commentJson) :=
    .bind (.require (by decide)) (serves_get steady rfl
      (validRoute_of_tail "/issues/comments/9" rfl (by decide)) rfl)
  have current : Settles (Sample.github' stored) (stored · = b)
      (fromRaised (admitBinding Sample.interpreter Sample.issueJson Sample.commentJson
        (Sample.branchJson "main") Sample.commit Sample.request.now.isoformat
        Sample.request.now.reading)) (.ok Sample.binding) := by
    rw [sample_admitted]
    exact .of_outcome (.ok Sample.binding)
  exact .bind (serves_clock steady) (.bind main (.bind (.require rfl) (.bind issue (.bind comment
    (.bind current (.require rfl))))))

theorem serves_head (steady : Steady stored) (port : Nat) :
    Settles (Sample.github' stored) (stored · = b) (Sample.client port).head (.ok (some Sample.commit)) := by
  have valid : isBranch (Sample.client 1).branch (Sample.branchJson (Sample.client 1).branch) = true := by
    decide
  refine .bind (a := Sample.branchJson (Sample.client 1).branch) (serves_get steady rfl
    (validRoute_of_tail ("/branches/" ++ quote [] (Sample.client 1).branch) rfl (by decide +kernel)) ?_) ?_
  · have other : "/branches/" ++ quote [] (Sample.client 1).branch ≠ "/issues/7" ∧
        "/branches/" ++ quote [] (Sample.client 1).branch ≠ "/issues/comments/9" ∧
        "/branches/" ++ quote [] (Sample.client 1).branch ≠ "/branches/" ++ quote [] "main" := by
      decide +kernel
    have same : (Sample.client port).branch = (Sample.client 1).branch := rfl
    simp only [Sample.page, same, if_true, if_neg other.1, if_neg other.2.1, if_neg other.2.2]
    rfl
  · exact .bind (.require valid) (.of_outcome (.ok (some Sample.commit)))

theorem serves_ensureBranch (steady : Steady stored) (port : Nat) :
    Settles (Sample.github' stored) (stored · = b) (Sample.client port).ensureBranch (.ok 0) := by
  refine .bind (serves_head steady port) ?_
  have none_ahead : (Sample.client port).countFrom Sample.commit = Program.done 0 := if_pos rfl
  show Settles _ _ ((Sample.client port).countFrom Sample.commit) _
  rw [none_ahead]
  exact .of_outcome (.ok 0)

def Sample.contentsCall (port : Nat) : HttpCall where
  port := port
  method := .get
  tail := "/contents/" ++ evidencePath Sample.written.key
  query := [("ref", (Sample.client port).branch)]
  missingOk := true

theorem serves_get_contents (steady : Steady stored) (port : Nat) :
    Settles (Sample.github' stored) (stored · = b)
      ((Sample.client port).get (evidencePath Sample.written.key))
      (.ok (if b then some Sample.written.raw else none)) := by
  obtain ⟨nonempty, bound⟩ := sample_size
  have fits : Sample.written.raw.length ≤ casMaxBytes :=
    Nat.le_trans bound (by decide)
  have page : Sample.page b (Sample.contentsCall port) =
      if b then Sample.answered 200 (fileJson (evidencePath Sample.written.key) Sample.written.raw)
      else Sample.answered 404 .null := if_neg (List.cons_ne_nil _ _)
  have route : validRoute (Sample.contentsCall port) = true :=
    validRoute_named written_named rfl
  cases b with
  | false =>
    refine .bind (a := .null) (serves_get steady rfl route ?_) (.of_outcome (.ok none))
    show received (Sample.contentsCall port) (Sample.page false (Sample.contentsCall port)) = _
    rw [page]
    rfl
  | true =>
    refine .bind (a := fileJson (evidencePath Sample.written.key) Sample.written.raw)
      (serves_get steady rfl route ?_) ?_
    · show received (Sample.contentsCall port) (Sample.page true (Sample.contentsCall port)) = _
      rw [page]
      rfl
    · have contents : fileContents (evidencePath Sample.written.key)
          (fileJson (evidencePath Sample.written.key) Sample.written.raw) = .ok Sample.written.raw :=
        fileContents_fileJson nonempty fits
      refine .bind (a := Sample.written.raw) ?_ (.of_outcome (.ok (some Sample.written.raw)))
      rw [contents]
      exact .of_outcome (.ok Sample.written.raw)

theorem serves_read (steady : Steady stored) : Settles (Sample.github' stored) (stored · = true)
    (Sample.cas.read Sample.interpreter Sample.written.key) (.ok Sample.written.raw) := by
  have checked : Settles (Sample.github' stored) (stored · = true)
      (liftM (checkedKey casBucket Sample.written.key) : PortProgram (String × String))
      (.ok (evidencePath Sample.written.key, Sample.written.digest)) := by
    rw [checkedKey_named written_named]
    exact .of_outcome (.ok (evidencePath Sample.written.key, Sample.written.digest))
  have whole : Sha256.hexdigestOfBytes Sample.written.raw = Sample.written.digest := rfl
  have object : Settles (Sample.github' stored) (stored · = true)
      ((Sample.client 2).getObject casBucket Sample.written.key) (.ok Sample.written.raw) := by
    refine .bind checked (.bind (serves_head steady 2) (.bind (.require rfl) ?_))
    exact .bind (serves_get_contents steady 2) (.bind (.require whole) (.of_outcome (.ok Sample.written.raw)))
  exact .handle (.bind (serves_authorized steady 2) (.bind object (.bind (.require sample_size)
    (.of_outcome (.ok Sample.written.raw)))))

theorem serves_prepare (steady : Steady stored) : Settles (Sample.github' stored) (stored · = b)
    (Sample.cas.prepare Sample.interpreter Sample.task Sample.receipt Sample.readSource)
    (.ok Sample.written) := by
  refine .bind (.require rfl) (.bind (.raised sample_taskBinding) (.bind (serves_authorized steady 1)
    (.bind (serves_authorized steady 2) (.bind (.raised sample_bindIssueRag) ?_))))
  exact .bind (.raised sample_receiptCanonical) (.bind (.require sample_size)
    (.bind (.raised sample_receiptKey) (.of_outcome (.ok Sample.written))))

/-- The write, if what is asked of the store before shows no object. -/
theorem serves_putObject (steady : Steady stored) (holds : stored past = false) :
    ∃ between, stored between = false ∧
      (Sample.github' stored).play ((Sample.client 1).putObject Sample.interpreter Sample.written.put) past =
        (.error (.port "github_result_uncertain"),
          ⟨.http ((Sample.client 1).putCall (evidencePath Sample.written.key)
            Sample.written.put.body), .ok .failed⟩ :: between) := by
  obtain ⟨nonempty, bound⟩ := sample_size
  have checked : Settles (Sample.github' stored) (stored · = false)
      (liftM (GitHubObjectCas.checkedPut Sample.written.put) : PortProgram String)
      (.ok (evidencePath Sample.written.key)) := by
    rw [checkedPut_named written_named nonempty bound]
    exact .of_outcome (.ok (evidencePath Sample.written.key))
  obtain ⟨p₁, ends₁, holds⟩ := checked past holds
  obtain ⟨p₂, ends₂, holds⟩ := serves_authorized steady 1 p₁ holds
  obtain ⟨p₃, ends₃, holds⟩ := serves_ensureBranch steady 1 p₂ holds
  obtain ⟨p₄, ends₄, holds⟩ := serves_get_contents steady 1 p₃ holds
  have no_object : (Sample.github' stored).play
      ((Sample.client 1).get (evidencePath Sample.written.key)) p₃ = (.ok none, p₄) := ends₄
  refine ⟨p₄, holds, ?_⟩
  have route : validRoute ((Sample.client 1).putCall (evidencePath Sample.written.key)
      Sample.written.put.body) = true := validRoute_named written_named rfl
  refine (play_after ends₁).trans ((play_after ends₂).trans ((play_after ends₃).trans
    ((play_after no_object).trans ?_)))
  exact (play_after (play_required _ (by decide))).trans (play_stops (play_failed route rfl))

end Served

theorem steady_isPut : Steady (·.any isPut) := by
  intro past q a reads
  simp [isPut, reads]

end WorkerPool.Issue
