import WorkerPool.Download
import WorkerPool.Lib.Service

/-!
# Writing to the artifact store

`_put_cas` asks for a conditional write, whose outcome it does not trust, and succeeds on what
it then reads back. The store serves any number of such calls at once.
-/

namespace WorkerPool

open Transition Threads Service

/-- The arguments of `put_object`. -/
structure PutObject where
  bucket : String
  key : String
  body : Bytes
  contentLength : Int
  contentType : String
  metadata : List (String × String)
  ifNoneMatch : Option String

inductive S3Request where
  | putObject (put : PutObject)
  | getObject (bucket key : String)

variable {σ : Type}

@[reducible] def S3Reply (σ : Type) : S3Request → Type
  | .putObject _ => Unit
  | .getObject _ _ => Response σ

abbrev S3Program (σ α : Type) : Type := Program Raised S3Request (S3Reply σ) α

/-- `_download`. -/
def downloadKey (io : Streams σ) (config : S3ArtifactConfig) (key : String) : S3Program σ Bytes :=
  .ask (.getObject config.bucket key) fun reply => .ofExcept (download io config reply).1

def gitBundleContentType : String := "application/vnd.reqsys.git-bundle-v1"

/-- What `_put_cas` asks to be written. -/
def casObject (config : S3ArtifactConfig) (key : String) (value : Bytes) (digest : String) :
    PutObject where
  bucket := config.bucket
  key := key
  body := value
  contentLength := value.length
  contentType := gitBundleContentType
  metadata := [("sha256", digest), ("artifact-kind", artifactKind)]
  ifNoneMatch := some "*"

/-- The first half of `_put_cas`: whether the write raised an `Exception`. -/
def tryPut (put : PutObject) : S3Program σ Bool :=
  Program.handle (do let _ ← Program.request (.putObject put); pure false) fun
    | .fatal => .raise .fatal
    | _ => pure true

/-- The second half of `_put_cas`: what is read back decides. -/
def confirmPut (io : Streams σ) (config : S3ArtifactConfig) (key : String) (value : Bytes)
    (putFailed : Bool) : S3Program σ Unit := do
  let observed ← (downloadKey io config key).handle fun
    | .blocked _ => .raise (.blocked [.str "artifact_publish_ambiguous"])
    | e => .raise e
  Program.need (observed = value) (.blocked [.str
    (if putFailed then "artifact_cas_conflict" else "artifact_publish_ambiguous")])

/-- `_put_cas`. -/
def putCas (io : Streams σ) (config : S3ArtifactConfig) (key : String) (value : Bytes)
    (digest : String) : S3Program σ Unit := do
  let putFailed ← tryPut (casObject config key value digest)
  confirmPut io config key value putFailed

/-! ### The store -/

/-- The objects of the store, by bucket and key. -/
abbrev Objects : Type := String → String → Option Bytes

def Objects.put (s : Objects) (p : PutObject) : Objects := fun bucket key =>
  if bucket = p.bucket ∧ key = p.key then some p.body else s bucket key

/-- A write is applied or not, and a conditional one only where there is no object yet; a read
returns the object, or raises. Whatever is done, the caller may see any exception. -/
def s3Answers (pending : σ → Bytes) : Answers Objects Raised S3Request (S3Reply σ)
  | .putObject p, s, _, s' =>
    s' = s ∨ (p.ifNoneMatch = some "*" → s p.bucket p.key = none) ∧ s' = s.put p
  | .getObject bucket key, s, reply, s' => s' = s ∧ ∀ response, reply = .ok response →
    ∀ stream ∈ response.body, s bucket key = some (pending stream)

/-- Every object of the one state is one of the other. -/
def Objects.Grows (s t : Objects) : Prop := ∀ bucket key value,
  s bucket key = some value → t bucket key = some value

instance : Std.Refl Objects.Grows := ⟨fun _ _ _ _ stored => stored⟩

instance : IsTrans Objects Objects.Grows :=
  ⟨fun _ _ _ first second _ _ _ stored => second _ _ _ (first _ _ _ stored)⟩

/-- The arguments of a call of `_put_cas`. -/
structure PutCas where
  key : String
  value : Bytes
  digest : String

/-- Any number of `_put_cas` calls over one store. -/
def casPool (io : Streams σ) (pending : σ → Bytes) (config : S3ArtifactConfig) :
    System (World Objects Raised S3Request (S3Reply σ) Unit PutCas) (Label PutCas Empty) :=
  Service.system (fun _ => True) (s3Answers pending)
    (fun call => putCas io config call.key call.value call.digest) fun _ nobody _ => nobody.elim

variable {io : Streams σ} {pending : σ → Bytes} {config : S3ArtifactConfig}

theorem Objects.grows_put {s : Objects} {p : PutObject} (absent : s p.bucket p.key = none) :
    s.Grows (s.put p) := by
  intro bucket key value stored
  unfold Objects.put
  rw [if_neg]
  · exact stored
  · rintro ⟨rfl, rfl⟩
    rw [absent] at stored
    cases stored

/-- What is downloaded is the object that the store held then, and holds still. -/
theorem downloadKey_assures (delivers : io.Delivers pending) (key : String) (s : Objects) :
    Assures (s3Answers pending) Objects.Grows Objects.Grows
      (fun r t => ∀ value, r = .ok value → t config.bucket key = some value)
      (downloadKey io config key) s := by
  rintro t - reply u ⟨rfl, found⟩
  refine ⟨Std.Refl.refl _, .ofExcept fun v others value same => ?_⟩
  obtain ⟨declared, stream, rfl, rfl⟩ := download_eq_ok delivers same
  exact others _ _ _ (found _ rfl stream rfl)

/-- The write that is asked for replaces nothing, whatever becomes of it. -/
theorem casObject_grows {key digest : String} {value : Bytes} {s t : Objects}
    {r : Except Raised Unit} (answer : s3Answers pending (.putObject (casObject config key value digest)) s r t) :
    s.Grows t := by
  rcases answer with rfl | ⟨absent, rfl⟩
  · exact Std.Refl.refl _
  · exact Objects.grows_put (absent rfl)

theorem tryPut_assures {put : PutObject} {s : Objects}
    (grows : ∀ t r u, s3Answers pending (.putObject put) t r u → t.Grows u) :
    Assures (s3Answers pending) Objects.Grows Objects.Grows (fun r _ => ∀ e, r = .error e → e = .fatal)
      (tryPut put) s := by
  refine .handle (.bind (.request fun t _ r u answer => ⟨grows t r u answer, fun v _ => ?_⟩))
  cases r with
  | ok done =>
    intro w _ x _ e raised
    cases raised
  | error e =>
    intro w _
    cases e with
    | fatal => exact fun x _ e raised => (Except.error.inj raised).symm
    | blocked args => exact fun x _ e raised => nomatch raised
    | error => exact fun x _ e raised => nomatch raised

/-- The confirmation returns only where the value is stored, and from then on. -/
theorem confirmPut_assures (delivers : io.Delivers pending) (key : String) (value : Bytes)
    (putFailed : Bool) (s : Objects) :
    Assures (s3Answers pending) Objects.Grows Objects.Grows
      (fun r t => r = .ok () → t config.bucket key = some value)
      (confirmPut io config key value putFailed) s := by
  refine .bind (.handle ((downloadKey_assures delivers key s).mono fun r t held => ?_))
  cases r with
  | ok observed =>
    intro u grows
    have stored : u config.bucket key = some observed := grows _ _ _ (held observed rfl)
    refine .need (fun same v later _ => ?_) (fun _ v _ raised => nomatch raised)
    rw [← same]
    exact later _ _ _ stored
  | error e =>
    cases e <;>
    · intro u _ v _ raised
      cases raised

/-- A call that returns has its value stored, whatever its write did. -/
theorem putCas_assures (delivers : io.Delivers pending) (call : PutCas) (s : Objects) :
    Assures (s3Answers pending) Objects.Grows Objects.Grows
      (fun r t => r = .ok () → t config.bucket call.key = some call.value)
      (putCas io config call.key call.value call.digest) s := by
  refine .bind ((tryPut_assures fun t r u => casObject_grows).mono fun r t _ => ?_)
  cases r with
  | ok putFailed => exact confirmPut_assures delivers call.key call.value putFailed t
  | error e =>
    intro u _ raised
    cases raised

/-- A call that has returned. -/
def Returned (th : Thread Raised S3Request (S3Reply σ) Unit PutCas) : Prop := th.rest = .done ()

theorem casPool_grows (delivers : io.Delivers pending)
    {w w' : World Objects Raised S3Request (S3Reply σ) Unit PutCas}
    (h : (casPool io pending config).Reachable w) (steps : (casPool io pending config).Steps w w') :
    (∀ th ∈ w.threads, Returned th → w.shared config.bucket th.op.key = some th.op.value) ∧
      w.shared.Grows w'.shared := by
  obtain ⟨start, ⟨-, none_yet⟩, before⟩ := h
  have begun : ∀ th ∈ start.threads, Assures (s3Answers pending) Objects.Grows Objects.Grows
      (fun r t => r = .ok () → t config.bucket th.op.key = some th.op.value) th.rest start.shared := by
    intro th inside
    rw [none_yet] at inside
    cases inside
  obtain ⟨now, -⟩ := assured (putCas_assures delivers) (fun _ _ grows => grows)
    (fun _ nobody => nobody.elim) before begun
  obtain ⟨-, grows⟩ := assured (putCas_assures delivers) (fun _ _ grows => grows)
    (fun _ nobody => nobody.elim) steps now
  refine ⟨fun th inside returned => ?_, grows⟩
  have outcome := now th inside
  rw [returned] at outcome
  exact outcome w.shared (Std.Refl.refl _) rfl

/-- Whatever the writes do, a call that has returned finds its value stored from then on, no
object is ever replaced, and two calls on one key that return had one value. -/
theorem put_cas_immutable (delivers : io.Delivers pending)
    {w w' : World Objects Raised S3Request (S3Reply σ) Unit PutCas}
    (h : (casPool io pending config).Reachable w) (steps : (casPool io pending config).Steps w w') :
    (∀ th ∈ w.threads, Returned th → w.shared config.bucket th.op.key = some th.op.value ∧
      w'.shared config.bucket th.op.key = some th.op.value) ∧
    (∀ bucket key value, w.shared bucket key = some value → w'.shared bucket key = some value) ∧
    ∀ th ∈ w.threads, ∀ later ∈ w'.threads, Returned th → Returned later →
      th.op.key = later.op.key → th.op.value = later.op.value := by
  obtain ⟨stored, grows⟩ := casPool_grows delivers h steps
  obtain ⟨storedLater, -⟩ := casPool_grows delivers (h.steps steps) (.refl w')
  refine ⟨fun th inside returned => ?_, grows, fun th inside later inside' first second same => ?_⟩
  · have now := stored th inside returned
    exact ⟨now, grows _ _ _ now⟩
  · have one := grows _ _ _ (stored th inside first)
    have other := storedLater later inside' second
    rw [same, other] at one
    exact (Option.some.inj one).symm

namespace Sample

def putOne : PutCas := ⟨"one", [1], "digest"⟩

def storedOne : Objects :=
  Objects.put (fun _ _ => none) (casObject artifactConfig "one" [1] "digest")

/-- The write was applied, but raised; the value was read back. -/
def putWorld : World Objects Raised S3Request (S3Reply Bytes) Unit PutCas :=
  ⟨storedOne, [⟨putOne, [.getObject "artifacts" "one",
    .putObject (casObject artifactConfig "one" [1] "digest")], .done ()⟩]⟩

end Sample

theorem confirmPut_reads (key : String) {value : Bytes} {reply : Except Raised (Response σ)}
    (read : (download io config reply).1 = .ok value) (putFailed : Bool) :
    ∃ k, confirmPut io config key value putFailed = .ask (.getObject config.bucket key) k ∧
      k reply = .done () := by
  refine ⟨_, rfl, ?_⟩
  beta_reduce
  rw [read]
  exact if_pos rfl

theorem putWorld_reachable :
    (casPool (memoryStream 1) id Sample.artifactConfig).Reachable Sample.putWorld := by
  have read : (download (memoryStream 1) Sample.artifactConfig (.ok ⟨.int 1, some [1]⟩)).1 = .ok [1] := by
    rw [download_delivers (memory_delivers Nat.one_pos)]
    rfl
  obtain ⟨k, asks, done⟩ := confirmPut_reads "one" read true
  have called : (casPool (memoryStream 1) id Sample.artifactConfig).step ⟨fun _ _ => none, []⟩
      (.call Sample.putOne) _ := .call Sample.putOne
  have written : (casPool (memoryStream 1) id Sample.artifactConfig).step
      ⟨fun _ _ => none, [⟨Sample.putOne, [], putCas (memoryStream 1) Sample.artifactConfig "one" [1]
        "digest"⟩]⟩ (.run 0) _ :=
    .run rfl rfl (r := .error .error) (s := Sample.storedOne) (.inr ⟨fun _ => rfl, rfl⟩)
  have confirmed : (casPool (memoryStream 1) id Sample.artifactConfig).step ⟨Sample.storedOne,
      [⟨Sample.putOne, [.putObject (casObject Sample.artifactConfig "one" [1] "digest")],
        confirmPut (memoryStream 1) Sample.artifactConfig "one" [1] true⟩]⟩ (.run 0) _ :=
    .run rfl asks (r := .ok ⟨.int 1, some ([1] : Bytes)⟩) (s := Sample.storedOne)
      ⟨rfl, fun response same stream body => by cases same; cases body; rfl⟩
  rw [done] at confirmed
  exact ⟨_, ⟨trivial, rfl⟩, (((System.Steps.refl _).tail called).tail written).tail confirmed⟩

theorem put_cas_sample : Sample.putWorld.shared "artifacts" "one" = some [1] :=
  ((put_cas_immutable (memory_delivers Nat.one_pos) putWorld_reachable (.refl _)).1 _
    (List.mem_singleton.mpr rfl) rfl).1

end WorkerPool
