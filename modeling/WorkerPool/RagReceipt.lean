import WorkerPool.ArtifactRefusals
import WorkerPool.GitHubCas
import WorkerPool.RagHandoff

/-!
# Receipts in the store

`IssueRAGReceiptCAS` writes a receipt through one client and reads it back through another. What a
write raises does not say whether it wrote; `publish` goes by what it reads back, except where the
write was refused.
-/

namespace WorkerPool.Issue

open PyText

def ragKind : String := "issue_rag_context_v1"

def ragRefPrefix : String := "cas+issue-rag://sha256/"

def maxReceiptBytes : Nat := 32768

def issueDescriptor : AdapterDescriptor where
  adapterId := profile
  allowedPaths := [sourcePath]
  builderCommands := ["issue.repair"]
  validatorCommands := ["issue.validate"]
  roles := ["builder", "validator"]

/-- The hash of the one path that the manifest has. -/
def sourceHash? (m : TaskManifest) : Option String :=
  match m.beforeSha256 with
  | [(path, before)] => if path = sourcePath ∧ isSha256 before then some before else none
  | _ => none

/-- The value of `_task_binding`. -/
def taskBindingValue (b : IssueBinding) (m : TaskManifest) (fence : Fence) (effectId before : String) :
    Json := .obj [
  ("task_id", .str m.taskId),
  ("repository", .str repo),
  ("issue_number", .int b.number),
  ("request_id", .str b.requestId),
  ("correlation_id", .str b.correlationId),
  ("base_sha", .str b.baseSha),
  ("adapter_id", .str profile),
  ("adapter_contract_sha256", .str m.adapterContractSha256),
  ("before_sha256", .obj [(sourcePath, .str before)]),
  ("lease_generation", .int fence.generation),
  ("attempt_id", .str fence.attemptId),
  ("effect_id", .str effectId)]

/-- `_task_binding`. -/
def taskBinding (it : Interpreter) (b : IssueBinding) (m : TaskManifest) (fence : Fence)
    (effectId : String) : Except Raised Json := do
  let contract ← issueDescriptor.contractSha256 it
  need (m.repository = repo ∧ m.adapterId = profile ∧ m.adapterContractSha256 = contract ∧
    m.baseSha = b.baseSha ∧ m.workspaceSha = b.baseSha) "rag_cas_manifest_mismatch"
  match sourceHash? m with
  | some before =>
    need (1 ≤ fence.generation ∧ isSafeId fence.attemptId ∧ isSafeId effectId) "rag_cas_fence_invalid"
    pure (taskBindingValue b m fence effectId before)
  | none => .error (.blocked [.str "rag_cas_manifest_mismatch"])

/-- `_canonical`. -/
def receiptCanonical (it : Interpreter) (value : Json) : Except Raised Bytes :=
  match canonical it value with
  | .ok raw => .ok raw
  | .error _ => .error (.blocked [.str "rag_cas_serialization_invalid"])

def sourceValue (v : BoundIssueRag) : Json := .obj [
  ("path", .str v.sourcePath),
  ("sha256", .str v.sourceSha256),
  ("blob_sha", .str v.sourceBlobSha),
  ("line", .int v.line),
  ("url", .str v.url)]

def receiptEnvelope (task : Json) (v : BoundIssueRag) (receipt : Json) : Json := .obj [
  ("schema_version", .str ragKind),
  ("task", task),
  ("source", sourceValue v),
  ("rag_receipt", receipt)]

/-- `_descriptor`. -/
def receiptArtifact (digest : String) : DurableArtifact := ⟨ragKind, ragRefPrefix ++ digest, digest⟩

/-- `_key`. -/
def receiptKey (digest : String) : Except Raised String := do
  need (isSha256 digest) "rag_cas_digest_invalid"
  pure (casKey "issue-rag-v1" "context" digest)

/-- What is about to be written, and under which key. -/
structure Sealed where
  raw : Bytes
  key : String

def Sealed.digest (s : Sealed) : String := Sha256.hexdigestOfBytes s.raw

/-- The arguments of the write. -/
def Sealed.put (s : Sealed) : PutObject where
  bucket := casBucket
  key := s.key
  body := s.raw
  contentLength := s.raw.length
  contentType := "application/vnd.reqsys.issue-rag-context-v1"
  metadata := [("sha256", s.digest), ("artifact-kind", ragKind)]
  ifNoneMatch := some "*"

structure IssueRagReceiptCas where
  writer : GitHubObjectCas
  independent : GitHubObjectCas
  binding : IssueBinding
  preflightOk : Bool
  valid : writer.port ≠ independent.port ∧ writer.binding = binding ∧ independent.binding = binding

/-- The arguments of `publish` and `materialize` that say for whom. -/
structure ReceiptTask where
  manifest : TaskManifest
  fence : Fence
  effectId : String

/-- The text of `HandoffBlocked` that a write raises if its reply does not show the object. -/
def readbackRequired : String := "cas_write_readback_required"

namespace IssueRagReceiptCas

variable (it : Interpreter) (cas : IssueRagReceiptCas)

/-- `_read`. -/
def read (key : String) : PortProgram Bytes :=
  Program.handle (do
    cas.independent.authorized it
    let body ← cas.independent.getObject casBucket key
    require (0 < body.length ∧ body.length ≤ maxReceiptBytes) "rag_cas_read_invalid"
    pure body) fun e =>
    match e.reason? with
    | some _ => .raise e
    | none => .raise (.blocked "rag_cas_independent_read_unavailable")

/-- `publish` as far as nothing is written. -/
def prepare (t : ReceiptTask) (receipt : Json) (independentRead : SourceRead) : PortProgram Sealed := do
  require cas.preflightOk "rag_cas_preflight_required"
  let task ← fromRaised (taskBinding it cas.binding t.manifest t.fence t.effectId)
  cas.writer.authorized it
  cas.independent.authorized it
  let verified ← fromRaised (bindIssueRag it cas.binding receipt independentRead)
  let raw ← fromRaised (receiptCanonical it (receiptEnvelope task verified receipt))
  require (0 < raw.length ∧ raw.length ≤ maxReceiptBytes) "rag_cas_envelope_oversized"
  let key ← fromRaised (receiptKey (Sha256.hexdigestOfBytes raw))
  pure ⟨raw, key⟩

/-- The write: whether it raised something that may be a success. -/
def tryWrite (s : Sealed) : PortProgram Bool :=
  Program.handle (do
    let _ ← cas.writer.putObject it s.put
    pure false) fun e =>
    match e.reason? with
    | some reason => if reason = readbackRequired then pure true else .raise e
    | none => pure true

/-- What is read back decides. -/
def confirm (s : Sealed) (writeError : Bool) : PortProgram DurableArtifact := do
  let observed ← Program.handle (cas.read it s.key) fun e =>
    match e.reason? with
    | some _ => .raise (.blocked "rag_cas_publication_ambiguous")
    | none => .raise e
  require (observed = s.raw) (if writeError then "rag_cas_conflict" else "rag_cas_readback_mismatch")
  pure (receiptArtifact s.digest)

/-- `publish`. -/
def publish (t : ReceiptTask) (receipt : Json) (independentRead : SourceRead) :
    PortProgram DurableArtifact := do
  let s ← cas.prepare it t receipt independentRead
  let writeError ← cas.tryWrite it s
  cas.confirm it s writeError

end IssueRagReceiptCas

/-! ### What is written -/

/-- `_canonical` writes whatever JSON can write. -/
theorem receiptCanonical_writes {it : Interpreter} {value : Json} (writable : value.Everywhere Writable)
    (floats : value.Everywhere (Json.FloatsAscii it.floatRepr)) : receiptCanonical it value =
      .ok ((value.dumps true it.floatRepr).map fun c => UInt8.ofNat c.toNat) := by
  have written := canonical_eq_ok.mpr ⟨writable, encodeAscii_ascii (Json.dumps_ascii floats)⟩
  unfold receiptCanonical
  rw [written]

/-! ### The object of a receipt -/

/-- The key is that of the digest. -/
def Sealed.Named (s : Sealed) : Prop := s.key = casKey "issue-rag-v1" "context" s.digest

theorem Sealed.hex (s : Sealed) : isSha256 s.digest = true := Sha256.hexdigestOfBytes_hexRun s.raw

theorem ragKind_known : (("issue-rag-v1", "context") : String × String) ∈ casKinds := by decide

theorem checkedKey_named {s : Sealed} (named : s.Named) :
    checkedKey casBucket s.key = .ok (evidencePath s.key, s.digest) := by
  have found := @checkedKey?_casKey ("issue-rag-v1", "context") s.digest ragKind_known s.hex
  rw [← named] at found
  unfold checkedKey
  rw [if_pos rfl, found]

theorem validRoute_named {s : Sealed} (named : s.Named) {c : HttpCall}
    (tail : c.tail = "/contents/" ++ evidencePath s.key) : validRoute c = true := by
  rw [named] at tail
  exact validRoute_contents ragKind_known s.hex tail

/-- The store accepts the arguments of the write. -/
theorem checkedPut_named {s : Sealed} (named : s.Named) (nonempty : 0 < s.raw.length)
    (bound : s.raw.length ≤ maxReceiptBytes) :
    GitHubObjectCas.checkedPut s.put = .ok (evidencePath s.key) := by
  have fits : s.raw.length ≤ casMaxBytes := Nat.le_trans bound (by decide)
  have checks : 0 < s.put.body.length ∧ s.put.body.length ≤ casMaxBytes ∧
      s.put.contentLength = s.put.body.length ∧ s.put.ifNoneMatch = some "*" ∧
      Sha256.hexdigestOfBytes s.put.body = s.digest ∧ s.put.metadata.lookup "sha256" = some s.digest :=
    ⟨nonempty, fits, rfl, rfl, rfl, rfl⟩
  have key : checkedKey s.put.bucket s.put.key = .ok (evidencePath s.key, s.digest) :=
    checkedKey_named named
  have passes : Handoff.need (0 < s.put.body.length ∧ s.put.body.length ≤ casMaxBytes ∧
      s.put.contentLength = s.put.body.length ∧ s.put.ifNoneMatch = some "*" ∧
      Sha256.hexdigestOfBytes s.put.body = s.digest ∧ s.put.metadata.lookup "sha256" = some s.digest)
      (.blocked "cas_write_invalid") = .ok () := if_pos checks
  unfold GitHubObjectCas.checkedPut
  rw [key]
  show (Handoff.need _ _ >>= fun _ => pure (evidencePath s.key)) = _
  rw [passes]
  rfl

end WorkerPool.Issue
