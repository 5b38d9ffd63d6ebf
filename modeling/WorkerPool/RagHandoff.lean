import WorkerPool.GitHubPort
import WorkerPool.IssueAdmission
import WorkerPool.Lib.Sha1

/-!
# Citations

`bind_issue_rag` accepts a receipt only for the issue and the commit that it names, and then reads
the cited source itself: by its two digests, by its length, and by the line that is quoted.
-/

namespace WorkerPool.Issue

open PyText

def question : String :=
  "Quantos casos após o reparo o código atual exige para o perfil bridge.property.v1?"

def allowedSources : List String :=
  ["README.md", "AGENTS.md", "docs/ISSUE_QWEN7B_DRAFT_HANDOFF.md"]

def modelDigestPrefix : String := "dae161e27b0e"

def ragMaxBytes : Nat := 65536

def maxLine : Nat := 220

def maxSources : Nat := 2

def maxModelCalls : Int := 4

structure BoundIssueRag where
  issue : Int
  baseSha : String
  requestId : String
  correlationId : String
  sourcePath : String
  sourceSha256 : String
  sourceBlobSha : String
  line : Int
  excerpt : String
  url : String
  modelDigest : String
  modelCalls : Int
  receiptSha256 : String
  deriving DecidableEq

/-- What a receipt cites: a line of a source, and the contents of that source. -/
structure Citation where
  path : String
  line : Int
  excerpt : String
  sourceSha256 : String
  blobSha : String
  size : Int
  url : String
  modelDigest : String
  modelCalls : Int
  receiptSha256 : String

/-! ### Lines -/

/-- The ends of lines that `str.splitlines` knows. -/
def isLineBreak (c : Char) : Bool :=
  let n := c.toNat
  (10 ≤ n && n ≤ 13) || (28 ≤ n && n ≤ 30) || n == 0x85 || n == 0x2028 || n == 0x2029

/-- `text.splitlines()`, behind a part of a line, which is held backwards. -/
def splitLines : List Char → List Char → List (List Char)
  | [], [] => []
  | part, [] => [part.reverse]
  | part, '\r' :: '\n' :: rest => part.reverse :: splitLines [] rest
  | part, c :: rest => if isLineBreak c then part.reverse :: splitLines [] rest else splitLines (c :: part) rest

example : splitLines [] "a\r\nb\n\nc".toList = [['a'], ['b'], [], ['c']] := by decide

/-- The line, as it is quoted. -/
def quotedLine (text : List Char) : String := prefixOf maxLine (String.ofList (stripList text))

/-! ### The receipt -/

def isIssueCorrelation (s : String) : Bool :=
  prefixOf 13 s == "qwen7b-issue-" && isIssueSuffix (s.toList.drop 13)

def receiptFields : List String :=
  ["schema_version", "repository", "issue_number", "request_id", "correlation_id", "head_sha",
    "base_sha", "question_sha256", "search_query_sha256", "sources", "selected_reference", "state",
    "model_calls", "model_digest", "model_process_verified", "issue_head_readback_stable",
    "execution_authorized", "state_changed", "receipt_sha256"]

/-- `value == text` for each of the keys. -/
def textsAre (value : Json) (wanted : List (String × String)) : Bool :=
  wanted.all fun w => (item w.1 value).isStr w.2

/-- The receipt is one of this issue at this commit. -/
def receiptBound (b : IssueBinding) (receipt : Json) : Except Raised Unit := do
  need (0 < b.number ∧ isSha40 b.baseSha ∧ isIssueRequest b.requestId ∧
    isIssueCorrelation b.correlationId) "rag_issue_binding_invalid"
  need receipt.isObj "rag_attestation_input_invalid"
  need (receipt.sameKeys? receiptFields = some true ∧
    (item "issue_number" receipt).int? = some b.number ∧
    textsAre receipt [
      ("schema_version", "worker.rag.issue-context-v1"), ("repository", repo),
      ("request_id", b.requestId), ("head_sha", b.baseSha), ("base_sha", b.baseSha),
      ("correlation_id", b.correlationId), ("question_sha256", Sha256.hexdigest question),
      ("state", "supported")] ∧
    (item "model_process_verified" receipt).isTrue ∧
    (item "issue_head_readback_stable" receipt).isTrue ∧
    (item "execution_authorized" receipt).isFalse ∧ (item "state_changed" receipt).isFalse)
    "rag_issue_or_source_sha_unbound"

def queryEvidence (receipt : Json) : Except Raised Unit :=
  match item "search_query_sha256" receipt with
  | .arr searches =>
    need (1 ≤ searches.length ∧ searches.length ≤ maxSources ∧ searches.all (·.isText isSha256))
      "rag_query_evidence_invalid"
  | _ => .error (.blocked [.str "rag_query_evidence_invalid"])

/-- The model with the number of its calls. -/
def modelAttestation (receipt : Json) : Except Raised (String × Int) :=
  match (item "model_digest" receipt).str?, (item "model_calls" receipt).int? with
  | some model, some calls => do
    need (2 ≤ calls ∧ calls ≤ maxModelCalls ∧ isSha256 model ∧ prefixOf 12 model = modelDigestPrefix)
      "rag_model_attestation_invalid"
    pure (model, calls)
  | _, _ => .error (.blocked [.str "rag_model_attestation_invalid"])

/-- What `json.dumps` writes without an exception. -/
def Printable : Json → Prop
  | .int n => (Nat.toDigits 10 n.natAbs).length ≤ Json.maxDigits
  | _ => True

instance : DecidablePred Printable
  | .int n => inferInstanceAs (Decidable ((Nat.toDigits 10 n.natAbs).length ≤ Json.maxDigits))
  | .null | .bool _ | .float _ | .str _ | .arr _ | .obj _ => .isTrue trivial

/-- The receipt without its digest. -/
def receiptContent : Json → Json
  | .obj fields => .obj (fields.filter fun f => f.1 ≠ "receipt_sha256")
  | v => v

/-- `digest(canonical(content))`. -/
def contentDigest (it : Interpreter) (content : Json) : Except Raised String :=
  if content.Everywhere Printable then
    .ok (Sha256.hexdigest (String.ofList (content.dumps false it.floatRepr)))
  else .error .error

def receiptIntegrity (it : Interpreter) (receipt : Json) : Except Raised String :=
  match (item "receipt_sha256" receipt).str? with
  | some receiptHash => do
    need (isSha256 receiptHash) "rag_receipt_integrity_invalid"
    let found ← contentDigest it (receiptContent receipt)
    need (found = receiptHash) "rag_receipt_integrity_invalid"
    pure receiptHash
  | none => .error (.blocked [.str "rag_receipt_integrity_invalid"])

/-! ### The citation -/

def receiptSources (receipt : Json) : Except Raised (List Json) :=
  match item "sources" receipt with
  | .arr sources => do
    need (1 ≤ sources.length ∧ sources.length ≤ maxSources ∧ sources.all Json.isObj ∧
      (item "selected_reference" receipt).isObj) "rag_sources_unverified"
    pure sources
  | _ => .error (.blocked [.str "rag_sources_unverified"])

/-- The path, the line and its text. -/
def citedLine (selected : Json) : Except Raised (String × Int × String) :=
  match (item "path" selected).str?, (item "line" selected).int?, (item "excerpt" selected).str?,
      (item "score" selected).int? with
  | some path, some line, some excerpt, some score => do
    need (path ∈ allowedSources ∧ 1 ≤ line ∧ line ≤ 4096 ∧ 1 ≤ excerpt.length ∧
      excerpt.length ≤ maxLine ∧ 1 ≤ score ∧ score ≤ 24 ∧
      (item "untrusted_source_text" selected).isTrue) "rag_citation_shape_invalid"
    pure (path, line, excerpt)
  | _, _, _, _ => .error (.blocked [.str "rag_citation_shape_invalid"])

/-- Every source is an allowed one at the commit; a path without a hash raises. -/
def allAllowed (baseSha : String) : List Json → Except Raised Bool
  | [] => .ok true
  | source :: rest => do
    let allowed ← orError ((item "path" source).inTexts? allowedSources)
    if allowed && (item "ref_sha" source).isStr baseSha then allAllowed baseSha rest else pure false

def matchingSource (b : IssueBinding) (path : String) (sources : List Json) : Except Raised Json :=
  match sources.filter fun s => (item "path" s).isStr path && (item "ref_sha" s).isStr b.baseSha with
  | [source] => do
    let allowed ← allAllowed b.baseSha sources
    need allowed "rag_source_not_allowlisted"
    pure source
  | _ => .error (.blocked [.str "rag_source_not_allowlisted"])

/-- The two digests of the source and its length. -/
def sourceDigests (selected source : Json) : Except Raised (String × String × Int) :=
  match (item "sha256" source).str?, (item "blob_sha" source).str?, (item "bytes" source).int? with
  | some sha, some blob, some size => do
    need (isSha256 sha ∧ isSha40 blob ∧ (item "source_sha256" selected).isStr sha ∧ 0 < size ∧
      size ≤ ragMaxBytes) "rag_source_digest_invalid"
    pure (sha, blob, size)
  | _, _, _ => .error (.blocked [.str "rag_source_digest_invalid"])

def citationUrl (baseSha path : String) (line : Int) : String :=
  "https://github.com/" ++ repo ++ "/blob/" ++ baseSha ++ "/" ++ quote ['/'] path ++ "#L" ++ toString line

/-- `bind_issue_rag` as far as the source is read. -/
def citation (it : Interpreter) (b : IssueBinding) (receipt : Json) : Except Raised Citation := do
  receiptBound b receipt
  queryEvidence receipt
  let (modelDigest, modelCalls) ← modelAttestation receipt
  let receiptSha256 ← receiptIntegrity it receipt
  let sources ← receiptSources receipt
  let selected := item "selected_reference" receipt
  let (path, line, excerpt) ← citedLine selected
  let source ← matchingSource b path sources
  let (sourceSha256, blobSha, size) ← sourceDigests selected source
  let url := citationUrl b.baseSha path line
  need ((item "url" selected).isStr url) "rag_citation_url_invalid"
  pure ⟨path, line, excerpt, sourceSha256, blobSha, size, url, modelDigest, modelCalls, receiptSha256⟩

/-- The contents are the cited ones, to the byte and to the line. -/
def confirmSource (c : Citation) (raw : Bytes) : Except Raised Unit := do
  need (0 < raw.length ∧ raw.length ≤ ragMaxBytes) "rag_independent_source_invalid"
  need (Sha256.hexdigestOfBytes raw = c.sourceSha256 ∧ Sha1.gitBlob raw = c.blobSha ∧
    (raw.length : Int) = c.size) "rag_independent_digest_mismatch"
  match decodeUtf8 raw with
  | some text =>
    need (((splitLines [] text.toList)[(c.line - 1).toNat]?).map quotedLine = some c.excerpt)
      "rag_independent_excerpt_mismatch"
  | none => .error (.blocked [.str "rag_independent_encoding_invalid"])

def Citation.bound (c : Citation) (b : IssueBinding) : BoundIssueRag where
  issue := b.number
  baseSha := b.baseSha
  requestId := b.requestId
  correlationId := b.correlationId
  sourcePath := c.path
  sourceSha256 := c.sourceSha256
  sourceBlobSha := c.blobSha
  line := c.line
  excerpt := c.excerpt
  url := c.url
  modelDigest := c.modelDigest
  modelCalls := c.modelCalls
  receiptSha256 := c.receiptSha256

/-- What the caller reads of a path at a commit, if it does not raise. -/
abbrev SourceRead : Type := String → String → Option Bytes

/-- `bind_issue_rag`. -/
def bindIssueRag (it : Interpreter) (b : IssueBinding) (receipt : Json) (independentRead : SourceRead) :
    Except Raised BoundIssueRag := do
  let c ← citation it b receipt
  match independentRead c.path b.baseSha with
  | some raw =>
    confirmSource c raw
    pure (c.bound b)
  | none => .error (.blocked [.str "rag_independent_read_unavailable"])

/-! ### Receipts that are whole -/

theorem need_of {c : Prop} [Decidable c] {code : String} (h : c) : need c code = .ok () := if_pos h

/-- A receipt whose digest is that of the rest of it is whole. -/
theorem receiptIntegrity_of {it : Interpreter} {receipt : Json} {digest : String}
    (named : item "receipt_sha256" receipt = .str digest) (hex : isSha256 digest = true)
    (found : contentDigest it (receiptContent receipt) = .ok digest) :
    receiptIntegrity it receipt = .ok digest := by
  unfold receiptIntegrity
  simp only [named, Json.str?, found, need_of hex, ok_bind]
  rfl

theorem isIssueRequest_of {digest : String} (hex : hexRun 64 digest = true) :
    isIssueRequest ("issue-" ++ digest) = true := by
  have letters : ("issue-" ++ digest).toList = "issue-".toList ++ digest.toList := String.toList_append
  have first : prefixOf 6 ("issue-" ++ digest) = "issue-" := by
    rw [prefixOf, letters]
    rfl
  have rest : String.ofList (("issue-" ++ digest).toList.drop 6) = digest := by
    rw [letters]
    exact String.ofList_toList
  rw [isIssueRequest, first, rest, hex]
  rfl

theorem length_of_hexRun {n : Nat} {text : String} (hex : hexRun n text = true) : text.length = n := by
  rw [← String.length_toList]
  exact beq_iff_eq.mp (Bool.and_eq_true_iff.mp hex).1

end WorkerPool.Issue
