import WorkerPool.Lib.Json
import WorkerPool.Schema

/-!
# Names, redaction and digests of the store

The module-level helpers of `store.py`: the identifier patterns, `sanitize`, the
identity of a task and what is derived from it, and the digests that make a
checkpoint or a reconciliation replayable.
-/

namespace WorkerPool

open PyText

def isSha40 (s : String) : Bool := hexRun 40 s

def isIdRest (c : Char) : Bool := isAsciiAlnum c || c == '.' || c == '_' || c == ':' || c == '-'

/-- `SAFE_ID.fullmatch`. -/
def isSafeId (s : String) : Bool := headedRun isAsciiAlnum isIdRest 0 127 s

/-- `TASK_ID.fullmatch`. -/
def isTaskId (s : String) : Bool :=
  s.toList.take 4 == ['c', 'w', 'p', '-'] && hexRun 24 (String.ofList (s.toList.drop 4))

def isTokenChar (c : Char) : Bool :=
  isCaselessAlnum c || c == '.' || c == '_' || c == '~' || c == '+' || c == '/' || c == '=' ||
    c == '-'

def redactedBearer : List Char := "Bearer [REDACTED]".toList

/-- The pattern `BEARER`: the word, white space, and a run of token characters. -/
def matchBearer (rt : Runtime) (before : Option Char) (cs : List Char) :
    Option (List Char × Nat) :=
  if atWordStart rt.isAlnum before then do
    let word ← literal "bearer".toList cs
    let gap := spanLength isSpace (cs.drop word)
    let token := spanLength isTokenChar (cs.drop (word + gap))
    if 1 ≤ gap ∧ 1 ≤ token then some (redactedBearer, word + gap + token) else none
  else none

/-- The alternatives of `SECRET`, each with its optional separator spelled out. -/
def secretWords : List (List Char) :=
  ["token", "secret", "password", "passwd", "dsn", "connection_string", "connection-string",
    "connectionstring", "api_key", "api-key", "apikey"].map String.toList

/-- The pattern `SECRET`: a keyword, a colon or equals sign, and a run of characters
other than white space, comma and semicolon. The keyword is kept. -/
def matchSecret (rt : Runtime) (before : Option Char) (cs : List Char) :
    Option (List Char × Nat) :=
  if atWordStart rt.isAlnum before then do
    let word ← secretWords.findSome? fun w => literal w cs
    let gap := spanLength isSpace (cs.drop word)
    let sign ← (cs.drop (word + gap)).head?
    let start := word + gap + 1
    let space := spanLength isSpace (cs.drop start)
    let value := spanLength (fun c => !isSpace c && c != ',' && c != ';') (cs.drop (start + space))
    if (sign = ':' ∨ sign = '=') ∧ 1 ≤ value then
      some (cs.take word ++ "=[REDACTED]".toList, start + space + value)
    else none
  else none

def sanitizeChars (rt : Runtime) (cs : List Char) : List Char :=
  (subst (matchSecret rt) none 0 (subst (matchBearer rt) none 0 cs)).take 1000

def sanitize (rt : Runtime) (value : String) : String :=
  String.ofList (sanitizeChars rt value.toList)

/-- The text that `identity` hashes. -/
def identityText (rt : Runtime) (repository : String) (issueNumber : Int) (requestId : String) :
    String :=
  rt.lower (strip repository) ++ "|" ++ toString issueNumber ++ "|" ++ strip requestId

def identity (rt : Runtime) (repository : String) (issueNumber : Int) (requestId : String) :
    String :=
  rt.sha256 (identityText rt repository issueNumber requestId)

def taskIdOf (key : String) : String := "cwp-" ++ prefixOf 24 key

def branchOf (rt : Runtime) (issueNumber : Int) (requestId : String) : String :=
  "codex/issue-" ++ toString issueNumber ++ "-" ++ prefixOf 10 (rt.sha256 requestId)

def workspaceOf (rt : Runtime) (repository taskId : String) : String :=
  "worker-" ++ prefixOf 16 (rt.sha256 (repository ++ "|" ++ taskId))

def hasInfix (needle : List Char) : List Char → Bool
  | [] => needle.isEmpty
  | c :: cs => needle.isPrefixOf (c :: cs) || hasInfix needle cs

def isBranchRest (c : Char) : Bool := isAsciiAlnum c || c == '.' || c == '_' || c == '/' || c == '-'

def protectedTargetBranches : List String := ["main", "master", "develop"]

def validateTargetBranch (value : String) : Except PoolError String :=
  let normalized := strip value
  let cs := normalized.toList
  if ¬ headedRun isAsciiAlnum isBranchRest 0 199 normalized then
    .error (.value "target_branch inválida")
  else if String.ofList (cs.map Char.toLower) ∈ protectedTargetBranches then
    .error (.value "target_branch protegida")
  else if hasInfix ['.', '.'] cs ∨ hasInfix ['/', '/'] cs ∨ ['/'].isSuffixOf cs ∨
      ['.'].isSuffixOf cs ∨ ".lock".toList.isSuffixOf cs then
    .error (.value "target_branch inválida")
  else .ok normalized

def validateRepository (repository : String) : Except PoolError String :=
  let normalized := strip repository
  let cs := normalized.toList
  if '/' ∉ cs ∨ ['/'].isPrefixOf cs ∨ ['/'].isSuffixOf cs then
    .error (.value "repository inválido")
  else .ok normalized

/-- The content of a checkpoint: what its digest covers. -/
structure CheckpointContent where
  checkpointId : String
  sequence : Int
  stage : String
  artifactKind : Option String
  artifactRef : Option String
  artifactSha256 : Option String
  nextAction : String
  effectId : Option String
  effectState : EffectState
  effectResultRef : Option String
  deriving DecidableEq

/-- `semantic` of `record_checkpoint`. Neither the lease generation nor the attempt
is part of it. -/
def CheckpointContent.semantic (c : CheckpointContent) : Json :=
  .obj [
    ("checkpoint_id", .str c.checkpointId),
    ("sequence", .int c.sequence),
    ("stage", .str c.stage),
    ("artifact_kind", .ofOption c.artifactKind),
    ("artifact_ref", .ofOption c.artifactRef),
    ("artifact_sha256", .ofOption c.artifactSha256),
    ("next_action", .str c.nextAction),
    ("effect_id", .ofOption c.effectId),
    ("effect_state", .str c.effectState.text),
    ("effect_result_ref", .ofOption c.effectResultRef)]

/-- `semantic` of `reconcile_effect`. -/
def reconciliationSemantic (effectId : String) (leaseGeneration : Int) (outcome : Outcome)
    (readbackRef : String) : Json :=
  .obj [
    ("effect_id", .str effectId),
    ("lease_generation", .int leaseGeneration),
    ("outcome", .str outcome.text),
    ("readback_ref", .str readbackRef)]

/-- The digest of a JSON value without floats. -/
def contentDigest (rt : Runtime) (semantic : Json) : String :=
  rt.sha256 (String.ofList (semantic.dumps false fun _ => []))

/-- Redaction never leaves a non-empty text empty. -/
theorem sanitize_ne_empty (rt : Runtime) {value : String} (h : value ≠ "") :
    sanitize rt value ≠ "" := by
  have chars : value.toList ≠ [] := by simpa using h
  have bearer : subst (matchBearer rt) none 0 value.toList ≠ [] := by
    refine subst_ne_nil ?_ none chars
    intro before cs r n hm
    unfold matchBearer at hm
    split at hm
    · simp only [Option.bind_eq_bind, Option.bind_eq_some_iff] at hm
      obtain ⟨word, -, hm⟩ := hm
      split at hm <;> cases hm
      decide
    · cases hm
  have secret : subst (matchSecret rt) none 0 (subst (matchBearer rt) none 0 value.toList) ≠ [] := by
    refine subst_ne_nil ?_ none bearer
    intro before cs r n hm
    unfold matchSecret at hm
    split at hm
    · simp only [Option.bind_eq_bind, Option.bind_eq_some_iff] at hm
      obtain ⟨word, -, sign, -, hm⟩ := hm
      split at hm <;> cases hm
      simp
    · cases hm
  have cut : sanitizeChars rt value.toList ≠ [] := by
    simpa [sanitizeChars, List.take_eq_nil_iff] using secret
  simpa [sanitize] using cut

end WorkerPool
