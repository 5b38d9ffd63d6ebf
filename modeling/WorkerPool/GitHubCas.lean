import Mathlib
import WorkerPool.ArtifactStore
import WorkerPool.GitHubPort
import WorkerPool.Lib.Base64
import WorkerPool.Lib.Sha1

/-!
# Objects on a branch

`GitHubObjectCAS` keeps at most three objects, each named by its digest, on a branch of its own
that starts at the commit the issue was approved for.
-/

namespace WorkerPool.Issue

open PyText

def casBucket : String := "github-public-cas"

def casPrefix : String := "qwen7b-cas-v1"

def casMaxBytes : Nat := 98304

/-- The most commits that the branch may have. -/
def casCapacity : Int := 3

/-- The key of an object. -/
def casKey (subdir extension digest : String) : String :=
  casPrefix ++ "/" ++ subdir ++ "/sha256/" ++ prefixOf 2 digest ++ "/" ++ digest ++ "." ++ extension

/-- The directories with the extensions of their objects. -/
def casKinds : List (String × String) :=
  [("preflight-v1", "probe"), ("git-bundle-v1", "artifact"), ("issue-rag-v1", "context")]

/-- The digest in a key of a directory. -/
def keyDigest? (key : String) (kind : String × String) : Option String :=
  let front := casPrefix ++ "/" ++ kind.1 ++ "/sha256/00/"
  let digest := String.ofList ((key.toList.drop front.length).take 64)
  if isSha256 digest ∧ key = casKey kind.1 kind.2 digest then some digest else none

def evidencePath (key : String) : String := "evidence/cas/" ++ key

/-- `_checked_key`, for the bucket of the store. -/
def checkedKey? (key : String) : Option (String × String) :=
  (casKinds.findSome? (keyDigest? key)).map fun digest => (evidencePath key, digest)

/-- `_checked_key`. -/
def checkedKey (bucket key : String) : Except Handoff (String × String) :=
  if bucket = casBucket then
    match checkedKey? key with
    | some found => .ok found
    | none => .error (.blocked "cas_key_invalid")
  else .error (.blocked "cas_destination_invalid")

/-- `_valid_branch_object`. -/
def validBranchObject (file : Json) : Bool :=
  file.isObj && (item "status" file).isStr "added" &&
    (item "filename" file).isText fun name =>
      (evidencePath "").toList.isPrefixOf name.toList &&
        (checkedKey? (String.ofList (name.toList.drop (evidencePath "").length))).isSome

/-- What `_ensure_branch` asks of the comparison of the base with the head. Two names of files are
compared by their hashes first. -/
def branchScope (compare : Json) : Except Handoff Int :=
  let invalid : Except Handoff Int := .error (.blocked "cas_branch_scope_invalid")
  match compare.isObj && (item "status" compare).isStr "ahead" &&
      (item "behind_by" compare).scalarEq (.int 0), (item "ahead_by" compare).int?,
      (item "total_commits" compare).int?, item "files" compare with
  | true, some ahead, some total, .arr files =>
    if 1 ≤ ahead ∧ ahead ≤ casCapacity ∧ total = ahead ∧ files.length = ahead then
      if files.all fun file => (item "filename" file).isHashable then
        if (files.map fun file => (item "filename" file).str?).Nodup ∧ files.all validBranchObject then
          .ok ahead
        else invalid
      else .error .error
    else invalid
  | _, _, _, _ => invalid

/-- A file's contents, as `_get` checks them. -/
def fileContents (path : String) (payload : Json) : Except Handoff Bytes := do
  let invalid := Handoff.blocked "cas_object_invalid"
  Handoff.need (payload.isObj ∧ (item "type" payload).isStr "file" ∧ (item "path" payload).isStr path ∧
    (item "encoding" payload).isStr "base64") invalid
  match (item "content" payload).str?, (item "size" payload).int?, (item "sha" payload).str? with
  | some content, some size, some sha => do
    Handoff.need (0 < size ∧ size ≤ casMaxBytes) invalid
    match Base64.decode (content.toList.filter (!isSpace ·)) with
    | some raw => do
      Handoff.need (raw.length = size ∧ Sha1.gitBlob raw = sha) (.blocked "cas_blob_mismatch")
      pure raw
    | none => .error (.blocked "cas_object_encoding_invalid")
  | _, _, _ => .error invalid

/-- A client. -/
structure GitHubObjectCas where
  port : Nat
  binding : IssueBinding
  valid : 0 < binding.number ∧ isSha40 binding.baseSha = true ∧
    binding.branch = draftBranch binding.number binding.baseSha

namespace GitHubObjectCas

variable (it : Interpreter) (cas : GitHubObjectCas)

def branch : String := "agent/cas-" ++ issueName cas.binding.number cas.binding.baseSha

/-- `_authorized`. -/
def authorized : PortProgram Unit := do
  let now ← readClock
  let main ← getBranch cas.port "main"
  require (main.isNull = false) "cas_main_unavailable"
  let issue ← getIssue cas.port cas.binding.number
  let comment ← getComment cas.port cas.binding.commentId
  let current ← fromRaised (admitBinding it issue comment main cas.binding.baseSha now.isoformat now.reading)
  require (current = cas.binding) "cas_issue_binding_changed"

/-- `_branch`: the head of the branch. -/
def head : PortProgram (Option String) := do
  let result ← portRequest { port := cas.port, method := .get, tail := "/branches/" ++ quote [] cas.branch,
                             missingOk := true }
  if result.isNull then pure none
  else
    require (isBranch cas.branch result) "cas_branch_unverified"
    pure (item "sha" (item "commit" result)).str?

/-- The branch at the base. -/
def createBranch : PortProgram Unit := do
  let ref := "refs/heads/" ++ cas.branch
  let result ← portRequest { port := cas.port, method := .post, tail := "/git/refs", statuses := [201],
                             payload := .obj [("ref", .str ref), ("sha", .str cas.binding.baseSha)] }
  require (result.isObj ∧ (item "ref" result).isStr ref ∧ (item "object" result).isObj ∧
    (item "sha" (item "object" result)).isStr cas.binding.baseSha) "cas_branch_create_unverified"

/-- How far the head is ahead of the base. -/
def countFrom (sha : String) : PortProgram Int := do
  if sha = cas.binding.baseSha then pure 0
  else
    let compare ← portRequest { port := cas.port, method := .get,
                                tail := "/compare/" ++ cas.binding.baseSha ++ "..." ++ sha }
    branchScope compare

/-- `_ensure_branch`. -/
def ensureBranch : PortProgram Int := do
  match ← cas.head with
  | some sha => cas.countFrom sha
  | none =>
    cas.createBranch
    match ← cas.head with
    | some sha => cas.countFrom sha
    | none => .raise (.blocked "cas_branch_unavailable")

/-- `_get`. -/
def get (path : String) : PortProgram (Option Bytes) := do
  let payload ← portRequest { port := cas.port, method := .get, tail := "/contents/" ++ path,
                              query := [("ref", cas.branch)], missingOk := true }
  if payload.isNull then pure none
  else
    let raw ← fileContents path payload
    pure (some raw)

/-- The request that appends an object. -/
def putCall (path : String) (body : Bytes) : HttpCall where
  port := cas.port
  method := .put
  tail := "/contents/" ++ path
  statuses := [201]
  payload := .obj [
    ("message", .str "evidence: append immutable Qwen7B Git CAS object"),
    ("branch", .str cas.branch),
    ("content", .str (String.ofList (Base64.encode body)))]

/-- The commit that a reply to the append names, if it is the append of the object. -/
def appended (path blob : String) (result : Json) : Except Handoff String :=
  let content := item "content" result
  let commit := item "commit" result
  match (item "sha" commit).str? with
  | some sha => do
    Handoff.need (result.isObj ∧ content.isObj ∧ (item "path" content).isStr path ∧
      (item "sha" content).isStr blob ∧ commit.isObj ∧ isSha40 sha)
      (.blocked "cas_write_readback_required")
    pure sha
  | none => .error (.blocked "cas_write_readback_required")

/-- The append of an object, with the check that it was the last one. -/
def append (path : String) (body : Bytes) : PortProgram String := do
  let result ← portRequest (cas.putCall path body)
  let sha ← appended path (Sha1.gitBlob body) result
  let observed ← cas.head
  require (observed = some sha) "cas_branch_changed_after_write"
  let _ ← cas.ensureBranch
  pure (Sha1.gitBlob body)

/-- What `put_object` asks of its arguments: the path and the object. -/
def checkedPut (put : PutObject) : Except Handoff String := do
  let (path, digest) ← checkedKey put.bucket put.key
  Handoff.need (0 < put.body.length ∧ put.body.length ≤ casMaxBytes ∧
    put.contentLength = put.body.length ∧ put.ifNoneMatch = some "*" ∧
    Sha256.hexdigestOfBytes put.body = digest ∧ put.metadata.lookup "sha256" = some digest)
    (.blocked "cas_write_invalid")
  pure path

/-- `put_object`: the tag of the object. -/
def putObject (put : PutObject) : PortProgram String := do
  let path ← checkedPut put
  cas.authorized it
  let existingCount ← cas.ensureBranch
  match ← cas.get path with
  | some _ => .raise .alreadyExists
  | none =>
    require (existingCount < casCapacity) "cas_branch_scope_invalid"
    cas.append path put.body

/-- `get_object`: the bytes of the object. -/
def getObject (bucket key : String) : PortProgram Bytes := do
  let (path, digest) ← checkedKey bucket key
  let head ← cas.head
  require head.isSome "cas_branch_unavailable"
  match ← cas.get path with
  | some body =>
    require (Sha256.hexdigestOfBytes body = digest) "cas_object_missing_or_modified"
    pure body
  | none => .raise (.blocked "cas_object_missing_or_modified")

end GitHubObjectCas

/-! ### Objects that are read back -/

/-- The letters of the key of an object, around its digest. -/
theorem casKey_toList (subdir extension digest : String) : (casKey subdir extension digest).toList =
    (casPrefix ++ "/" ++ subdir ++ "/sha256/").toList ++ (digest.toList.take 2 ++
      '/' :: (digest.toList ++ '.' :: extension.toList)) := by
  simp [casKey, prefixOf, String.toList_append]

theorem length_of_isSha256 {digest : String} (hex : isSha256 digest = true) : digest.toList.length = 64 :=
  beq_iff_eq.mp (Bool.and_eq_true_iff.mp hex).1

/-- The digest in a key, whatever the digest is. -/
theorem digest_of_casKey {subdir extension digest : String} (hex : isSha256 digest = true) :
    ((casKey subdir extension digest).toList.drop
      (casPrefix ++ "/" ++ subdir ++ "/sha256/00/").length).take 64 = digest.toList := by
  have size := length_of_isSha256 hex
  have front : (casPrefix ++ "/" ++ subdir ++ "/sha256/00/").length =
      (casPrefix ++ "/" ++ subdir ++ "/sha256/").toList.length + 3 := by
    simp only [String.length_append, String.length_toList]
    rfl
  rw [casKey_toList, front, ← List.drop_drop, List.drop_left]
  match chars : digest.toList, size with
  | a :: b :: rest, size =>
    have later : rest.length = 62 := by
      simp only [List.length_cons] at size
      omega
    simp only [List.take_succ_cons, List.take_zero, List.cons_append, List.nil_append, List.drop_succ_cons,
      List.drop_zero]
    rw [List.take_left' later]

theorem keyDigest?_casKey {kind : String × String} {digest : String} (hex : isSha256 digest = true) :
    keyDigest? (casKey kind.1 kind.2 digest) kind = some digest := by
  simp only [keyDigest?, digest_of_casKey hex, String.ofList_toList, hex, and_self, if_true]

theorem eq_casKey_of_keyDigest? {key digest : String} {kind : String × String}
    (h : keyDigest? key kind = some digest) : isSha256 digest = true ∧ key = casKey kind.1 kind.2 digest := by
  simp only [keyDigest?] at h
  split at h
  · rename_i both
    cases h
    exact both
  · cases h

/-- The directory in a key. -/
theorem casKey_mark {kind : String × String} (known : kind ∈ casKinds) (digest : String) :
    (casKey kind.1 kind.2 digest).toList[14]? = kind.1.toList.head? := by
  rw [casKey_toList]
  simp only [casKinds, List.mem_cons, List.not_mem_nil, or_false] at known
  rcases known with rfl | rfl | rfl <;> rfl

/-- The key of an object has one digest, the one it was made of. -/
theorem checkedKey?_casKey {kind : String × String} {digest : String} (known : kind ∈ casKinds)
    (hex : isSha256 digest = true) : checkedKey? (casKey kind.1 kind.2 digest) =
      some (evidencePath (casKey kind.1 kind.2 digest), digest) := by
  have other : ∀ kind' ∈ casKinds, kind'.1.toList.head? ≠ kind.1.toList.head? →
      keyDigest? (casKey kind.1 kind.2 digest) kind' = none := by
    intro kind' known' ne
    by_contra found
    obtain ⟨digest', same⟩ := Option.ne_none_iff_exists'.mp found
    obtain ⟨-, eq⟩ := eq_casKey_of_keyDigest? same
    have marks := congrArg (fun key => key.toList[14]?) eq
    simp only [casKey_mark known, casKey_mark known'] at marks
    exact ne marks.symm
  have mine : keyDigest? (casKey kind.1 kind.2 digest) kind = some digest := keyDigest?_casKey hex
  have first := other ("preflight-v1", "probe") (by decide)
  have second := other ("git-bundle-v1", "artifact") (by decide)
  simp only [casKinds, List.mem_cons, List.not_mem_nil, or_false] at known
  unfold checkedKey? casKinds
  rcases known with rfl | rfl | rfl
  · simp only [List.findSome?_cons, mine, Option.map_some]
  · simp only [List.findSome?_cons, first (by decide), mine, Option.map_some]
  · simp only [List.findSome?_cons, first (by decide), second (by decide), mine, Option.map_some]

/-- The letters that no route holds. -/
def noRoute : List Char := ['\\', '?', '#', '\n', '\r']

theorem lowerHex_plain {c : Char} (hex : isLowerHex c = true) : c ≠ '/' ∧ c ∉ noRoute := by
  refine ⟨?_, fun inside => ?_⟩
  · rintro rfl
    cases hex
  · simp only [noRoute, List.mem_cons, List.not_mem_nil, or_false] at inside
    rcases inside with rfl | rfl | rfl | rfl | rfl <;> cases hex

/-- The route of an object in front of its digest. -/
def contentsFront (kind : String × String) : List Char :=
  ("/contents/evidence/cas/" ++ casPrefix ++ "/" ++ kind.1 ++ "/sha256").toList

theorem contents_around {kind : String × String} (known : kind ∈ casKinds) :
    (Search.Apart '/' (contentsFront kind) ∧ (contentsFront kind).head? = some '/' ∧
      (contentsFront kind).getLast? = some '6' ∧ ∀ ch ∈ contentsFront kind, ch ∉ noRoute) ∧
    ∀ ch ∈ '.' :: kind.2.toList, ch ≠ '/' ∧ ch ∉ noRoute := by
  simp only [casKinds, List.mem_cons, List.not_mem_nil, or_false] at known
  rcases known with rfl | rfl | rfl <;>
  · exact ⟨⟨by decide, by decide, by decide, List.all_iff_forall_prop.mp (by decide)⟩,
      List.all_iff_forall_prop.mp (by decide)⟩

/-- The contents of an object have a valid route. -/
theorem validRoute_contents {c : HttpCall} {kind : String × String} {digest : String}
    (known : kind ∈ casKinds) (hex : isSha256 digest = true)
    (tail : c.tail = "/contents/" ++ evidencePath (casKey kind.1 kind.2 digest)) :
    validRoute c = true := by
  have size := length_of_isSha256 hex
  have letters : ∀ ch ∈ digest.toList, ch ≠ '/' ∧ ch ∉ noRoute := fun ch inside =>
    lowerHex_plain (List.all_eq_true.mp (Bool.and_eq_true_iff.mp hex).2 ch inside)
  have letters' : ∀ ch ∈ digest.toList.take 2, ch ≠ '/' ∧ ch ∉ noRoute := fun ch inside =>
    letters ch (List.mem_of_mem_take inside)
  have written : c.tail.toList = contentsFront kind ++
      ('/' :: (digest.toList.take 2 ++ '/' :: (digest.toList ++ '.' :: kind.2.toList))) := by
    rw [tail]
    simp [contentsFront, evidencePath, casKey, prefixOf, String.toList_append]
  obtain ⟨⟨apart, first, last, plain⟩, later⟩ := contents_around known
  have whole : Search.Apart '/' c.tail.toList := by
    have nonempty : digest.toList ≠ [] := List.ne_nil_of_length_pos (by omega)
    have nonempty' : digest.toList.take 2 ≠ [] :=
      List.ne_nil_of_length_pos (by rw [List.length_take]; omega)
    rw [written]
    refine apart.append (fun b here => ?_) (Search.apart_cons (fun b h => (letters' b h).1) nonempty'
      (Search.apart_free_append (fun b h => (letters' b h).1)
        (Search.apart_cons (fun b h => (letters b h).1) nonempty
          (Search.apart_free_append (fun b h => (letters b h).1)
            (Search.apart_of_free fun b h => (later b h).1)))))
    rw [last] at here
    cases here
    decide
  have each : ∀ ch ∈ c.tail.toList, ch ∉ noRoute := by
    rw [written]
    simp only [List.forall_mem_append, List.forall_mem_cons (a := '/')]
    exact ⟨plain, by decide, fun ch h => (letters' ch h).2, by decide, fun ch h => (letters ch h).2,
      fun ch h => (later ch h).2⟩
  have starts : c.tail.toList.head? = some '/' := by
    rw [written, List.head?_append, first]
    rfl
  simp only [validRoute, starts, Search.find_twice_eq_none whole, beq_self_eq_true, Bool.true_and,
    List.all_eq_true, decide_eq_true_eq]
  exact each

/-- The JSON of a file of the branch. -/
def fileJson (path : String) (raw : Bytes) : Json := .obj [
  ("type", .str "file"),
  ("path", .str path),
  ("encoding", .str "base64"),
  ("content", .str (String.ofList (Base64.encode raw))),
  ("size", .int raw.length),
  ("sha", .str (Sha1.gitBlob raw))]

/-- A file reads as the bytes that it holds. -/
theorem fileContents_fileJson {path : String} {raw : Bytes} (nonempty : 0 < raw.length)
    (bound : raw.length ≤ casMaxBytes) : fileContents path (fileJson path raw) = .ok raw := by
  have dense : (Base64.encode raw).filter (!isSpace ·) = Base64.encode raw :=
    List.filter_eq_self.mpr (Base64.forall_encode (p := fun c => (!isSpace c) = true)
      (by decide) rfl raw)
  have positive : (0 : Int) < raw.length ∧ (raw.length : Int) ≤ casMaxBytes := by omega
  have type : item "type" (fileJson path raw) = .str "file" := rfl
  have named : item "path" (fileJson path raw) = .str path := rfl
  have encoded : item "encoding" (fileJson path raw) = .str "base64" := rfl
  have content : item "content" (fileJson path raw) = .str (String.ofList (Base64.encode raw)) := rfl
  have size : item "size" (fileJson path raw) = .int raw.length := rfl
  have sha : item "sha" (fileJson path raw) = .str (Sha1.gitBlob raw) := rfl
  have shaped : (fileJson path raw).isObj = true := rfl
  simp only [fileContents, type, named, encoded, content, size, sha, shaped, Json.isStr, Json.str?,
    Json.int?, beq_self_eq_true, and_self, Handoff.need, positive, String.toList_ofList, dense,
    Base64.decode_encode, if_true]
  rfl

end WorkerPool.Issue
