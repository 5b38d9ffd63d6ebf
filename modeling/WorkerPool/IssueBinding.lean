import WorkerPool.Artifact

/-!
# Issues that their owner has approved

`admit` binds an open issue, a comment of the owner and the head of `main` together. What is
named after the binding follows from the issue number and the commit alone. `Raised.blocked`
is `HandoffBlocked` here, and `need` is `require`.
-/

namespace WorkerPool.Issue

open PyText

def repo : String := "ericson-j-santos/engineering-worker-pool"

def owner : String := "ericson-j-santos"

def profile : String := "bridge.property.v1"

def sourcePath : String := "app/portfolio_bridge.py"

/-- `value.get(key)` of a value that is known to be a dictionary. -/
def item (key : String) : Json → Json
  | .obj fields => Json.field key fields
  | _ => .null

/-- A `datetime`, with what its `isoformat` writes. -/
structure Moment where
  reading : Expiry
  isoformat : String

/-- The microseconds of a time that has an offset. -/
def aware (time : Expiry) (reason : String) : Except Raised Int :=
  match time with
  | .aware micros => .ok micros
  | .naive => .error (.blocked [.str reason])

/-- `observed_date`. -/
def observedDate (it : Interpreter) (raw : String) : Except Raised Int :=
  match it.fromIso raw with
  | some time => aware time "observation_timezone_required"
  | none => .error (.blocked [.str "observation_timestamp_invalid"])

structure IssueBinding where
  number : Int
  baseSha : String
  commentId : Int
  requestId : String
  correlationId : String
  branch : String
  deriving DecidableEq

/-- The text whose digest names the request of an issue. -/
def identityOf (number : Int) (baseSha : String) : String :=
  repo ++ "#" ++ toString number ++ ":" ++ profile ++ ":" ++ baseSha

/-- What both the correlation and the branch of an issue end with. -/
def issueName (number : Int) (baseSha : String) : String :=
  "qwen7b-issue-" ++ toString number ++ "-" ++ prefixOf 12 baseSha

def draftBranch (number : Int) (baseSha : String) : String := "agent/" ++ issueName number baseSha

/-- What `admit` makes of an issue and a comment that it accepts. -/
def IssueBinding.of (number : Int) (baseSha : String) (commentId : Int) : IssueBinding where
  number := number
  baseSha := baseSha
  commentId := commentId
  requestId := "issue-" ++ Sha256.hexdigest (identityOf number baseSha)
  correlationId := issueName number baseSha
  branch := draftBranch number baseSha

/-- The number of an issue that is open, and no pull request, in the repository. -/
def issueIdentity (issue : Json) : Except Raised Int :=
  match (item "number" issue).int? with
  | some number => do
    need (0 < number ∧ (item "state" issue).isStr "open" ∧ (item "pull_request" issue).isFalsy ∧
      (item "html_url" issue).isStr ("https://github.com/" ++ repo ++ "/issues/" ++ toString number) ∧
      (item "repository_url" issue).isStr ("https://api.github.com/repos/" ++ repo))
      "issue_identity_invalid"
    pure number
  | none => .error (.blocked [.str "issue_identity_invalid"])

/-- The id of the comment in which the owner authorizes the issue at a commit. -/
def authorization (comment : Json) (number : Int) (baseSha : String) : Except Raised Int :=
  match (item "id" comment).int? with
  | some commentId => do
    let user := item "user" comment
    need (0 < commentId ∧ user.isObj ∧ (item "login" user).isStr owner ∧
      (item "type" user).isStr "User" ∧ (item "author_association" comment).isStr "OWNER" ∧
      (item "issue_url" comment).isStr
        ("https://api.github.com/repos/" ++ repo ++ "/issues/" ++ toString number) ∧
      (item "body" comment).isStr ("/local-agent authorize " ++ profile ++ " sha:" ++ baseSha))
      "owner_authorization_missing"
    pure commentId
  | none => .error (.blocked [.str "owner_authorization_missing"])

/-- `admit`. -/
def admitBinding (it : Interpreter) (issue comment branch : Json) (baseSha observedAt : String)
    (now : Expiry) : Except Raised IssueBinding := do
  need (issue.isObj ∧ comment.isObj ∧ branch.isObj) "untrusted_snapshot_shape"
  let now ← aware now "now_timezone_required"
  need (isSha40 baseSha) "base_sha_invalid"
  let timestamp ← observedDate it observedAt
  let age := now - timestamp
  need (0 ≤ age ∧ age ≤ 300000000) "github_observation_stale_or_future"
  let number ← issueIdentity issue
  let commit := item "commit" branch
  need ((item "name" branch).isStr "main" ∧ commit.isObj ∧ (item "sha" commit).isStr baseSha)
    "main_head_drift"
  let commentId ← authorization comment number baseSha
  pure (.of number baseSha commentId)

/-- The reads of `GitHubDraftPort`, as they are answered at one time; a branch that is missing is
`null`. -/
structure GitHubReads where
  getBranch : String → Except Raised Json
  getIssue : Int → Except Raised Json
  getComment : Int → Except Raised Json
  getSource : String → Except Raised (Bytes × String)

/-- What a binding that was admitted has in common with every other. -/
structure IssueBinding.Admitted (b : IssueBinding) : Prop where
  number : 0 < b.number
  baseSha : isSha40 b.baseSha = true
  named : b = .of b.number b.baseSha b.commentId

section Admit

variable {it : Interpreter} {issue comment branch : Json} {baseSha observedAt : String}
  {now : Expiry} {b : IssueBinding}

theorem issueIdentity_positive {number : Int} (h : issueIdentity issue = .ok number) : 0 < number := by
  unfold issueIdentity at h
  cases found : (item "number" issue).int? with
  | none =>
    rw [found] at h
    cases h
  | some n =>
    rw [found] at h
    obtain ⟨checked, same⟩ := need_bind_eq_ok.mp h
    cases same
    exact checked.1

/-- A binding is admitted for the commit asked for, and its names are those of the issue. -/
theorem admitBinding_eq_ok (h : admitBinding it issue comment branch baseSha observedAt now = .ok b) :
    b.Admitted ∧ b.baseSha = baseSha := by
  obtain ⟨-, rest⟩ := need_bind_eq_ok.mp h
  obtain ⟨_, _, rest⟩ := bind_eq_ok.mp rest
  obtain ⟨sha, rest⟩ := need_bind_eq_ok.mp rest
  obtain ⟨_, _, rest⟩ := bind_eq_ok.mp rest
  obtain ⟨-, rest⟩ := need_bind_eq_ok.mp rest
  obtain ⟨number, identity, rest⟩ := bind_eq_ok.mp rest
  obtain ⟨-, rest⟩ := need_bind_eq_ok.mp rest
  obtain ⟨commentId, _, named⟩ := bind_eq_ok.mp rest
  cases named
  exact ⟨⟨issueIdentity_positive identity, sha, rfl⟩, rfl⟩

end Admit

end WorkerPool.Issue
