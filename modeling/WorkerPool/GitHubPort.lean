import WorkerPool.IssueBinding
import WorkerPool.Lib.Program
import WorkerPool.Lib.Search

/-!
# The GitHub port

`OfficialGitHubDraftPort` makes one request at a time and takes nothing on trust. What becomes of
a request is known only from its answer: a connection that fails may have written.
-/

namespace WorkerPool.Issue

open PyText

/-- What the handoff raises: `HandoffBlocked`, from the port on account of an answer or from
elsewhere; `AlreadyExists`; or another exception. -/
inductive Handoff where
  | port (reason : String)
  | blocked (reason : String)
  | alreadyExists
  | error
  deriving DecidableEq

/-- The exceptions of code that knows no port. -/
def Handoff.of : Raised → Handoff
  | .blocked [.str reason] => .blocked reason
  | _ => .error

/-- The text of a `HandoffBlocked`. -/
def Handoff.reason? : Handoff → Option String
  | .port reason => some reason
  | .blocked reason => some reason
  | _ => none

def Handoff.need (ok : Prop) [Decidable ok] (e : Handoff) : Except Handoff Unit :=
  if ok then .ok () else .error e

/-! ### Requests -/

/-- What the method that makes a request checks of its result. -/
inductive Shape where
  | any
  | issue
  | comment
  | branch (ref : String)

/-- The methods that `_request` takes. -/
inductive HttpMethod where
  | get
  | post
  | put
  deriving DecidableEq

/-- The arguments of `_request`. -/
structure HttpCall where
  port : Nat
  method : HttpMethod
  tail : String
  query : List (String × String) := []
  payload : Json := .null
  statuses : List Nat := [200]
  missingOk : Bool := false
  shape : Shape := .any

/-- What `result.json()` does. -/
inductive Parsed where
  | value (v : Json)
  | malformed
  | raised

/-- A response; `genuine` is the test of its origin, `jsonType` that of its content type. -/
structure HttpResult where
  genuine : Bool
  status : Nat
  size : Nat
  jsonType : Bool
  json : Parsed

/-- What becomes of a request: it is not made without a token, its connection may fail, the client
may raise something else. -/
inductive Transport where
  | tokenUnavailable
  | tokenInvalid
  | failed
  | raised
  | response (r : HttpResult)

/-- A program reads the clock and makes requests. -/
inductive PortRequest where
  | clock
  | http (c : HttpCall)

@[reducible] def PortReply : PortRequest → Type
  | .clock => Moment
  | .http _ => Transport

abbrev PortProgram (α : Type) : Type := Program Handoff PortRequest PortReply α

def maxJson : Nat := 262144

/-- The name of a branch with the commit of its head. -/
def isBranch (ref : String) (v : Json) : Bool :=
  v.isObj && (item "name" v).isStr ref && (item "commit" v).isObj &&
    (item "sha" (item "commit" v)).isText isSha40

def Shape.verify (data : Json) : Shape → Except Handoff Json
  | .any => .ok data
  | .issue => do
    Handoff.need data.isObj (.port "github_issue_shape_invalid")
    pure data
  | .comment => do
    Handoff.need data.isObj (.port "github_comment_shape_invalid")
    pure data
  | .branch ref => do
    Handoff.need (isBranch ref data) (.port "github_branch_shape_invalid")
    pure data

/-- What the port makes of a response. A missing resource is `null`. -/
def HttpResult.received (c : HttpCall) (r : HttpResult) : Except Handoff Json := do
  Handoff.need r.genuine (.port "github_response_origin_invalid")
  if c.missingOk ∧ r.status = 404 then pure .null
  else
    Handoff.need (r.status ∈ c.statuses) (.port "github_status_unverified")
    Handoff.need (r.size ≤ maxJson ∧ r.jsonType) (.port "github_json_invalid")
    match r.json with
    | .value (.obj fields) => c.shape.verify (.obj fields)
    | .value (.arr items) => c.shape.verify (.arr items)
    | .raised => .error .error
    | _ => .error (.port "github_json_invalid")

/-- What the port makes of an answer. -/
def received (c : HttpCall) : Transport → Except Handoff Json
  | .tokenUnavailable => .error (.port "github_token_file_unavailable")
  | .tokenInvalid => .error (.port "github_token_invalid")
  | .failed => .error (.port "github_result_uncertain")
  | .raised => .error .error
  | .response r => r.received c

/-- `require`. -/
def require (ok : Prop) [Decidable ok] (reason : String) : PortProgram Unit :=
  Program.need ok (.blocked reason)

/-- What `_request` asks of a route. -/
def validRoute (c : HttpCall) : Bool :=
  c.tail.toList.head? == some '/' && Search.find ['/', '/'] c.tail.toList == none &&
    c.tail.toList.all fun ch => ch ∉ ['\\', '?', '#', '\n', '\r']

/-- `_request`. -/
def portRequest (c : HttpCall) : PortProgram Json := do
  require (validRoute c) "github_route_invalid"
  let answer ← Program.request (.http c)
  received c answer

def readClock : PortProgram Moment := Program.request PortRequest.clock

/-- A call of code that raises `Raised`. -/
def fromRaised {α : Type} (x : Except Raised α) : PortProgram α := Program.ofExcept (x.mapError Handoff.of)

/-! ### The methods -/

/-- The letters that `quote` keeps. -/
def isUnreserved (c : Char) : Bool := isAsciiAlnum c || c ∈ ['_', '.', '-', '~']

/-- `quote(text, safe=safe)`. -/
def quote (safe : List Char) (text : String) : String :=
  String.ofList (text.toUTF8.toList.flatMap fun b =>
    let c := Char.ofNat b.toNat
    if b.toNat < 128 ∧ (isUnreserved c ∨ c ∈ safe) then [c]
    else ['%', (Json.hexChar (b.toNat / 16)).toUpper, (Json.hexChar b.toNat).toUpper])

/-- `[1-9][0-9]*-[0-9a-f]{12}` to the end. -/
def isIssueSuffix (cs : List Char) : Bool :=
  let number := cs.takeWhile Char.isDigit
  number.head?.any (· ≠ '0') && match cs.drop number.length with
    | '-' :: sha => hexRun 12 (String.ofList sha)
    | _ => false

/-- `AGENT.fullmatch`. -/
def isAgentBranch (name : String) : Bool :=
  let start := "agent/qwen7b-issue-".toList
  start.isPrefixOf name.toList && isIssueSuffix (name.toList.drop start.length)

/-- `get_issue`. -/
def getIssue (port : Nat) (number : Int) : PortProgram Json := do
  require (0 < number) "github_issue_id_invalid"
  portRequest { port, method := .get, tail := "/issues/" ++ toString number, shape := .issue }

/-- `get_comment`. -/
def getComment (port : Nat) (commentId : Int) : PortProgram Json := do
  require (0 < commentId) "github_comment_id_invalid"
  portRequest
    { port, method := .get, tail := "/issues/comments/" ++ toString commentId, shape := .comment }

/-- `get_branch`. -/
def getBranch (port : Nat) (ref : String) : PortProgram Json := do
  require (ref = "main" ∨ isAgentBranch ref) "github_branch_ref_invalid"
  portRequest { port, method := .get, tail := "/branches/" ++ quote [] ref, missingOk := true,
                shape := .branch ref }

end WorkerPool.Issue
