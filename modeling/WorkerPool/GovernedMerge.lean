import Mathlib

/-!
# The governed merge

`governed_auto_merge.cjs` decides on the data that GitHub gives for a pull request. A field
is `none` where the data has none of the type that the policy compares it with.
-/

namespace WorkerPool.GovernedMerge

def repository : String := "ericson-j-santos/engineering-worker-pool"

def owner : String := "ericson-j-santos"

def actionsAppId : Int := 15368

def marker : String := "<!-- engineering-worker-pool:governed-automerge-v1 -->"

/-! ### What GitHub gives -/

/-- The workflow that a run belongs to. -/
structure Workflow where
  id : Int
  path : String

structure WorkflowRun where
  workflowId : Option Int
  path : Option String
  event : Option String
  status : Option String
  conclusion : Option String
  headSha : Option String
  headBranch : Option String
  headRepository : Option String

/-- An end of a pull request. -/
structure Ref where
  sha : Option String
  ref : Option String
  repo : Option String

structure PullRequest where
  number : Option Int
  state : Option String
  draft : Option Bool
  mergeable : Option Bool
  mergeableState : Option String
  body : Option String
  login : Option String
  head : Ref
  base : Ref
  requestedReviewers : List String
  requestedTeams : List String

structure File where
  filename : Option String
  status : Option String
  previousFilename : Option String

structure Check where
  name : Option String
  headSha : Option String
  status : Option String
  conclusion : Option String
  appId : Option Int

structure Compare where
  behindBy : Option Int
  aheadBy : Option Int
  status : Option String

structure RequiredCheck where
  context : Option String
  appId : Option Int

structure Branch where
  isProtected : Option Bool
  sha : Option String
  requiredChecks : Option (List RequiredCheck)

/-- The argument of `decide`; a review is its state. -/
structure Input where
  repository : Option String
  trigger : Option WorkflowRun
  pr : Option PullRequest
  files : Option (List File)
  checks : Option (List Check)
  workflowRuns : Option (List WorkflowRun)
  compare : Option Compare
  branch : Option Branch
  reviews : Option (List (Option String))

/-- What `decide` returns with `allowed: true`. -/
structure Ready where
  prNumber : Int
  expectedHead : Option String
  expectedBase : Option String
  canaryRequired : Bool
deriving DecidableEq

/-! ### Patterns -/

def ciWorkflow : Workflow := ⟨365494718, ".github/workflows/ci.yml"⟩

def canaryWorkflow : Workflow := ⟨383149508, ".github/workflows/candidate-canary.yml"⟩

def trustedWorkflow (run : WorkflowRun) : Bool :=
  [ciWorkflow, canaryWorkflow].any fun w => run.workflowId == some w.id && run.path == some w.path

def isActive (status : Option String) : Bool :=
  [some "queued", some "pending", some "in_progress", some "requested", some "waiting"].contains
    status

def isHex (c : Char) : Bool := ('0' ≤ c && c ≤ '9') || ('a' ≤ c && c ≤ 'f')

/-- `SHA.test`. -/
def isSha (s : String) : Bool := s.toList.length == 40 && s.toList.all isHex

def isLowerAlnum (c : Char) : Bool := ('0' ≤ c && c ≤ '9') || ('a' ≤ c && c ≤ 'z')

/-- `ALLOWED_PREFIX.test`. -/
def isAllowedBranch (s : String) : Bool :=
  "governed/".toList.isPrefixOf s.toList &&
    match s.toList.drop "governed/".length with
    | c :: rest => isLowerAlnum c && (2 ≤ rest.length && rest.length ≤ 150) &&
        rest.all fun d => isLowerAlnum d || d == '.' || d == '_' || d == '-'
    | [] => false

def isPathChar (c : Char) : Bool :=
  isLowerAlnum c || ('A' ≤ c && c ≤ 'Z') || c == '_' || c == '.' || c == '/' || c == '-'

def scopes : List String := ["app/", "docs/", "scripts/", "tests/"]

/-- The path lies in one of the directories that the policy covers. -/
def InScope (path : String) : Prop := ∃ scope ∈ scopes, scope.toList <+: path.toList

/-- The pattern of an admitted path: a directory of the policy and some more. -/
def isScopedPath (path : String) : Bool :=
  scopes.any fun scope => scope.toList.isPrefixOf path.toList &&
    path.toList.drop scope.length ≠ [] && (path.toList.drop scope.length).all isPathChar

def protectedFiles : List String :=
  ["app/main.py", "app/store.py", "app/native_one_shot.py", "app/native_gateway_commands.py",
    "scripts/governed_auto_merge.cjs", "tests/test_governed_auto_merge.cjs"]

/-! ### The decision -/

/-- The paths that need a canary. -/
def canaryPath (path : String) : Bool :=
  path == "Dockerfile" || path == ".dockerignore" || path == "requirements.txt" ||
    "app/".toList.isPrefixOf path.toList || path == "scripts/candidate_canary_probe.py" ||
    path == "tests/test_candidate_canary_probe.py" ||
    path == ".github/workflows/candidate-canary.yml"

def canaryRequired (files : List File) : Bool := files.any fun file => file.filename.any canaryPath

def currentGreenCheck (checks : List Check) (name : String) (sha : Option String) : Bool :=
  match checks.filter fun c => c.name == some name && c.headSha == sha with
  | [found] => found.status == some "completed" && found.conclusion == some "success" &&
      found.appId == some actionsAppId
  | _ => false

def currentGreenRun (runs : List WorkflowRun) (identity : Workflow) (sha branch : Option String) :
    Bool :=
  runs.any fun r => r.workflowId == some identity.id && r.path == some identity.path &&
    r.event == some "pull_request" && r.headSha == sha && r.headBranch == branch &&
    r.headRepository == some repository && r.status == some "completed" &&
    r.conclusion == some "success"

/-- `if (!c) return block(reason)`. -/
def orBlock (c : Prop) [Decidable c] (reason : String) : Except String Unit :=
  if c then .ok () else .error reason

/-- `x` where `!x` returns `block(reason)`. -/
def present {α : Type} (x : Option α) (reason : String) : Except String α :=
  match x with
  | some a => .ok a
  | none => .error reason

/-- The loop over the files; `seen` are the paths before. -/
def admitFiles : List String → List File → Except String Unit
  | _, [] => .ok ()
  | seen, file :: rest => do
    let path ← present file.filename "manual_review_required"
    orBlock (path ∉ seen ∧ file.status ≠ some "removed" ∧ path.toList.head? ≠ some '.' ∧
      ¬ ['.', '.'] <:+: path.toList ∧ '\\' ∉ path.toList ∧ isScopedPath path ∧
      path ∉ protectedFiles) "manual_review_required"
    admitFiles (path :: seen) rest

/-- `Number.isSafeInteger`. -/
def isSafe (n : Int) : Prop := -9007199254740991 ≤ n ∧ n ≤ 9007199254740991

instance (n : Int) : Decidable (isSafe n) := inferInstanceAs (Decidable (_ ∧ _))

def admitTrigger (trigger : WorkflowRun) : Except String Unit :=
  orBlock (trigger.event = some "pull_request" ∧ trigger.status = some "completed" ∧
    trigger.conclusion = some "success" ∧ trustedWorkflow trigger ∧
    trigger.headRepository = some repository ∧ trigger.headSha.any isSha) "trigger_untrusted"

def admitPullRequest (trigger : WorkflowRun) (pr : PullRequest) : Except String Int := do
  let number ← present pr.number "pr_not_admitted"
  orBlock (pr.state = some "open" ∧ pr.draft = some false ∧ pr.mergeable = some true ∧
    pr.mergeableState = some "clean" ∧ isSafe number ∧ 1 ≤ number ∧ pr.login = some owner ∧
    pr.head.repo = some repository ∧ pr.base.repo = some repository ∧
    pr.base.ref = some "main" ∧ pr.head.ref.any isAllowedBranch ∧
    pr.head.ref = trigger.headBranch ∧ pr.head.sha = trigger.headSha ∧ pr.base.sha.any isSha ∧
    ∃ body ∈ pr.body, marker.toList <:+: body.toList) "pr_not_admitted"
  pure number

def admitBranch (pr : PullRequest) (branch : Branch) : Except String Unit := do
  orBlock (branch.isProtected = some true ∧ branch.sha = pr.base.sha)
    "branch_protection_not_confirmed"
  let required ← present branch.requiredChecks "branch_protection_not_confirmed"
  orBlock (required.any fun c => c.context == some "test" && c.appId == some actionsAppId)
    "branch_protection_not_confirmed"

def admitChecks (trigger : WorkflowRun) (files : List File) (checks : List Check)
    (workflowRuns : List WorkflowRun) : Except String Unit := do
  orBlock ((∀ c ∈ checks, c.headSha = trigger.headSha →
      isActive c.status = false ∧ c.conclusion = some "success") ∧
    currentGreenCheck checks "test" trigger.headSha ∧
    currentGreenRun workflowRuns ciWorkflow trigger.headSha trigger.headBranch)
    "ci_not_fully_verified"
  orBlock (canaryRequired files = true →
    currentGreenCheck checks "candidate-canary" trigger.headSha ∧
      currentGreenRun workflowRuns canaryWorkflow trigger.headSha trigger.headBranch)
    "canary_not_fully_verified"

/-- `decide`. -/
protected def decide (input : Input) : Except String Ready := do
  orBlock (input.repository = some repository) "repository_mismatch"
  let trigger ← present input.trigger "trigger_untrusted"
  admitTrigger trigger
  let pr ← present input.pr "pr_not_admitted"
  let number ← admitPullRequest trigger pr
  let files ← present input.files "diff_scope_invalid"
  orBlock (files.length ≠ 0 ∧ files.length ≤ 25) "diff_scope_invalid"
  admitFiles [] files
  let compare ← present input.compare "branch_out_of_sync"
  orBlock (compare.behindBy = some 0 ∧ (∃ n ∈ compare.aheadBy, isSafe n ∧ 1 ≤ n) ∧
    compare.status = some "ahead") "branch_out_of_sync"
  let branch ← present input.branch "branch_protection_not_confirmed"
  admitBranch pr branch
  let reviews ← present input.reviews "review_not_satisfied"
  orBlock (some "CHANGES_REQUESTED" ∉ reviews ∧ pr.requestedReviewers = [] ∧
    pr.requestedTeams = []) "review_not_satisfied"
  let checks ← present input.checks "ci_not_fully_verified"
  let workflowRuns ← present input.workflowRuns "ci_not_fully_verified"
  admitChecks trigger files checks workflowRuns
  pure ⟨number, trigger.headSha, pr.base.sha, canaryRequired files⟩

/-! ### What the files of a pull request change -/

/-- The path that a file is renamed from. -/
def File.renamedFrom (file : File) : Option String :=
  if file.status = some "renamed" then file.previousFilename else none

/-- The path at which a file is no more. -/
def File.removes (file : File) : Option String :=
  if file.status = some "removed" then file.filename else file.renamedFrom

def Input.fileList (input : Input) : List File := input.files.getD []

/-- Every path that the pull request adds, modifies or removes. -/
def Input.Affects (input : Input) (path : String) : Prop :=
  ∃ file ∈ input.fileList, file.filename = some path ∨ file.renamedFrom = some path

/-- The canary has passed for the head of the pull request. -/
def Input.CanaryVerified (input : Input) : Prop :=
  ∃ pr checks runs, input.pr = some pr ∧ input.checks = some checks ∧
    input.workflowRuns = some runs ∧
    currentGreenCheck checks "candidate-canary" pr.head.sha = true ∧
    currentGreenRun runs canaryWorkflow pr.head.sha pr.head.ref = true

/-- What the policy grants: the change stays in scope, keeps off the protected files, removes
none, and has passed the canary where it needs one. -/
structure Input.Governed (input : Input) : Prop where
  within : ∀ path, input.Affects path → InScope path ∧ path ∉ protectedFiles
  kept : ∀ file ∈ input.fileList, file.removes = none
  canary : ∀ path, input.Affects path → canaryPath path = true → input.CanaryVerified

/-! ### What a decision has seen -/

theorem bind_eq_ok {α β : Type} {x : Except String α} {f : α → Except String β} {b : β} :
    (x >>= f) = .ok b ↔ ∃ a, x = .ok a ∧ f a = .ok b := by
  cases x with
  | error e => simp [bind, Except.bind]
  | ok a => simp [bind, Except.bind]

theorem orBlock_eq_ok {c : Prop} [Decidable c] {reason : String} {u : Unit} :
    orBlock c reason = .ok u ↔ c := by
  unfold orBlock
  split <;> simp_all

theorem present_eq_ok {α : Type} {x : Option α} {reason : String} {a : α} :
    present x reason = .ok a ↔ x = some a := by
  cases x <;> simp [present]

theorem admitFiles_ok {seen : List String} {files : List File}
    (h : admitFiles seen files = .ok ()) : ∀ file ∈ files, ∃ path, file.filename = some path ∧
      file.status ≠ some "removed" ∧ InScope path ∧ path ∉ protectedFiles := by
  induction files generalizing seen with
  | nil => exact fun file inside => absurd inside List.not_mem_nil
  | cons first rest ih =>
    obtain ⟨path, named, h⟩ := bind_eq_ok.mp h
    obtain ⟨⟨⟩, checked, later⟩ := bind_eq_ok.mp h
    obtain ⟨-, present_, -, -, -, fits, free⟩ := orBlock_eq_ok.mp checked
    obtain ⟨scope, covers, pattern⟩ := List.any_eq_true.mp fits
    simp only [Bool.and_eq_true] at pattern
    have inScope : InScope path := ⟨scope, covers, List.isPrefixOf_iff_prefix.mp pattern.1.1⟩
    intro file inside
    rcases List.mem_cons.mp inside with rfl | inside
    · exact ⟨path, present_eq_ok.mp named, present_, inScope, free⟩
    · exact ih later file inside

/-- What an allowing decision has checked of the files and of the canary. -/
theorem decide_ok {input : Input} {ready : Ready} (h : GovernedMerge.decide input = .ok ready) :
    ∃ files pr checks runs, input.files = some files ∧ input.pr = some pr ∧
      input.checks = some checks ∧ input.workflowRuns = some runs ∧
      admitFiles [] files = .ok () ∧ (canaryRequired files = true →
        currentGreenCheck checks "candidate-canary" pr.head.sha = true ∧
        currentGreenRun runs canaryWorkflow pr.head.sha pr.head.ref = true) := by
  obtain ⟨_, -, h⟩ := bind_eq_ok.mp h
  obtain ⟨trigger, -, h⟩ := bind_eq_ok.mp h
  obtain ⟨_, -, h⟩ := bind_eq_ok.mp h
  obtain ⟨pr, hasPr, h⟩ := bind_eq_ok.mp h
  obtain ⟨number, admitted, h⟩ := bind_eq_ok.mp h
  obtain ⟨files, hasFiles, h⟩ := bind_eq_ok.mp h
  obtain ⟨_, -, h⟩ := bind_eq_ok.mp h
  obtain ⟨_, admittedFiles, h⟩ := bind_eq_ok.mp h
  obtain ⟨_, -, h⟩ := bind_eq_ok.mp h
  obtain ⟨_, -, h⟩ := bind_eq_ok.mp h
  obtain ⟨_, -, h⟩ := bind_eq_ok.mp h
  obtain ⟨_, -, h⟩ := bind_eq_ok.mp h
  obtain ⟨_, -, h⟩ := bind_eq_ok.mp h
  obtain ⟨_, -, h⟩ := bind_eq_ok.mp h
  obtain ⟨checks, hasChecks, h⟩ := bind_eq_ok.mp h
  obtain ⟨runs, hasRuns, h⟩ := bind_eq_ok.mp h
  obtain ⟨_, verified, -⟩ := bind_eq_ok.mp h
  obtain ⟨_, -, canary⟩ := bind_eq_ok.mp verified
  obtain ⟨_, -, same⟩ := bind_eq_ok.mp admitted
  obtain ⟨_, identity, -⟩ := bind_eq_ok.mp same
  obtain ⟨-, -, -, -, -, -, -, -, -, -, -, branch, head, -⟩ := orBlock_eq_ok.mp identity
  refine ⟨files, pr, checks, runs, present_eq_ok.mp hasFiles, present_eq_ok.mp hasPr,
    present_eq_ok.mp hasChecks, present_eq_ok.mp hasRuns, admittedFiles, ?_⟩
  rw [branch, head]
  exact orBlock_eq_ok.mp canary

/-- An admitted change is governed exactly where it renames nothing: a rename removes a path that
the policy has not looked at. -/
theorem governed_iff_no_rename {input : Input} {ready : Ready}
    (h : GovernedMerge.decide input = .ok ready) :
    input.Governed ↔ ∀ file ∈ input.fileList, file.renamedFrom = none := by
  obtain ⟨files, pr, checks, runs, hasFiles, hasPr, hasChecks, hasRuns, admitted, canary⟩ :=
    decide_ok h
  have listed : input.fileList = files := by rw [Input.fileList, hasFiles, Option.getD_some]
  have checked := admitFiles_ok admitted
  constructor
  · intro governed file inside
    have kept := governed.kept file inside
    rw [listed] at inside
    obtain ⟨path, -, not_removed, -⟩ := checked file inside
    rw [File.removes, if_neg not_removed] at kept
    exact kept
  · intro unrenamed
    have named : ∀ path, input.Affects path → ∃ file ∈ files, file.filename = some path := by
      rintro path ⟨file, inside, named | renamed⟩
      · exact ⟨file, listed ▸ inside, named⟩
      · rw [unrenamed file inside] at renamed
        cases renamed
    refine ⟨fun path affected => ?_, fun file inside => ?_, fun path affected needed => ?_⟩
    · obtain ⟨file, inside, name⟩ := named path affected
      obtain ⟨path', name', -, fits, free⟩ := checked file inside
      obtain rfl := Option.some.inj (name.symm.trans name')
      exact ⟨fits, free⟩
    · obtain ⟨path, -, not_removed, -⟩ := checked file (listed ▸ inside)
      rw [File.removes, if_neg not_removed]
      exact unrenamed file inside
    · obtain ⟨file, inside, name⟩ := named path affected
      have required : canaryRequired files = true := by
        refine List.any_eq_true.mpr ⟨file, inside, ?_⟩
        rw [name]
        exact needed
      exact ⟨pr, checks, runs, hasPr, hasChecks, hasRuns, canary required⟩

namespace Sample

def sha : String := "aaaaaaaaaaaaaaaaaaaaaaaaaaaaaaaaaaaaaaaa"

def baseSha : String := "bbbbbbbbbbbbbbbbbbbbbbbbbbbbbbbbbbbbbbbb"

def headBranch : String := "governed/real-fix-20261014"

def ciRun : WorkflowRun where
  workflowId := some ciWorkflow.id
  path := some ciWorkflow.path
  event := some "pull_request"
  status := some "completed"
  conclusion := some "success"
  headSha := some sha
  headBranch := some headBranch
  headRepository := some repository

def pullRequest : PullRequest where
  number := some 42
  state := some "open"
  draft := some false
  mergeable := some true
  mergeableState := some "clean"
  body := some marker
  login := some owner
  head := ⟨some sha, some headBranch, some repository⟩
  base := ⟨some baseSha, some "main", some repository⟩
  requestedReviewers := []
  requestedTeams := []

/-- A pull request on these files, whose tests have passed and which no canary has seen. -/
def tested (files : List File) : Input where
  repository := some repository
  trigger := some ciRun
  pr := some pullRequest
  files := some files
  checks := some [⟨some "test", some sha, some "completed", some "success", some actionsAppId⟩]
  workflowRuns := some [ciRun]
  compare := some ⟨some 0, some 1, some "ahead"⟩
  branch := some ⟨some true, some baseSha, some [⟨some "test", some actionsAppId⟩]⟩
  reviews := some []

/-- A protected module becomes a document. -/
def renamed : Input :=
  tested [⟨some "docs/store.txt", some "renamed", some "app/store.py"⟩]

def documenting : Input := tested [⟨some "docs/CHANGELOG.md", some "added", none⟩]

end Sample

theorem documenting_admitted : GovernedMerge.decide Sample.documenting =
    .ok ⟨42, some Sample.sha, some Sample.baseSha, false⟩ := by
  decide +kernel

theorem governed_sample : Sample.documenting.Governed :=
  (governed_iff_no_rename documenting_admitted).mpr (by decide)

/-- The policy lets a protected module disappear, and asks for no canary. -/
theorem rename_admitted :
    GovernedMerge.decide Sample.renamed =
      .ok ⟨42, some Sample.sha, some Sample.baseSha, false⟩ ∧
    (Sample.renamed.Affects "app/store.py" ∧ "app/store.py" ∈ protectedFiles ∧
      canaryPath "app/store.py" = true ∧ ¬ Sample.renamed.CanaryVerified) ∧
    ¬ Sample.renamed.Governed := by
  have affected : Sample.renamed.Affects "app/store.py" :=
    ⟨_, List.mem_singleton.mpr rfl, .inr rfl⟩
  have guarded : "app/store.py" ∈ protectedFiles := by decide
  refine ⟨by decide +kernel, ⟨affected, guarded, by decide, ?_⟩, fun governed => ?_⟩
  · rintro ⟨pr, checks, runs, ⟨⟩, ⟨⟩, ⟨⟩, green, -⟩
    revert green
    decide
  · exact (governed.within _ affected).2 guarded

end WorkerPool.GovernedMerge
