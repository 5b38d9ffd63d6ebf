import WorkerPool.Lib.JavaScript
import WorkerPool.Lib.PyText

/-!
# Admission of identities

`admittedClaims` admits a token, and `rejectedAdmissionCategory` says why one was not admitted. Each
goes through the rules by itself.
-/

namespace WorkerPool.Continuity

open PyText

def issuer : String := "https://token.actions.githubusercontent.com"

def audience : String := "urn:engineering-worker-pool:continuity:v1"

def owner : String := "ericson-j-santos"

def ownerId : String := "60470500"

structure Principal where
  repository : String
  repositoryId : String
  actor : String
  actorId : String
  eventName : String
  ref : String
  workflowRef : String
  shaPolicy : String

def principals : List (String × Principal) := [
  ("engineering-worker-pool-branch-v1", {
    repository := "ericson-j-santos/engineering-worker-pool"
    repositoryId := "1384155635"
    actor := "ericson-j-santos"
    actorId := "60470500"
    eventName := "push"
    ref := "refs/heads/feat/hosted-cold-checkpoint-resume-20261020"
    workflowRef := "ericson-j-santos/engineering-worker-pool/.github/workflows/native-live-continuity.yml@refs/heads/feat/hosted-cold-checkpoint-resume-20261020"
    shaPolicy := "environment_allowlist" }),
  ("reqsys-handoff-v1", {
    repository := "ericson-j-santos/reqsys-v2-enterprise-real"
    repositoryId := "1228361750"
    actor := "github-actions[bot]"
    actorId := "41898282"
    eventName := "workflow_dispatch"
    ref := "refs/heads/main"
    workflowRef := "ericson-j-santos/reqsys-v2-enterprise-real/.github/workflows/codex-worker-pool-handoff.yml@refs/heads/main"
    shaPolicy := "verified_current_main" })]

/-- The claims of a token: a property that is missing is `undefined`. -/
abbrev Payload : Type := String → JsValue

/-- A `TypeError` of a conversion. -/
inductive Thrown where
  | typeError
  deriving DecidableEq

/-- `HEAD.test`, of a text. -/
def isHead (s : String) : Bool := hexRun 40 s

/-- `UINT.test`, of a text. -/
def isUint (s : String) : Bool :=
  headedRun (fun c => '1' ≤ c && c ≤ '9') (fun c => '0' ≤ c && c ≤ '9') 0 19 s

variable (numberText : Float → String)

/-- `String(value)`. -/
def textOf (v : JsValue) : Except Thrown String :=
  match v.text numberText with
  | some s => .ok s
  | none => .error .typeError

/-- `principalForClaims`. -/
def principalForClaims (payload : Payload) : Option (String × Principal) :=
  let found := principals.filter fun entry =>
    let principal := entry.2
    let required := [
      ("iss", issuer), ("aud", audience),
      ("repository", principal.repository), ("repository_id", principal.repositoryId),
      ("repository_owner", owner), ("repository_owner_id", ownerId),
      ("actor", principal.actor), ("actor_id", principal.actorId),
      ("event_name", principal.eventName), ("ref", principal.ref), ("ref_type", "branch"),
      ("workflow_ref", principal.workflowRef), ("runner_environment", "github-hosted")]
    if required.any fun r => !(payload r.1).strictEquals (.string r.2) then false
    else (payload "sub").strictEquals (.string ("repo:" ++ principal.repository ++ ":ref:" ++ principal.ref))
  if found.length = 1 then found.head? else none

/-- `!UINT.test(String(payload.run_id)) || !UINT.test(String(payload.run_attempt))`. -/
def runInvalid (payload : Payload) : Except Thrown Bool := do
  if !isUint (← textOf numberText (payload "run_id")) then pure true
  else pure !isUint (← textOf numberText (payload "run_attempt"))

/-- `!HEAD.test(payload.sha || "") || payload.workflow_sha !== payload.sha`. -/
def sourceInvalid (payload : Payload) : Except Thrown Bool := do
  if !isHead (← textOf numberText ((payload "sha").orElse (.string ""))) then pure true
  else pure !(payload "workflow_sha").strictEquals (payload "sha")

/-- The allowlist is no list of one to eight distinct SHAs. -/
def allowlistInvalid : JsValue → Bool
  | .array _ items => items.length < 1 || 8 < items.length || !items.all (·.isText isHead) ||
      JsValue.distinctCount items != items.length
  | _ => true

def allowlists (allowedShas sha : JsValue) : Bool :=
  match allowedShas with
  | .array _ items => JsValue.includes items sha
  | _ => false

def provenanceInvalid (payload : Payload) (principal : Principal) : Bool :=
  let present := !(payload "job_workflow_ref").isUndefined || !(payload "job_workflow_sha").isUndefined
  present && (!(payload "job_workflow_ref").strictEquals (.string principal.workflowRef) ||
    !(payload "job_workflow_sha").strictEquals (payload "sha"))

/-- `![payload.iat, payload.nbf, payload.exp].every(Number.isSafeInteger)`. -/
def timesInvalid (payload : Payload) : Bool :=
  !(["iat", "nbf", "exp"].all fun key => (payload key).safeInteger?.isSome)

/-- The comparisons of the times, which are numbers. -/
def outsideTime (payload : Payload) (nowSeconds : Float) : Bool :=
  match (payload "iat").safeInteger?, (payload "nbf").safeInteger?, (payload "exp").safeInteger? with
  | some iat, some nbf, some exp =>
    iat > nowSeconds || nbf > nowSeconds || exp ≤ nowSeconds || nowSeconds - iat > 600 ||
      exp - iat > 600 || exp ≤ iat
  | _, _, _ => false

/-- `admittedClaims`. -/
def admittedClaims (payload : Payload) (allowedShas : JsValue) (nowSeconds : Float)
    (verifiedSourceSha : JsValue) : Except Thrown Bool := do
  match principalForClaims payload with
  | none => pure false
  | some (_, principal) =>
    if ← runInvalid numberText payload then return false
    if ← sourceInvalid numberText payload then return false
    if principal.shaPolicy = "environment_allowlist" then
      if allowlistInvalid allowedShas || !allowlists allowedShas (payload "sha") then return false
    else if principal.shaPolicy = "verified_current_main" then
      if !verifiedSourceSha.strictEquals (payload "sha") then return false
    else return false
    if provenanceInvalid payload principal then return false
    if timesInvalid payload then return false
    if outsideTime payload nowSeconds then return false
    return true

/-- `rejectedAdmissionCategory`. -/
def rejectedAdmissionCategory (payload : Payload) (allowedShas : JsValue) (nowSeconds : Float)
    (verifiedSourceSha : JsValue) : Except Thrown String := do
  match principalForClaims payload with
  | none => pure "principal_unmatched"
  | some (_, principal) =>
    if ← runInvalid numberText payload then return "run_identity_invalid"
    if ← sourceInvalid numberText payload then return "source_identity_invalid"
    if principal.shaPolicy = "environment_allowlist" then
      if allowlistInvalid allowedShas then return "allowlist_configuration_invalid"
      if !allowlists allowedShas (payload "sha") then return "source_sha_not_allowlisted"
    else if principal.shaPolicy = "verified_current_main" then
      if !verifiedSourceSha.strictEquals (payload "sha") then return "verified_source_sha_mismatch"
    else return "source_policy_unknown"
    if provenanceInvalid payload principal then return "job_provenance_invalid"
    if timesInvalid payload || outsideTime payload nowSeconds then return "token_time_invalid"
    if ← admittedClaims numberText payload allowedShas nowSeconds verifiedSourceSha then
      return "allowed"
    else return "unclassified"

/-! ### The rules -/

/-- The rules after the principal, in their order: what is said of a token that fails one, and whether it
fails. -/
def admissionRules (payload : Payload) (allowedShas : JsValue) (nowSeconds : Float)
    (verifiedSourceSha : JsValue) (principal : Principal) : List (String × Except Thrown Bool) :=
  [("run_identity_invalid", runInvalid numberText payload),
    ("source_identity_invalid", sourceInvalid numberText payload)] ++
  (if principal.shaPolicy = "environment_allowlist" then
    [("allowlist_configuration_invalid", .ok (allowlistInvalid allowedShas)),
      ("source_sha_not_allowlisted", .ok (!allowlists allowedShas (payload "sha")))]
  else if principal.shaPolicy = "verified_current_main" then
    [("verified_source_sha_mismatch", .ok (!verifiedSourceSha.strictEquals (payload "sha")))]
  else [("source_policy_unknown", .ok true)]) ++
  [("job_provenance_invalid", .ok (provenanceInvalid payload principal)),
    ("token_time_invalid", .ok (timesInvalid payload || outsideTime payload nowSeconds))]

/-- The first rule that fails; a rule that raises ends the search. -/
def firstFailed : List (String × Except Thrown Bool) → Except Thrown (Option String)
  | [] => .ok none
  | (label, fails) :: rest =>
    match fails with
    | .error e => .error e
    | .ok true => .ok (some label)
    | .ok false => firstFailed rest

/-- What is wrong with a token, if anything is. -/
def failedRule (payload : Payload) (allowedShas : JsValue) (nowSeconds : Float)
    (verifiedSourceSha : JsValue) : Except Thrown (Option String) :=
  match principalForClaims payload with
  | none => .ok (some "principal_unmatched")
  | some (_, principal) =>
    firstFailed (admissionRules numberText payload allowedShas nowSeconds verifiedSourceSha principal)

section Rules

variable {payload : Payload} {allowedShas verifiedSourceSha : JsValue} {nowSeconds : Float}

/-- A token is admitted if no rule fails. -/
theorem admittedClaims_eq : admittedClaims numberText payload allowedShas nowSeconds verifiedSourceSha =
    (failedRule numberText payload allowedShas nowSeconds verifiedSourceSha).map Option.isNone := by
  unfold admittedClaims failedRule admissionRules
  cases principalForClaims payload with
  | none => rfl
  | some entry =>
    obtain ⟨name, principal⟩ := entry
    dsimp only
    generalize runInvalid numberText payload = run, sourceInvalid numberText payload = source,
      allowlistInvalid allowedShas = config, allowlists allowedShas (payload "sha") = listed,
      verifiedSourceSha.strictEquals (payload "sha") = verified,
      provenanceInvalid payload principal = provenance, timesInvalid payload = times,
      outsideTime payload nowSeconds = outside
    match run, source with
    | .error _, _ => rfl
    | .ok true, _ => rfl
    | .ok false, .error _ => rfl
    | .ok false, .ok true => rfl
    | .ok false, .ok false =>
      -- the policies, and then each rule that fails or not
      by_cases env : principal.shaPolicy = "environment_allowlist"
      · simp only [if_pos env]
        cases config <;> cases listed <;> cases provenance <;> cases times <;> cases outside <;> rfl
      · by_cases current : principal.shaPolicy = "verified_current_main"
        · simp only [if_neg env, if_pos current]
          cases verified <;> cases provenance <;> cases times <;> cases outside <;> rfl
        · simp only [if_neg env, if_neg current]
          rfl

/-- The category is the first rule that fails. -/
theorem rejectedAdmissionCategory_eq :
    rejectedAdmissionCategory numberText payload allowedShas nowSeconds verifiedSourceSha =
      (failedRule numberText payload allowedShas nowSeconds verifiedSourceSha).map (·.getD "allowed") := by
  have admits := @admittedClaims_eq numberText payload allowedShas verifiedSourceSha nowSeconds
  unfold rejectedAdmissionCategory
  rw [admits]
  unfold failedRule admissionRules
  cases principalForClaims payload with
  | none => rfl
  | some entry =>
    obtain ⟨name, principal⟩ := entry
    dsimp only
    generalize runInvalid numberText payload = run, sourceInvalid numberText payload = source,
      allowlistInvalid allowedShas = config, allowlists allowedShas (payload "sha") = listed,
      verifiedSourceSha.strictEquals (payload "sha") = verified,
      provenanceInvalid payload principal = provenance, timesInvalid payload = times,
      outsideTime payload nowSeconds = outside
    match run, source with
    | .error _, _ => rfl
    | .ok true, _ => rfl
    | .ok false, .error _ => rfl
    | .ok false, .ok true => rfl
    | .ok false, .ok false =>
      by_cases env : principal.shaPolicy = "environment_allowlist"
      · simp only [if_pos env]
        cases config <;> cases listed <;> cases provenance <;> cases times <;> cases outside <;> rfl
      · by_cases current : principal.shaPolicy = "verified_current_main"
        · simp only [if_neg env, if_pos current]
          cases verified <;> cases provenance <;> cases times <;> cases outside <;> rfl
        · simp only [if_neg env, if_neg current]
          rfl

/-- No rule is labelled as an admission. -/
theorem mem_admissionRules {principal : Principal} {rule : String × Except Thrown Bool}
    (h : rule ∈ admissionRules numberText payload allowedShas nowSeconds verifiedSourceSha principal) :
    rule.1 ≠ "allowed" ∧ rule.1 ≠ "unclassified" := by
  unfold admissionRules at h
  split at h
  · simp only [List.cons_append, List.nil_append, List.mem_cons, List.not_mem_nil, or_false] at h
    rcases h with rfl | rfl | rfl | rfl | rfl | rfl <;> simp
  · split at h
    all_goals
      simp only [List.cons_append, List.nil_append, List.mem_cons, List.not_mem_nil, or_false] at h
      rcases h with rfl | rfl | rfl | rfl | rfl <;> simp

theorem mem_of_firstFailed {rules : List (String × Except Thrown Bool)} {label : String}
    (h : firstFailed rules = .ok (some label)) : (label, .ok true) ∈ rules := by
  induction rules with
  | nil => cases h
  | cons rule rules ih =>
    obtain ⟨name, fails⟩ := rule
    match fails, h with
    | .ok true, h =>
      cases h
      exact List.mem_cons_self
    | .ok false, h => exact List.mem_cons_of_mem _ (ih h)

/-- A rule that failed is not labelled as an admission. -/
theorem failedRule_label {label : String}
    (h : failedRule numberText payload allowedShas nowSeconds verifiedSourceSha = .ok (some label)) :
    label ≠ "allowed" ∧ label ≠ "unclassified" := by
  unfold failedRule at h
  split at h
  · cases h
    decide
  · exact mem_admissionRules numberText (mem_of_firstFailed h)

end Rules

/-- The category of a token is that of an admission exactly if it is admitted, and else the label of the
first rule that fails. -/
theorem category_agrees (payload : Payload) (allowedShas : JsValue) (nowSeconds : Float)
    (verifiedSourceSha : JsValue) :
    (rejectedAdmissionCategory numberText payload allowedShas nowSeconds verifiedSourceSha = .ok "allowed" ↔
      admittedClaims numberText payload allowedShas nowSeconds verifiedSourceSha = .ok true) ∧
    rejectedAdmissionCategory numberText payload allowedShas nowSeconds verifiedSourceSha ≠
      .ok "unclassified" ∧
    ∀ label, admittedClaims numberText payload allowedShas nowSeconds verifiedSourceSha = .ok false →
      (rejectedAdmissionCategory numberText payload allowedShas nowSeconds verifiedSourceSha = .ok label ↔
        failedRule numberText payload allowedShas nowSeconds verifiedSourceSha = .ok (some label)) := by
  rw [admittedClaims_eq, rejectedAdmissionCategory_eq]
  cases failed : failedRule numberText payload allowedShas nowSeconds verifiedSourceSha with
  | error e => exact ⟨⟨fun h => (nomatch h), fun h => (nomatch h)⟩, fun h => (nomatch h),
      fun _ h => (nomatch h)⟩
  | ok found =>
    cases found with
    | none => exact ⟨⟨fun _ => rfl, fun _ => rfl⟩, fun h => absurd (Except.ok.inj h) (by decide),
        fun _ h => absurd (Except.ok.inj h) (by decide)⟩
    | some label =>
      obtain ⟨other, other'⟩ := failedRule_label numberText failed
      refine ⟨⟨fun h => absurd (Except.ok.inj h) other, fun h => (nomatch Except.ok.inj h)⟩,
        fun h => absurd (Except.ok.inj h) other', fun label' _ => ?_⟩
      constructor
      · intro h
        exact congrArg (fun l => Except.ok (some l)) (Except.ok.inj h)
      · intro h
        exact congrArg Except.ok (Option.some.inj (Except.ok.inj h))

end WorkerPool.Continuity
