import WorkerPool.StructuredTask

/-!
# Reports of the validator child

The child calls the candidate for each case of a task and reports what failed; its parent checks the
report. Both compare a result with the expected value by its outermost type and Python's equality.
-/

namespace WorkerPool

open PyText

/-- What calling the candidate comes to: an exception, with the name of its type and the lines of the
candidate's own frames, a value that is not JSON, or a JSON value. -/
inductive CallResult where
  | raised (name : String) (lines : List Int)
  | foreign
  | value (v : Json)

def observationTypes : List String := ["NoneType", "str", "bool", "int", "float", "list", "dict"]

def exceptionTypes : List String :=
  ["AttributeError", "TypeError", "ValueError", "KeyError", "IndexError", "NameError", "UnboundLocalError",
    "OverflowError", "RuntimeError", "RecursionError", "MemoryError", "InvalidResult", "Exception"]

def candidateExceptionLine (lines : List Int) : Option Int :=
  (lines.filter fun line => 1 ≤ line && line ≤ 400).getLast?

/-- The observation of a value that is short enough to be shown. -/
def shown (value : Json) : Json :=
  .obj [("kind", .str "value"), ("type", .str value.typeName), ("value", value)]

/-- The bytes that `observation` measures. -/
def encoded (it : Interpreter) (value : Json) : List Char := value.sorted.spaced false it.floatRepr

def observation (it : Interpreter) (value : Json) : Except Raised Json := do
  jsonValue 0 value
  let bytes := Json.byteLength (encoded it value)
  if 512 < bytes then
    pure (.obj [("kind", .str "value"), ("type", .str value.typeName), ("truncated", .bool true),
      ("bytes", .int bytes), ("sha256", .str (it.sha256 (String.ofList (encoded it value))))])
  else pure (shown value)

/-- `key in value`. -/
def hasKey (key : String) : Json → Bool
  | .obj fields => (Json.lookup key fields).isSome
  | _ => false

/-- `type(value) is dict and set(value) == names`. -/
def keysAre (names : List String) : Json → Bool
  | .obj fields => Json.sameSet (Json.keys fields) names
  | _ => false

/-- `type(value) is int and lo <= value <= hi`. -/
def isIntIn (lo hi : Int) (value : Json) : Bool := value.int?.any fun n => lo ≤ n && n ≤ hi

def validateObservation (it : Interpreter) (value : Json) : Except Raised Unit := do
  need value.isObj "observation_schema"
  if (member "kind" value).isStr "exception" then
    let hasLine := hasKey "candidate_line" value
    let expected := if hasLine then ["kind", "type", "candidate_line"] else ["kind", "type"]
    need (keysAre expected value ∧ (member "type" value).isText (· ∈ exceptionTypes) ∧
      (!hasLine || isIntIn 1 400 (member "candidate_line" value))) "observation_exception"
  else
    need ((member "kind" value).isStr "value" ∧ (member "type" value).isText (· ∈ observationTypes))
      "observation_type"
    if hasKey "value" value then
      need (keysAre ["kind", "type", "value"] value ∧
        (member "type" value).isStr (member "value" value).typeName) "observation_value"
      let again ← observation it (member "value" value)
      need (again.pyEq value) "observation_size"
    else
      need (keysAre ["kind", "type", "truncated", "bytes", "sha256"] value ∧
        (member "truncated" value).isTrue ∧ (member "bytes" value).int?.any (512 < ·) ∧
        (member "sha256" value).isText (hexRun 64)) "observation_digest"

/-- `task["cases"][index]["expected"]`. -/
def expectedAt (task : Json) (index : Nat) : Json :=
  member "expected" ((taskCases task)[index]?.getD .null)

/-- `failure["case_index"]`. -/
def caseIndex (failure : Json) : Int := (member "case_index" failure).int?.getD 0

/-- The body of the loop of `validate_report`. -/
def checkFailure (it : Interpreter) (task failure : Json) : Except Raised Unit := do
  need (keysAre ["case_index", "observed"] failure ∧
    isIntIn 0 ((taskCases task).length - 1) (member "case_index" failure)) "validator_case"
  validateObservation it (member "observed" failure)
  let observed := member "observed" failure
  if hasKey "value" observed then
    let expected := expectedAt task (caseIndex failure).toNat
    need ((member "value" observed).typeName ≠ expected.typeName ∨ (member "value" observed).pyEq expected = false)
      "validator_false_failure"

def isException (failure : Json) : Bool := (member "kind" (member "observed" failure)).isStr "exception"

/-- `validate_report`. A list equals its sorted set if it is increasing. -/
def validateReport (it : Interpreter) (evidence task : Json) : Except Raised Json := do
  need (keysAre ["passed", "total", "errors", "failures"] evidence) "validator_evidence"
  let total : Int := (taskCases task).length
  let passed := (member "passed" evidence).int?.getD 0
  need (isIntIn total total (member "total" evidence) ∧ isIntIn 0 total (member "passed" evidence) ∧
    isIntIn 0 (total - passed) (member "errors" evidence)) "validator_counts"
  let size := (total - passed).toNat
  need (isListOf size size (member "failures" evidence)) "validator_failures"
  let failures := listOf (member "failures" evidence)
  each (checkFailure it task) failures
  need ((failures.map caseIndex).Pairwise (· < ·)) "validator_case_order"
  need ((failures.countP isException : Int) = (member "errors" evidence).int?.getD 0) "validator_error_count"
  pure evidence

/-! ### The child -/

/-- What the child makes of one case: it passed, it failed with an observation, or it is an error. -/
inductive Judgement where
  | passed
  | failed (observed : Json)
  | erred (observed : Json)

/-- The observation of an exception of one category. -/
def exceptionObserved (category : String) (line : Option Int) : Json :=
  .obj ([("kind", .str "exception"), ("type", .str (if category ∈ exceptionTypes then category else "Exception"))] ++
    line.toList.map fun n => ("candidate_line", .int n))

def judge (it : Interpreter) (expected : Json) : CallResult → Judgement
  | .raised name lines => .erred (exceptionObserved name (candidateExceptionLine lines))
  | .foreign => .erred (exceptionObserved "InvalidResult" none)
  | .value result =>
    match jsonValue 0 result with
    | .error _ => .erred (exceptionObserved "InvalidResult" none)
    | .ok _ =>
      if result.typeName = expected.typeName ∧ result.pyEq expected then .passed
      else
        match observation it result with
        | .error _ => .erred (exceptionObserved "InvalidResult" none)
        | .ok observed => .failed observed

structure Tally where
  passed : Nat
  errors : Nat
  failures : List Json

def failureOf (index : Nat) (observed : Json) : Json :=
  .obj [("case_index", .int index), ("observed", observed)]

/-- The body of the loop of `_validate_child`. -/
def countCase (it : Interpreter) (candidate : List Json → CallResult) (tally : Tally) (entry : Json × Nat) : Tally :=
  match judge it (member "expected" entry.1) (candidate (listOf (member "args" entry.1))) with
  | .passed => { tally with passed := tally.passed + 1 }
  | .failed observed => { tally with failures := tally.failures ++ [failureOf entry.2 observed] }
  | .erred observed =>
    { tally with errors := tally.errors + 1, failures := tally.failures ++ [failureOf entry.2 observed] }

def runCases (it : Interpreter) (candidate : List Json → CallResult) (cases : List Json) : Tally :=
  cases.zipIdx.foldl (countCase it candidate) ⟨0, 0, []⟩

def reportOf (passed total errors : Int) (failures : List Json) : Json :=
  .obj [("passed", .int passed), ("total", .int total), ("errors", .int errors), ("failures", .arr failures)]

/-- The report that `_validate_child` prints. -/
def childReport (it : Interpreter) (task : Json) (candidate : List Json → CallResult) : Json :=
  let tally := runCases it candidate (taskCases task)
  reportOf tally.passed (taskCases task).length tally.errors tally.failures

/-! ### What the child counts -/

variable {it : Interpreter}

/-- The failure that the child lists for a case, if it does not pass. -/
def Judgement.failure (index : Nat) : Judgement → Option Json
  | .passed => none
  | .failed observed | .erred observed => some (failureOf index observed)

def Judgement.isPassed : Judgement → Bool
  | .passed => true
  | _ => false

def Judgement.isError : Judgement → Bool
  | .erred _ => true
  | _ => false

/-- The judgement on a case. -/
def judgeCase (it : Interpreter) (candidate : List Json → CallResult) (case : Json) : Judgement :=
  judge it (member "expected" case) (candidate (listOf (member "args" case)))

/-- The failures that the child lists for the cases, numbered from `start`. -/
def listed (it : Interpreter) (candidate : List Json → CallResult) (cases : List Json) (start : Nat) : List Json :=
  (cases.zipIdx start).filterMap fun entry => (judgeCase it candidate entry.1).failure entry.2

theorem listed_cons (candidate : List Json → CallResult) (case : Json) (rest : List Json) (start : Nat) :
    listed it candidate (case :: rest) start =
      ((judgeCase it candidate case).failure start).toList ++ listed it candidate rest (start + 1) := by
  simp only [listed, List.zipIdx_cons, List.filterMap_cons]
  cases (judgeCase it candidate case).failure start <;> rfl

theorem countCase_eq (candidate : List Json → CallResult) (tally : Tally) (entry : Json × Nat) :
    countCase it candidate tally entry =
      { passed := tally.passed + (judgeCase it candidate entry.1).isPassed.toNat
        errors := tally.errors + (judgeCase it candidate entry.1).isError.toNat
        failures := tally.failures ++ ((judgeCase it candidate entry.1).failure entry.2).toList } := by
  unfold countCase judgeCase
  split <;> rename_i judged <;> simp [judged, Judgement.failure, Judgement.isPassed, Judgement.isError]

theorem countCase_foldl (candidate : List Json → CallResult) (cases : List Json) (start : Nat) (tally : Tally) :
    (cases.zipIdx start).foldl (countCase it candidate) tally =
      { passed := tally.passed + cases.countP fun case => (judgeCase it candidate case).isPassed
        errors := tally.errors + cases.countP fun case => (judgeCase it candidate case).isError
        failures := tally.failures ++ listed it candidate cases start } := by
  induction cases generalizing start tally with
  | nil => simp [listed]
  | cons case rest ih =>
    rw [List.zipIdx_cons, List.foldl_cons, ih, countCase_eq, listed_cons]
    simp only [List.countP_cons, List.append_assoc, Tally.mk.injEq, and_true]
    constructor
    · cases (judgeCase it candidate case).isPassed with
      | false => simp
      | true => simp only [Bool.toNat_true, if_true]; omega
    · cases (judgeCase it candidate case).isError with
      | false => simp
      | true => simp only [Bool.toNat_true, if_true]; omega

/-- What the loop of the child leaves. -/
theorem runCases_eq (candidate : List Json → CallResult) (cases : List Json) :
    runCases it candidate cases =
      { passed := cases.countP fun case => (judgeCase it candidate case).isPassed
        errors := cases.countP fun case => (judgeCase it candidate case).isError
        failures := listed it candidate cases 0 } := by
  unfold runCases
  rw [countCase_foldl]
  simp

/-- Every case passes or is listed. -/
theorem passed_add_listed (candidate : List Json → CallResult) (cases : List Json) (start : Nat) :
    (cases.countP fun case => (judgeCase it candidate case).isPassed) + (listed it candidate cases start).length =
      cases.length := by
  induction cases generalizing start with
  | nil => rfl
  | cons case rest ih =>
    have more := ih (start + 1)
    have one : (if (judgeCase it candidate case).isPassed = true then 1 else 0) +
        ((judgeCase it candidate case).failure start).toList.length = 1 := by
      cases judgeCase it candidate case <;> rfl
    rw [List.countP_cons, listed_cons, List.length_append, List.length_cons]
    omega

theorem failureOf_inj {index index' : Nat} {observed observed' : Json}
    (same : failureOf index observed = failureOf index' observed') : index = index' := by
  simp only [failureOf, Json.obj.injEq, List.cons.injEq, Prod.mk.injEq, Json.int.injEq, true_and] at same
  omega

/-- A case is listed exactly if it did not pass. -/
theorem failureOf_mem_listed {candidate : List Json → CallResult} {cases : List Json} {index : Nat} {case : Json}
    (held : cases[index]? = some case) :
    (∃ observed, failureOf index observed ∈ listed it candidate cases 0) ↔
      judgeCase it candidate case ≠ .passed := by
  have place : (case, index) ∈ cases.zipIdx := List.mem_zipIdx_iff_getElem?.mpr held
  constructor
  · rintro ⟨observed, mem⟩ passed
    obtain ⟨⟨case', index'⟩, place', failure⟩ := List.mem_filterMap.mp mem
    have held' := List.mem_zipIdx_iff_getElem?.mp place'
    have same : index' = index := by
      cases judged : judgeCase it candidate case' <;> simp only [judged, Judgement.failure] at failure
      · cases failure
      all_goals exact failureOf_inj (Option.some.inj failure)
    subst same
    obtain rfl : case = case' := Option.some.inj (held.symm.trans held')
    simp [passed, Judgement.failure] at failure
  · intro failed
    cases judged : judgeCase it candidate case with
    | passed => exact absurd judged failed
    | failed observed | erred observed =>
      exact ⟨observed, List.mem_filterMap.mpr ⟨_, place, by simp [judged, Judgement.failure]⟩⟩

theorem judge_passed {expected v : Json} : judge it expected (.value v) = .passed ↔
    jsonValue 0 v = .ok () ∧ v.typeName = expected.typeName ∧ v.pyEq expected = true := by
  simp only [judge]
  split
  case h_1 refused => simp [refused]
  case h_2 within =>
    by_cases equal : v.typeName = expected.typeName ∧ v.pyEq expected = true
    · simp [within, equal]
    · rw [if_neg equal]
      cases observation it v <;> simp [equal]

/-- The result and the expected value are of one type and equal for Python, and differ as JSON: numbers of
different types are taken for one another inside them. -/
def Confused (result expected : Json) : Prop :=
  result.typeName = expected.typeName ∧ result.pyEq expected = true ∧ Json.Mixed result expected

theorem confused_iff {v w : Json} :
    Confused v w ↔ ¬ (v.typeName = w.typeName ∧ v.pyEq w = true ↔ v.same w = true) := by
  constructor
  · rintro ⟨alike, equal, mixed⟩ agree
    exact ((Json.same_iff v w).mp (agree.mp ⟨alike, equal⟩)).2 mixed
  · intro differ
    by_contra plain
    refine differ ⟨fun ⟨alike, equal⟩ => ?_, fun same => ?_⟩
    · exact (Json.same_iff v w).mpr ⟨equal, fun mixed => plain ⟨alike, equal, mixed⟩⟩
    · exact ⟨Json.typeName_of_same same, ((Json.same_iff v w).mp same).1⟩

/-! ### What the parent accepts -/

theorem typeName_mem (v : Json) : v.typeName ∈ observationTypes := by
  cases v <;> simp [Json.typeName, observationTypes]

theorem observation_shown {v : Json} (h : observation it v = .ok (shown v)) :
    jsonValue 0 v = .ok () ∧ Json.byteLength (encoded it v) ≤ 512 := by
  simp only [observation, bind_eq_ok] at h
  obtain ⟨_, within, h⟩ := h
  refine ⟨within, ?_⟩
  by_contra long
  rw [if_pos (by omega)] at h
  simp [pure, Except.pure, shown] at h

@[simp] theorem member_kind_shown (v : Json) : member "kind" (shown v) = .str "value" := by
  simp [member, shown, Json.field, Json.lookup]

@[simp] theorem member_type_shown (v : Json) : member "type" (shown v) = .str v.typeName := by
  simp [member, shown, Json.field, Json.lookup]

@[simp] theorem member_value_shown (v : Json) : member "value" (shown v) = v := by
  simp [member, shown, Json.field, Json.lookup]

@[simp] theorem hasKey_value_shown (v : Json) : hasKey "value" (shown v) = true := by
  simp [hasKey, shown, Json.lookup]

/-- The observation of a value that is shown is accepted. -/
theorem validateObservation_shown {v : Json} (distinct : v.Everywhere Json.KeysDistinct)
    (h : observation it v = .ok (shown v)) : validateObservation it (shown v) = .ok () := by
  have equal := pyEq_self distinct (observation_shown h).1
  have again : (shown v).pyEq (shown v) = true := by
    simp [shown, Json.pyEq_obj, Json.lookup, equal]
  refine bind_eq_ok.mpr ⟨(), need_eq_ok.mpr rfl, ?_⟩
  rw [if_neg (by simp [Json.isStr])]
  refine bind_eq_ok.mpr ⟨(), need_eq_ok.mpr ⟨by simp [Json.isStr], ?_⟩, ?_⟩
  · simp [Json.isText, Json.str?, typeName_mem]
  rw [if_pos (hasKey_value_shown v)]
  refine bind_eq_ok.mpr ⟨(), need_eq_ok.mpr ⟨rfl, by simp [Json.isStr]⟩, ?_⟩
  exact bind_eq_ok.mpr ⟨shown v, by rw [member_value_shown, h], need_eq_ok.mpr again⟩

theorem member_failureOf (index : Nat) (observed : Json) :
    member "case_index" (failureOf index observed) = .int index ∧
      member "observed" (failureOf index observed) = observed := by
  simp [member, failureOf, Json.field, Json.lookup]

theorem caseIndex_failureOf (index : Nat) (observed : Json) : caseIndex (failureOf index observed) = index := by
  simp [caseIndex, (member_failureOf index observed).1, Json.int?]

/-- What the loop of `validate_report` asks of one failure. -/
theorem checkFailure_eq_ok {task observed : Json} {index : Nat} {u : Unit} :
    checkFailure it task (failureOf index observed) = .ok u ↔ index < (taskCases task).length ∧
      validateObservation it observed = .ok () ∧ (hasKey "value" observed = true →
        ¬ ((member "value" observed).typeName = (expectedAt task index).typeName ∧
          (member "value" observed).pyEq (expectedAt task index) = true)) := by
  have named : keysAre ["case_index", "observed"] (failureOf index observed) = true := rfl
  have place : isIntIn 0 ((taskCases task).length - 1) (.int index) = true ↔ index < (taskCases task).length := by
    simp only [isIntIn, Json.int?, Option.any_some, Bool.and_eq_true, decide_eq_true_eq]
    omega
  simp only [checkFailure, bind_eq_ok, need_eq_ok, (member_failureOf index observed).1,
    (member_failureOf index observed).2, named, place, true_and, caseIndex_failureOf, Int.toNat_natCast]
  by_cases held : hasKey "value" observed = true
  · simp only [held, if_true, need_eq_ok, true_implies, not_and_or, Bool.not_eq_true]
    exact ⟨fun ⟨_, a, _, b, c⟩ => ⟨a, b, c⟩, fun ⟨a, b, c⟩ => ⟨(), a, (), b, c⟩⟩
  · simp only [held, Bool.false_eq_true, if_false, false_implies, and_true]
    exact ⟨fun ⟨_, a, _, b, _⟩ => ⟨a, b⟩, fun ⟨a, b⟩ => ⟨(), a, (), b, rfl⟩⟩

/-- What `validate_report` asks of a report that names its counts. -/
theorem validateReport_eq_ok {task evidence : Json} {passed total errors : Int} {failures : List Json} :
    validateReport it (reportOf passed total errors failures) task = .ok evidence ↔
      evidence = reportOf passed total errors failures ∧ total = (taskCases task).length ∧
      (0 ≤ passed ∧ passed ≤ total) ∧ (0 ≤ errors ∧ errors ≤ total - passed) ∧
      (failures.length : Int) = total - passed ∧ (∀ failure ∈ failures, checkFailure it task failure = .ok ()) ∧
      (failures.map caseIndex).Pairwise (· < ·) ∧ (failures.countP isException : Int) = errors := by
  have named : keysAre ["passed", "total", "errors", "failures"] (reportOf passed total errors failures) = true :=
    rfl
  have reads : member "passed" (reportOf passed total errors failures) = .int passed ∧
      member "total" (reportOf passed total errors failures) = .int total ∧
      member "errors" (reportOf passed total errors failures) = .int errors ∧
      member "failures" (reportOf passed total errors failures) = .arr failures := by
    simp [member, reportOf, Json.field, Json.lookup]
  simp only [validateReport, bind_eq_ok, need_eq_ok, named, reads.1, reads.2.1, reads.2.2.1, reads.2.2.2,
    each_eq_ok, listOf, isListOf, isIntIn, Json.int?, Option.any_some, Option.getD_some, Bool.and_eq_true,
    decide_eq_true_eq, true_and, pure, Except.pure, Except.ok.injEq, exists_const]
  constructor
  · rintro ⟨⟨counted, passes, errs⟩, size, checked, ordered, count, rfl⟩
    exact ⟨rfl, by omega, by omega, by omega, by omega, checked, ordered, count⟩
  · rintro ⟨rfl, counted, passes, errs, size, checked, ordered, count⟩
    exact ⟨⟨by omega, by omega, by omega⟩, by omega, checked, ordered, count, rfl⟩

/-! ### Equality of JSON values -/

/-- The child's report lists no failure of the case. -/
def Counted (it : Interpreter) (task : Json) (candidate : List Json → CallResult) (index : Nat) : Prop :=
  ∀ observed, failureOf index observed ∉ listOf (member "failures" (childReport it task candidate))

theorem counted_iff {task case : Json} {candidate : List Json → CallResult} {index : Nat}
    (held : (taskCases task)[index]? = some case) :
    Counted it task candidate index ↔ judgeCase it candidate case = .passed := by
  have failures : listOf (member "failures" (childReport it task candidate)) =
      listed it candidate (taskCases task) 0 := by
    simp [childReport, runCases_eq, member, reportOf, Json.field, Json.lookup, listOf]
  rw [← not_iff_not, ← ne_eq, ← failureOf_mem_listed held]
  simp only [Counted, failures, not_forall, not_not]

theorem judge_passed_within {task case v : Json} {index : Nat} (cases : CasesOk task)
    (held : (taskCases task)[index]? = some case) :
    judge it (member "expected" case) (.value v) = .passed ↔
      v.typeName = (member "expected" case).typeName ∧ v.pyEq (member "expected" case) = true := by
  rw [judge_passed]
  refine ⟨And.right, fun equal => ⟨?_, equal⟩⟩
  have within := expected_within (cases.each case (List.mem_of_getElem? held))
  exact jsonValue_pyEq equal.2 (jsonValue_shallower (Nat.zero_le 1) within)

theorem isException_shown (index : Nat) (v : Json) : isException (failureOf index (shown v)) = false := by
  simp [isException, (member_failureOf index (shown v)).2, Json.isStr]

/-- A report with a value in the place of another one is accepted if the value differs for Python. -/
theorem validateReport_shown {task v observed evidence : Json} {passed total errors : Int} {before after : List Json}
    {index : Nat} (distinct : v.Everywhere Json.KeysDistinct) (short : observation it v = .ok (shown v))
    (isValue : isException (failureOf index observed) = false)
    (accepted : validateReport it (reportOf passed total errors (before ++ failureOf index observed :: after)) task =
      .ok evidence) :
    (∃ evidence, validateReport it (reportOf passed total errors (before ++ failureOf index (shown v) :: after)) task =
      .ok evidence) ↔ ¬ (v.typeName = (expectedAt task index).typeName ∧ v.pyEq (expectedAt task index) = true) := by
  obtain ⟨-, counted, passes, errs, size, checked, ordered, count⟩ := validateReport_eq_ok.mp accepted
  have place := (checkFailure_eq_ok.mp (checked (failureOf index observed) (by simp))).1
  constructor
  · rintro ⟨evidence, accepted⟩
    obtain ⟨-, -, -, -, -, checked, -, -⟩ := validateReport_eq_ok.mp accepted
    have differs := (checkFailure_eq_ok.mp (checked (failureOf index (shown v)) (by simp))).2.2
      (hasKey_value_shown v)
    rwa [member_value_shown] at differs
  · intro differs
    refine ⟨_, validateReport_eq_ok.mpr ⟨rfl, counted, passes, errs, ?_, fun failure mem => ?_, ?_, ?_⟩⟩
    · simpa using size
    · rcases List.mem_append.mp mem with mem | mem
      · exact checked failure (List.mem_append_left _ mem)
      rcases List.mem_cons.mp mem with rfl | mem
      · refine checkFailure_eq_ok.mpr ⟨place, validateObservation_shown distinct short, fun _ => ?_⟩
        rwa [member_value_shown]
      · exact checked failure (List.mem_append_right _ (List.mem_cons_of_mem _ mem))
    · simpa only [List.map_append, List.map_cons, caseIndex_failureOf] using ordered
    · simpa only [List.countP_append, List.countP_cons, isValue, isException_shown] using count

/-- A case counts as passed if the result is the expected JSON value, and a value is accepted as a failure if it
is another one, exactly if numbers of different types are not taken for one another inside them. -/
theorem json_equality {task : Json} (accepted : taskSpec it task = .ok task) :
    (∀ candidate index case v, (taskCases task)[index]? = some case →
      candidate (listOf (member "args" case)) = .value v →
      ((Counted it task candidate index ↔ v.same (member "expected" case) = true) ↔
        ¬ Confused v (member "expected" case))) ∧
    ∀ passed total errors before after index observed evidence v,
      validateReport it (reportOf passed total errors (before ++ failureOf index observed :: after)) task =
        .ok evidence →
      isException (failureOf index observed) = false → v.Everywhere Json.KeysDistinct →
      observation it v = .ok (shown v) →
      (((∃ evidence, validateReport it
          (reportOf passed total errors (before ++ failureOf index (shown v) :: after)) task = .ok evidence) ↔
        v.same (expectedAt task index) = false) ↔ ¬ Confused v (expectedAt task index)) := by
  constructor
  · intro candidate index case v held result
    rw [counted_iff held, judgeCase, result, judge_passed_within (casesOk accepted) held, confused_iff, not_not]
  · intro passed total errors before after index observed evidence v reported isValue distinct short
    rw [validateReport_shown distinct short isValue reported, confused_iff, not_not, ← Bool.not_eq_true,
      not_iff_not]

namespace Sample

def worker : Interpreter where
  toRuntime := .ascii
  floatRepr _ := ['1', '.', '0']
  fromIso _ := none

/-- A task for the identity. -/
def structuredTask (cases : List Json) : Json := .obj [
  ("task_id", .str "task-1"), ("path", .str "app/module.py"), ("function", .str "keep"),
  ("parameters", .arr [.str "x"]), ("instruction", .str "Return x."),
  ("base_sha", .str "0000000000000000000000000000000000000000"),
  ("before_sha256", .str "0000000000000000000000000000000000000000000000000000000000000000"),
  ("cases", .arr cases)]

def identityCase (v : Json) : Json := .obj [("args", .arr [v]), ("expected", v)]

def numbers : Json := structuredTask [identityCase (.arr [.int 1]), identityCase (.arr [.int 2])]

/-- The identity, but for `[1]`. -/
def truthful : List Json → CallResult
  | [.arr [.int 1]] => .value (.arr [.bool true])
  | [v] => .value v
  | _ => .foreign

end Sample

theorem checkCase_identity {v : Json} (within : jsonValue 2 v = .ok ()) :
    checkCase 1 (Sample.identityCase v) = .ok () := by
  refine bind_eq_ok.mpr ⟨(), rfl, bind_eq_ok.mpr ⟨(), rfl, jsonValue_obj.mpr ⟨by omega, ⟨by simp, ?_⟩, ?_⟩⟩⟩
  · intro f hf
    simp only [List.mem_cons, List.not_mem_nil, or_false] at hf
    rcases hf with rfl | rfl
    · exact (by decide : "args".length ≤ 128)
    · exact (by decide : "expected".length ≤ 128)
  · intro f hf
    simp only [List.mem_cons, List.not_mem_nil, or_false] at hf
    rcases hf with rfl | rfl
    · exact jsonValue_arr.mpr ⟨by omega, by simp, by simpa using within⟩
    · exact jsonValue_shallower (by omega) within

theorem structuredTask_accepted {cases : List Json} (count : 2 ≤ cases.length ∧ cases.length ≤ 100)
    (checked : ∀ case ∈ cases, checkCase 1 case = .ok ())
    (size : Json.joinedBytes (cases.map (Json.spaced true it.floatRepr)) ≤ 99000) :
    taskSpec it (Sample.structuredTask cases) = .ok (Sample.structuredTask cases) := by
  have counted : isListOf 2 100 (member "cases" (Sample.structuredTask cases)) = true := by
    show (decide (2 ≤ cases.length) && decide (cases.length ≤ 100)) = true
    simpa using count
  refine bind_eq_ok.mpr ⟨(), rfl, bind_eq_ok.mpr ⟨(), rfl, bind_eq_ok.mpr ⟨(), rfl, bind_eq_ok.mpr ⟨(), rfl, ?_⟩⟩⟩⟩
  refine bind_eq_ok.mpr ⟨(), rfl, bind_eq_ok.mpr ⟨(), need_eq_ok.mpr counted, ?_⟩⟩
  refine bind_eq_ok.mpr ⟨(), each_eq_ok.mpr checked, bind_eq_ok.mpr ⟨(), need_eq_ok.mpr ?_, rfl⟩⟩
  show Json.spacedBytes true it.floatRepr (Sample.structuredTask cases) ≤ 100000
  have list : Json.spacedBytes true it.floatRepr (.arr cases) ≤ 99002 := by
    rw [Json.spacedBytes_arr]
    omega
  have text : ∀ s : String, Json.spacedBytes true it.floatRepr (.str s) = Json.byteLength (Json.quote true s) :=
    fun _ => rfl
  have parameters : Json.spacedBytes true it.floatRepr (.arr [.str "x"]) = 5 := by
    rw [Json.spacedBytes_arr]
    show Json.byteLength (Json.quote true "x") + 2 = 5
    decide +kernel
  have others : (["task_id", "task-1", "path", "app/module.py", "function", "keep", "parameters", "instruction",
      "Return x.", "base_sha", "0000000000000000000000000000000000000000", "before_sha256",
      "0000000000000000000000000000000000000000000000000000000000000000", "cases"].map fun s =>
        Json.byteLength (Json.quote true s)).sum ≤ 400 := by decide +kernel
  rw [Sample.structuredTask, Json.spacedBytes_obj]
  simp only [List.map_cons, List.map_nil, List.sum_cons, List.sum_nil] at others ⊢
  iterate 7 rw [Json.joinedBytes_cons _ (by simp)]
  have last : Json.joinedBytes [Json.spacedField true it.floatRepr ("cases", .arr cases)] =
      Json.byteLength (Json.spacedField true it.floatRepr ("cases", .arr cases)) := rfl
  simp only [last, Json.byteLength_spacedField, text, parameters]
  omega

theorem sample_numbers : taskSpec Sample.worker Sample.numbers = .ok Sample.numbers :=
  taskSpec_of (by decide +kernel)

/-- A report that lists the value 3 where a list is expected. -/
theorem sample_reported {v w : Json} (list : v.typeName = "list") :
    validateReport Sample.worker (reportOf 1 2 0 [failureOf 0 (shown (.int 3))])
      (Sample.structuredTask [Sample.identityCase v, Sample.identityCase w]) =
      .ok (reportOf 1 2 0 [failureOf 0 (shown (.int 3))]) := by
  refine validateReport_eq_ok.mpr ⟨rfl, rfl, by omega, by omega, by simp, fun failure mem => ?_, by simp, rfl⟩
  obtain rfl := List.mem_singleton.mp mem
  refine checkFailure_eq_ok.mpr ⟨Nat.zero_lt_succ 1, validateObservation_shown (by simp [Json.KeysDistinct]) rfl,
    fun _ equal => ?_⟩
  have other : v.typeName = "int" := equal.1.symm
  rw [list] at other
  exact absurd other (by decide)

theorem sample_json_equality :
    ((Counted Sample.worker Sample.numbers Sample.truthful 1 ↔
      (Json.arr [.int 2]).same (.arr [.int 2]) = true) ↔ ¬ Confused (.arr [.int 2]) (.arr [.int 2])) ∧
    (((∃ evidence, validateReport Sample.worker
        (reportOf 1 2 0 ([] ++ failureOf 0 (shown (.arr [.int 4])) :: [])) Sample.numbers = .ok evidence) ↔
      (Json.arr [.int 4]).same (expectedAt Sample.numbers 0) = false) ↔
        ¬ Confused (.arr [.int 4]) (expectedAt Sample.numbers 0)) := by
  obtain ⟨counts, reports⟩ := json_equality sample_numbers
  exact ⟨counts Sample.truthful 1 _ (.arr [.int 2]) rfl rfl, reports 1 2 0 [] [] 0 _ _ (.arr [.int 4])
    (sample_reported rfl) (isException_shown 0 _) (by simp [Json.KeysDistinct]) rfl⟩

/-- The result `[true]` counts as passed where `[1]` is expected. -/
theorem sample_true_for_one : taskSpec Sample.worker Sample.numbers = .ok Sample.numbers ∧
    ∃ case, (taskCases Sample.numbers)[0]? = some case ∧
      Sample.truthful (listOf (member "args" case)) = .value (.arr [.bool true]) ∧
      ¬ (Counted Sample.worker Sample.numbers Sample.truthful 0 ↔
        (Json.arr [.bool true]).same (member "expected" case) = true) := by
  have held : (taskCases Sample.numbers)[0]? =
      some (Sample.identityCase (.arr [.int 1])) := rfl
  refine ⟨sample_numbers, _, held, rfl, fun agree => ?_⟩
  have passed : judge Sample.worker (.arr [.int 1]) (.value (.arr [.bool true])) = .passed :=
    judge_passed.mpr ⟨rfl, rfl, by decide⟩
  exact absurd (agree.mp ((counted_iff held).mpr passed)) (by decide)

end WorkerPool
