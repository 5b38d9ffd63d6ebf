import WorkerPool.StructuredFeedback

/-!
# The pipe to the validator child

The parent sends a source and a task as JSON text to the child, which answers with its report. Each side
bounds the characters that it reads.
-/

namespace WorkerPool

open PyText

/-- What `ast` makes of a source for a task: whether it is guarded, the text of the function that is extracted,
and what calling the compiled function comes to. -/
structure Guard where
  guarded : String → Json → Except Raised Unit
  extracted : String → Json → Except Raised String
  call : String → Json → List Json → CallResult

/-- `dict(pairs)`: of two pairs with one key the later value counts. -/
def pyDict (pairs : List (String × Json)) : Option Json :=
  some (.obj (pairs.foldl (fun fields pair => assign fields pair.1 pair.2) []))

def inputLimit : Nat := 125000

def outputLimit : Nat := 131072

/-- What `validate` writes to the child. -/
def payload (it : Interpreter) (text : String) (task : Json) : List Char :=
  Json.spaced true it.floatRepr (.obj [("source", .str text), ("task", task)])

/-- What the child prints. -/
def printed (it : Interpreter) (task : Json) (call : List Json → CallResult) : List Char :=
  Json.spaced true it.floatRepr (childReport it task call) ++ ['\n']

/-- `_validate_child`: what it prints for what it reads. -/
def validateChild (it : Interpreter) (g : Guard) (raw : List Char) : Except Raised (List Char) := do
  need (raw.length ≤ inputLimit) "validator_input_size"
  let data ← orError (Json.loads pyDict raw)
  let task ← taskSpec it (member "task" data)
  let source ← orError (member "source" data).str?
  g.guarded source task
  pure (printed it task (g.call source task))

/-- `validate`. -/
def validate (it : Interpreter) (g : Guard) (source : String) (task : Json) : Except Raised Json := do
  let _ ← taskSpec it task
  g.guarded source task
  let text ← g.extracted source task
  match validateChild it g (payload it text task) with
  | .error _ => .error (.blocked [.str "validator_process"])
  | .ok stdout =>
    need (stdout.length ≤ outputLimit) "validator_process"
    match Json.loads pyDict stdout with
    | none => .error (.blocked [.str "validator_json"])
    | some evidence => validateReport it evidence task

/-! ### Lengths -/

def digits (n : Int) : Nat := (toString n).toList.length

/-- The length of `json.dumps` of the observation of a result. -/
def observedLength (it : Interpreter) : CallResult → Nat
  | .raised name lines =>
    33 + (if name ∈ exceptionTypes then name else "Exception").length +
      match candidateExceptionLine lines with
      | none => 0
      | some line => 20 + digits line
  | .foreign => 33 + "InvalidResult".length
  | .value v =>
    if (jsonValue 0 v).toOption.isSome then
      if Json.byteLength (encoded it v) ≤ 512 then
        40 + v.typeName.length + (Json.spaced true it.floatRepr v).length
      else 137 + v.typeName.length + digits (Json.byteLength (encoded it v))
    else 33 + "InvalidResult".length

/-- The result of a case passes. -/
def passes (expected : Json) : CallResult → Bool
  | .value v => (jsonValue 0 v).toOption.isSome && v.typeName == expected.typeName && v.pyEq expected
  | _ => false

/-- The result of a case is an error. -/
def errs : CallResult → Bool
  | .value v => !(jsonValue 0 v).toOption.isSome
  | _ => true

/-- The result of a candidate for a case. -/
def resultOf (call : List Json → CallResult) (case : Json) : CallResult := call (listOf (member "args" case))

/-- The lengths of the texts of the failures, of cases numbered from `start`. -/
def failureLengths (it : Interpreter) (call : List Json → CallResult) (cases : List Json) (start : Nat) : List Nat :=
  (cases.zipIdx start).filterMap fun entry =>
    if passes (member "expected" entry.1) (resultOf call entry.1) then none
    else some (30 + digits entry.2 + observedLength it (resultOf call entry.1))

/-- The length of the report, from what the calls come to. -/
def reportLength (it : Interpreter) (task : Json) (call : List Json → CallResult) : Nat :=
  51 + digits ((taskCases task).countP fun case => passes (member "expected" case) (resultOf call case)) +
    digits (taskCases task).length + digits ((taskCases task).countP fun case => errs (resultOf call case)) +
    (((failureLengths it call (taskCases task) 0).map (· + 2)).sum - 2)

/-- The source and the task fit into what the child reads. -/
def SourceFits (it : Interpreter) (text : String) (task : Json) : Prop :=
  (Json.quote true text).length + (Json.spaced true it.floatRepr task).length ≤ 124978

/-- The failing results fit into what the parent reads, with the line break at the end. -/
def ReportFits (it : Interpreter) (task : Json) (call : List Json → CallResult) : Prop :=
  reportLength it task call ≤ 131071

/-! ### The texts of observations -/

variable {it : Interpreter}

/-- The length of a key with its value. -/
def fieldLength (it : Interpreter) (key : String) (v : Json) : Nat :=
  (Json.quote true key).length + 2 + (Json.spaced true it.floatRepr v).length

theorem length_spacedField (key : String) (v : Json) :
    (Json.spacedField true it.floatRepr (key, v)).length = fieldLength it key v := by
  simp only [Json.spacedField, List.length_append, List.length_cons, fieldLength]
  omega

theorem length_joinSpaced_cons (text : List Char) {texts : List (List Char)} (more : texts ≠ []) :
    (Json.joinSpaced (text :: texts)).length = text.length + 2 + (Json.joinSpaced texts).length := by
  obtain ⟨next, rest, rfl⟩ := List.exists_cons_of_ne_nil more
  simp only [Json.joinSpaced, List.length_append, List.length_cons]
  omega

theorem length_joinSpaced (texts : List (List Char)) :
    (Json.joinSpaced texts).length = ((texts.map List.length).map (· + 2)).sum - 2 := by
  induction texts with
  | nil => rfl
  | cons text rest ih =>
    cases rest with
    | nil => simp [Json.joinSpaced]
    | cons next rest =>
      rw [length_joinSpaced_cons text (List.cons_ne_nil _ _), ih]
      simp only [List.map_cons, List.sum_cons]
      omega

theorem length_obj (fields : List (String × Json)) : (Json.spaced true it.floatRepr (.obj fields)).length =
    (((fields.map fun f => fieldLength it f.1 f.2).map (· + 2)).sum - 2) + 2 := by
  have lengths : (fields.map (Json.spacedField true it.floatRepr)).map List.length =
      fields.map fun f => fieldLength it f.1 f.2 := by
    rw [List.map_map]
    exact List.map_congr_left fun f _ => length_spacedField f.1 f.2
  simp only [Json.spaced, Json.spacedFields_eq, List.length_append, List.length_cons, List.length_nil,
    length_joinSpaced, lengths]

theorem length_str {s : String} (plain : (Json.quote true s).length = s.length + 2) :
    (Json.spaced true it.floatRepr (.str s)).length = s.length + 2 := plain

theorem length_int (n : Int) : (Json.spaced true it.floatRepr (.int n)).length = digits n := rfl

theorem quote_exceptionTypes : ∀ name ∈ exceptionTypes, (Json.quote true name).length = name.length + 2 := by
  decide

theorem quote_observationTypes : ∀ name ∈ observationTypes, (Json.quote true name).length = name.length + 2 := by
  decide

theorem quote_kinds : (Json.quote true "kind").length = 6 ∧ (Json.quote true "exception").length = 11 ∧
    (Json.quote true "type").length = 6 ∧ (Json.quote true "candidate_line").length = 16 ∧
    (Json.quote true "value").length = 7 ∧ (Json.quote true "truncated").length = 11 ∧
    (Json.quote true "bytes").length = 7 ∧ (Json.quote true "sha256").length = 8 := by
  decide

theorem length_exceptionObserved (category : String) (line : Option Int) :
    (Json.spaced true it.floatRepr (exceptionObserved category line)).length =
      33 + (if category ∈ exceptionTypes then category else "Exception").length +
        match line with
        | none => 0
        | some n => 20 + digits n := by
  obtain ⟨kind, exception, type, candidateLine, -⟩ := quote_kinds
  have known : (if category ∈ exceptionTypes then category else "Exception") ∈ exceptionTypes := by
    split
    · assumption
    · decide
  have text := @length_str it _ (quote_exceptionTypes _ known)
  have name : (Json.spaced true it.floatRepr (.str "exception")).length = 11 := exception
  rw [exceptionObserved, length_obj]
  cases line with
  | none =>
    simp only [Option.toList_none, List.map_nil, List.append_nil, List.map_cons, List.sum_cons, List.sum_nil,
      fieldLength, kind, type, text, name]
    omega
  | some n =>
    simp only [Option.toList_some, List.cons_append, List.nil_append, List.map_nil, List.map_cons, List.sum_cons,
      List.sum_nil, fieldLength, kind, type, candidateLine, text, name, length_int]
    omega

theorem length_shown (v : Json) : (Json.spaced true it.floatRepr (shown v)).length =
    40 + v.typeName.length + (Json.spaced true it.floatRepr v).length := by
  obtain ⟨kind, -, type, -, value, -⟩ := quote_kinds
  have text := @length_str it _ (quote_observationTypes _ (typeName_mem v))
  have name : (Json.spaced true it.floatRepr (.str "value")).length = 7 := value
  rw [shown, length_obj]
  simp only [List.map_nil, List.map_cons, List.sum_cons, List.sum_nil, fieldLength, kind, type, value, text, name]
  omega

/-- The observation of a value that is too long to be shown. -/
def truncated (it : Interpreter) (v : Json) : Json :=
  .obj [("kind", .str "value"), ("type", .str v.typeName), ("truncated", .bool true),
    ("bytes", .int (Json.byteLength (encoded it v))), ("sha256", .str (it.sha256 (String.ofList (encoded it v))))]

theorem length_truncated (v : Json) : (Json.spaced true it.floatRepr (truncated it v)).length =
    137 + v.typeName.length + digits (Json.byteLength (encoded it v)) := by
  obtain ⟨kind, -, type, -, value, cut, bytes, sha⟩ := quote_kinds
  have text := @length_str it _ (quote_observationTypes _ (typeName_mem v))
  have name : (Json.spaced true it.floatRepr (.str "value")).length = 7 := value
  have digest : (Json.spaced true it.floatRepr (.str (it.sha256 (String.ofList (encoded it v))))).length = 66 := by
    obtain ⟨size, hex⟩ := Bool.and_eq_true_iff.mp (it.sha256_hex (String.ofList (encoded it v)))
    rw [Json.spaced, Json.length_quote_hex true hex, eq_of_beq size]
  have yes : (Json.spaced true it.floatRepr (.bool true)).length = 4 := rfl
  rw [truncated, length_obj]
  simp only [List.map_nil, List.map_cons, List.sum_cons, List.sum_nil, fieldLength, kind, type, cut, bytes, sha, text,
    name, digest, yes, length_int]
  omega

theorem observation_of_within {v : Json} (within : jsonValue 0 v = .ok ()) : observation it v =
    .ok (if Json.byteLength (encoded it v) ≤ 512 then shown v else truncated it v) := by
  refine bind_eq_ok.mpr ⟨(), within, ?_⟩
  by_cases long : 512 < Json.byteLength (encoded it v)
  · rw [if_pos long, if_neg (by omega)]
    rfl
  · rw [if_neg long, if_pos (by omega)]
    rfl

/-- The judgement on a result, and the length of the observation that it comes with. -/
theorem judge_cases (expected : Json) (r : CallResult) :
    (passes expected r = true ∧ errs r = false ∧ judge it expected r = .passed) ∨
    (passes expected r = false ∧ ∃ observed, (Json.spaced true it.floatRepr observed).length = observedLength it r ∧
      (errs r = false ∧ judge it expected r = .failed observed ∨
        errs r = true ∧ judge it expected r = .erred observed)) := by
  have invalid := @length_exceptionObserved it "InvalidResult" none
  have known : "InvalidResult" ∈ exceptionTypes := by decide
  rw [if_pos known] at invalid
  cases r with
  | raised name lines =>
    refine .inr ⟨rfl, _, ?_, .inr ⟨rfl, rfl⟩⟩
    rw [length_exceptionObserved, observedLength]
  | foreign => exact .inr ⟨rfl, _, invalid, .inr ⟨rfl, rfl⟩⟩
  | value v =>
    cases within : jsonValue 0 v with
    | error e =>
      refine .inr ⟨?_, exceptionObserved "InvalidResult" none, ?_, .inr ⟨?_, ?_⟩⟩
      · simp [passes, within, Except.toOption]
      · rw [invalid]
        simp [observedLength, within, Except.toOption]
      · simp [errs, within, Except.toOption]
      · simp only [judge, within]
    | ok u =>
      have fine : errs (.value v) = false := by simp [errs, within, Except.toOption]
      by_cases equal : v.typeName = expected.typeName ∧ v.pyEq expected = true
      · refine .inl ⟨?_, fine, ?_⟩
        · simp [passes, within, Except.toOption, equal]
        · exact judge_passed.mpr ⟨within, equal⟩
      · refine .inr ⟨?_, if Json.byteLength (encoded it v) ≤ 512 then shown v else truncated it v, ?_, .inl ⟨fine, ?_⟩⟩
        · rw [not_and] at equal
          simpa [passes, within, Except.toOption] using equal
        · simp only [observedLength, within, Except.toOption, Option.isSome_some, if_true]
          split
          · exact length_shown v
          · exact length_truncated v
        · simp only [judge, within, if_neg equal, observation_of_within within]

/-! ### The length of the report -/

theorem judgeCase_eq (call : List Json → CallResult) (case : Json) :
    judgeCase it call case = judge it (member "expected" case) (resultOf call case) := rfl

theorem isPassed_judgeCase (call : List Json → CallResult) (case : Json) :
    (judgeCase it call case).isPassed = passes (member "expected" case) (resultOf call case) := by
  rw [judgeCase_eq]
  obtain ⟨passed, -, judged⟩ | ⟨failed, observed, -, ⟨-, judged⟩ | ⟨-, judged⟩⟩ :=
    @judge_cases it (member "expected" case) (resultOf call case)
  · rw [passed, judged]
    rfl
  all_goals
    rw [failed, judged]
    rfl

theorem isError_judgeCase (call : List Json → CallResult) (case : Json) :
    (judgeCase it call case).isError = errs (resultOf call case) := by
  rw [judgeCase_eq]
  obtain ⟨-, error, judged⟩ | ⟨-, observed, -, ⟨error, judged⟩ | ⟨error, judged⟩⟩ :=
    @judge_cases it (member "expected" case) (resultOf call case)
  all_goals
    rw [error, judged]
    rfl

theorem length_failureOf (index : Nat) (observed : Json) :
    (Json.spaced true it.floatRepr (failureOf index observed)).length =
      30 + digits index + (Json.spaced true it.floatRepr observed).length := by
  have keys : (Json.quote true "case_index").length = 12 ∧ (Json.quote true "observed").length = 10 := by
    decide
  rw [failureOf, length_obj]
  simp only [List.map_nil, List.map_cons, List.sum_cons, List.sum_nil, fieldLength, keys.1, keys.2, length_int]
  omega

theorem lengths_listed (call : List Json → CallResult) (cases : List Json) (start : Nat) :
    (listed it call cases start).map (fun failure => (Json.spaced true it.floatRepr failure).length) =
      failureLengths it call cases start := by
  rw [listed, failureLengths, List.map_filterMap]
  refine List.filterMap_congr fun entry _ => ?_
  rw [judgeCase_eq]
  obtain ⟨passed, -, judged⟩ | ⟨failed, observed, size, ⟨-, judged⟩ | ⟨-, judged⟩⟩ :=
    @judge_cases it (member "expected" entry.1) (resultOf call entry.1)
  · rw [judged, if_pos passed]
    rfl
  all_goals
    rw [judged, if_neg (by simp [failed])]
    simp only [Judgement.failure, Option.map_some, length_failureOf, size]

theorem length_reportOf (passed total errors : Int) (failures : List Json) :
    (Json.spaced true it.floatRepr (reportOf passed total errors failures)).length =
      51 + digits passed + digits total + digits errors +
        (((failures.map fun failure => (Json.spaced true it.floatRepr failure).length).map (· + 2)).sum - 2) := by
  have keys : (Json.quote true "passed").length = 8 ∧ (Json.quote true "total").length = 7 ∧
      (Json.quote true "errors").length = 8 ∧ (Json.quote true "failures").length = 10 := by decide
  have list : (Json.spaced true it.floatRepr (.arr failures)).length =
      (((failures.map fun failure => (Json.spaced true it.floatRepr failure).length).map (· + 2)).sum - 2) + 2 := by
    simp only [Json.spaced, Json.spacedItems_eq, List.length_append, List.length_cons, List.length_nil,
      length_joinSpaced, List.map_map]
    rfl
  rw [reportOf, length_obj]
  simp only [List.map_nil, List.map_cons, List.sum_cons, List.sum_nil, fieldLength, keys.1, keys.2.1, keys.2.2.1,
    keys.2.2.2, length_int, list]
  omega

/-- The report takes the length that the results of the calls give. -/
theorem length_childReport (task : Json) (call : List Json → CallResult) :
    (Json.spaced true it.floatRepr (childReport it task call)).length = reportLength it task call := by
  simp only [childReport, runCases_eq, length_reportOf, lengths_listed, isPassed_judgeCase, isError_judgeCase,
    reportLength]

/-! ### Observations are accepted -/

theorem exceptionLine_range {lines : List Int} {line : Int} (h : candidateExceptionLine lines = some line) :
    1 ≤ line ∧ line ≤ 400 := by
  have mem := List.mem_of_getLast? h
  simpa using (List.mem_filter.mp mem).2

theorem validateObservation_exception (category : String) {line : Option Int}
    (range : ∀ n ∈ line, 1 ≤ n ∧ n ≤ 400) : validateObservation it (exceptionObserved category line) = .ok () := by
  have known : (if category ∈ exceptionTypes then category else "Exception") ∈ exceptionTypes := by
    split
    · assumption
    · decide
  refine bind_eq_ok.mpr ⟨(), rfl, ?_⟩
  cases line with
  | none =>
    have type : member "type" (exceptionObserved category none) =
        .str (if category ∈ exceptionTypes then category else "Exception") := by
      simp [member, exceptionObserved, Json.field, Json.lookup]
    have kind : (member "kind" (exceptionObserved category none)).isStr "exception" = true := rfl
    rw [if_pos kind, type]
    exact need_eq_ok.mpr ⟨rfl, decide_eq_true known, rfl⟩
  | some n =>
    have type : member "type" (exceptionObserved category (some n)) =
        .str (if category ∈ exceptionTypes then category else "Exception") := by
      simp [member, exceptionObserved, Json.field, Json.lookup]
    have read : member "candidate_line" (exceptionObserved category (some n)) = .int n := by
      simp [member, exceptionObserved, Json.field, Json.lookup]
    have inside : isIntIn 1 400 (.int n) = true := by
      simpa [isIntIn, Json.int?] using range n rfl
    have kind : (member "kind" (exceptionObserved category (some n))).isStr "exception" = true := rfl
    rw [if_pos kind, type, read]
    exact need_eq_ok.mpr ⟨rfl, decide_eq_true known, inside⟩

theorem validateObservation_truncated {v : Json} (long : 512 < Json.byteLength (encoded it v)) :
    validateObservation it (truncated it v) = .ok () := by
  have reads : member "kind" (truncated it v) = .str "value" ∧ member "type" (truncated it v) = .str v.typeName ∧
      member "bytes" (truncated it v) = .int (Json.byteLength (encoded it v)) ∧
      member "sha256" (truncated it v) = .str (it.sha256 (String.ofList (encoded it v))) := by
    simp [member, truncated, Json.field, Json.lookup]
  refine bind_eq_ok.mpr ⟨(), rfl, ?_⟩
  rw [reads.1, reads.2.1, reads.2.2.1, reads.2.2.2, if_neg (by decide)]
  refine bind_eq_ok.mpr ⟨(), need_eq_ok.mpr ⟨rfl, decide_eq_true (typeName_mem v)⟩, ?_⟩
  rw [if_neg (by simp [hasKey, truncated, Json.lookup])]
  have size : (Json.int (Json.byteLength (encoded it v))).int?.any (512 < ·) = true := by
    simp only [Json.int?, Option.any_some, decide_eq_true_eq]
    omega
  exact need_eq_ok.mpr ⟨rfl, rfl, size, it.sha256_hex _⟩

/-- A text or a number, a list of such or a dictionary, that the scanner reads as it was written. -/
structure Sendable (it : Interpreter) (v : Json) : Prop where
  distinct : v.Everywhere Json.KeysDistinct
  reads : v.Everywhere (Json.ReadsBack it.floatRepr)

theorem sendable_obj {fields : List (String × Json)} (distinct : (Json.keys fields).Nodup)
    (each : ∀ f ∈ fields, Sendable it f.2) : Sendable it (.obj fields) :=
  ⟨Json.everywhere_obj.mpr ⟨distinct, fun f hf => (each f hf).distinct⟩,
    Json.everywhere_obj.mpr ⟨trivial, fun f hf => (each f hf).reads⟩⟩

theorem sendable_arr {items : List Json} (each : ∀ v ∈ items, Sendable it v) : Sendable it (.arr items) :=
  ⟨Json.everywhere_arr.mpr ⟨trivial, fun v hv => (each v hv).distinct⟩,
    Json.everywhere_arr.mpr ⟨trivial, fun v hv => (each v hv).reads⟩⟩

theorem sendable_str (s : String) : Sendable it (.str s) :=
  ⟨Json.everywhere_str.mpr trivial, Json.everywhere_str.mpr trivial⟩

theorem sendable_bool (b : Bool) : Sendable it (.bool b) :=
  ⟨Json.everywhere_bool.mpr trivial, Json.everywhere_bool.mpr trivial⟩

theorem short_digits {n : Nat} (small : n < 10 ^ 10) : (Nat.toDigits 10 n).length ≤ Json.maxDigits :=
  Nat.le_trans ((Nat.length_toDigits_le_iff (by decide) (by decide)).mpr small) (by decide)

theorem sendable_int {n : Int} (small : n.natAbs < 10 ^ 10) : Sendable it (.int n) :=
  ⟨Json.everywhere_int.mpr trivial, Json.everywhere_int.mpr (short_digits small)⟩

/-- The interpreter reads a finite float as it writes it. -/
def FloatReads (it : Interpreter) : Json → Prop
  | .float bits => Float64.isFinite bits = true → Json.ReadsBack it.floatRepr (.float bits)
  | _ => True

theorem sendable_within {depth : Nat} {v : Json} (floats : v.Everywhere (FloatReads it))
    (distinct : v.Everywhere Json.KeysDistinct) (within : jsonValue depth v = .ok ()) : Sendable it v := by
  refine ⟨distinct, fun w hw => ?_⟩
  have writable := jsonValue_writable within w hw
  cases w with
  | int n => exact writable
  | float bits => exact floats _ hw writable
  | _ => trivial

/-! ### The report is accepted -/

/-- What holds of the values that calls return: a dictionary holds each key once, a float is read as it is
written, and the bytes of the text fit into the memory that the child may use. -/
structure Returns (it : Interpreter) (call : List Json → CallResult) : Prop where
  floats : ∀ {args v}, call args = .value v → v.Everywhere (FloatReads it)
  distinct : ∀ {args v}, call args = .value v → v.Everywhere Json.KeysDistinct
  memory : ∀ {args v}, call args = .value v → Json.byteLength (encoded it v) ≤ 256 * 1024 * 1024

/-- An observation that the parent accepts for a case. -/
structure ObservedOk (it : Interpreter) (expected observed : Json) : Prop where
  valid : validateObservation it observed = .ok ()
  sends : Sendable it observed
  differs : hasKey "value" observed = true → ¬ ((member "value" observed).typeName = expected.typeName ∧
    (member "value" observed).pyEq expected = true)

theorem observedOk_exception (category : String) {line : Option Int} (range : ∀ n ∈ line, 1 ≤ n ∧ n ≤ 400)
    (expected : Json) : ObservedOk it expected (exceptionObserved category line) := by
  refine ⟨validateObservation_exception category range, ?_, ?_⟩
  · cases line with
    | none =>
      refine sendable_obj (by decide : ["kind", "type"].Nodup) fun f hf => ?_
      simp only [Option.toList_none, List.map_nil, List.append_nil, List.mem_cons, List.not_mem_nil, or_false] at hf
      rcases hf with rfl | rfl <;> exact sendable_str _
    | some n =>
      refine sendable_obj (by decide : ["kind", "type", "candidate_line"].Nodup) fun f hf => ?_
      simp only [Option.toList_some, List.map_cons, List.map_nil, List.cons_append, List.nil_append, List.mem_cons,
        List.not_mem_nil, or_false] at hf
      have small := range n rfl
      rcases hf with rfl | rfl | rfl
      · exact sendable_str _
      · exact sendable_str _
      · exact sendable_int (by omega)
  · cases line <;> exact fun has => absurd has (by simp [hasKey, exceptionObserved, Json.lookup])

theorem observedOk_value {expected v : Json} (floats : v.Everywhere (FloatReads it))
    (distinct : v.Everywhere Json.KeysDistinct)
    (memory : Json.byteLength (encoded it v) ≤ 256 * 1024 * 1024) (within : jsonValue 0 v = .ok ())
    (unequal : ¬ (v.typeName = expected.typeName ∧ v.pyEq expected = true)) :
    ObservedOk it expected (if Json.byteLength (encoded it v) ≤ 512 then shown v else truncated it v) := by
  have made := @observation_of_within it _ within
  split at made
  case isTrue short =>
    rw [if_pos short]
    refine ⟨validateObservation_shown distinct made, ?_, fun _ => by rwa [member_value_shown]⟩
    refine sendable_obj (by decide : ["kind", "type", "value"].Nodup) fun f hf => ?_
    simp only [List.mem_cons, List.not_mem_nil, or_false] at hf
    rcases hf with rfl | rfl | rfl
    · exact sendable_str _
    · exact sendable_str _
    · exact sendable_within floats distinct within
  case isFalse long =>
    rw [if_neg long]
    refine ⟨validateObservation_truncated (by omega), ?_, fun has => ?_⟩
    · refine sendable_obj (by decide : ["kind", "type", "truncated", "bytes", "sha256"].Nodup) fun f hf => ?_
      simp only [List.mem_cons, List.not_mem_nil, or_false] at hf
      rcases hf with rfl | rfl | rfl | rfl | rfl
      · exact sendable_str _
      · exact sendable_str _
      · exact sendable_bool _
      · exact sendable_int (by omega)
      · exact sendable_str _
    · exact absurd has (by simp [hasKey, truncated, Json.lookup])

/-- What the child lists of a case, the parent accepts. -/
theorem observedOk_judge {expected observed : Json} {r : CallResult}
    (floats : ∀ v, r = .value v → v.Everywhere (FloatReads it))
    (distinct : ∀ v, r = .value v → v.Everywhere Json.KeysDistinct)
    (memory : ∀ v, r = .value v → Json.byteLength (encoded it v) ≤ 256 * 1024 * 1024)
    (judged : judge it expected r = .failed observed ∨ judge it expected r = .erred observed) :
    ObservedOk it expected observed := by
  have invalid := @observedOk_exception it "InvalidResult" none (by simp) expected
  cases r with
  | raised name lines =>
    have eq : observed = exceptionObserved name (candidateExceptionLine lines) := by
      simpa [judge, eq_comm] using judged
    rw [eq]
    exact observedOk_exception name (fun n held => exceptionLine_range held) expected
  | foreign =>
    have eq : observed = exceptionObserved "InvalidResult" none := by simpa [judge, eq_comm] using judged
    rwa [eq]
  | value v =>
    cases within : jsonValue 0 v with
    | error e =>
      have eq : observed = exceptionObserved "InvalidResult" none := by
        simpa [judge, within, eq_comm] using judged
      rwa [eq]
    | ok u =>
      by_cases equal : v.typeName = expected.typeName ∧ v.pyEq expected = true
      · rw [judge_passed.mpr ⟨within, equal⟩] at judged
        rcases judged with judged | judged <;> cases judged
      · simp only [judge, within, if_neg equal, observation_of_within within] at judged
        rcases judged with judged | judged
        · obtain rfl := Judgement.failed.inj judged
          exact observedOk_value (floats v rfl) (distinct v rfl) (memory v rfl) within equal
        · cases judged

theorem mem_listed {call : List Json → CallResult} {cases : List Json} {failure : Json}
    (mem : failure ∈ listed it call cases 0) : ∃ index case observed, cases[index]? = some case ∧
      failure = failureOf index observed ∧
      (judgeCase it call case = .failed observed ∨ judgeCase it call case = .erred observed) := by
  obtain ⟨⟨case, index⟩, place, made⟩ := List.mem_filterMap.mp mem
  refine ⟨index, case, ?_⟩
  have held := List.mem_zipIdx_iff_getElem?.mp place
  cases judged : judgeCase it call case with
  | passed => simp [judged, Judgement.failure] at made
  | failed observed =>
    rw [judged] at made
    exact ⟨observed, held, (Option.some.inj made).symm, .inl rfl⟩
  | erred observed =>
    rw [judged] at made
    exact ⟨observed, held, (Option.some.inj made).symm, .inr rfl⟩

theorem caseIndex_listed (call : List Json → CallResult) (cases : List Json) (start : Nat) :
    ((listed it call cases start).map caseIndex).Pairwise (· < ·) ∧
      ∀ index ∈ (listed it call cases start).map caseIndex, (start : Int) ≤ index := by
  induction cases generalizing start with
  | nil => simp [listed]
  | cons case rest ih =>
    obtain ⟨ordered, later⟩ := ih (start + 1)
    have after : ∀ index ∈ (listed it call rest (start + 1)).map caseIndex, (start : Int) < index := by
      intro index mem
      have := later index mem
      omega
    rw [listed_cons, List.map_append]
    cases judgeCase it call case with
    | passed => exact ⟨ordered, fun index mem => le_of_lt (after index mem)⟩
    | failed observed | erred observed =>
      simp only [Judgement.failure, Option.toList_some, List.map_cons, List.map_nil, caseIndex_failureOf,
        List.singleton_append, List.pairwise_cons, List.forall_mem_cons]
      exact ⟨⟨after, ordered⟩, Int.le_refl _, fun index mem => le_of_lt (after index mem)⟩

theorem isError_le (call : List Json → CallResult) (cases : List Json) :
    (cases.countP fun case => (judgeCase it call case).isPassed) +
      (cases.countP fun case => (judgeCase it call case).isError) ≤ cases.length := by
  induction cases with
  | nil => simp
  | cons case rest ih =>
    have one : (if (judgeCase it call case).isPassed = true then 1 else 0) +
        (if (judgeCase it call case).isError = true then 1 else 0) ≤ 1 := by
      cases judgeCase it call case <;> simp [Judgement.isPassed, Judgement.isError]
    rw [List.countP_cons, List.countP_cons, List.length_cons]
    omega

theorem isException_listed (call : List Json → CallResult) (cases : List Json) (start : Nat)
    (exception : ∀ case ∈ cases, ∀ index observed, judgeCase it call case = .erred observed →
      isException (failureOf index observed) = true)
    (value : ∀ case ∈ cases, ∀ index observed, judgeCase it call case = .failed observed →
      isException (failureOf index observed) = false) :
    (listed it call cases start).countP isException = cases.countP fun case => (judgeCase it call case).isError := by
  induction cases generalizing start with
  | nil => rfl
  | cons case rest ih =>
    rw [List.forall_mem_cons] at exception value
    rw [listed_cons, List.countP_append, List.countP_cons, ih (start + 1) exception.2 value.2, Nat.add_comm]
    congr 1
    cases judged : judgeCase it call case with
    | passed => rfl
    | failed observed => simp [Judgement.failure, Judgement.isError, value.1 start observed judged]
    | erred observed => simp [Judgement.failure, Judgement.isError, exception.1 start observed judged]

theorem isException_of_judge {expected observed : Json} {r : CallResult} (index : Nat) :
    (judge it expected r = .erred observed → isException (failureOf index observed) = true) ∧
      (judge it expected r = .failed observed → isException (failureOf index observed) = false) := by
  have exception : ∀ category line, isException (failureOf index (exceptionObserved category line)) = true := by
    intro category line
    rw [isException, (member_failureOf index _).2]
    cases line <;> rfl
  have value : ∀ v, isException (failureOf index (truncated it v)) = false := by
    intro v
    rw [isException, (member_failureOf index _).2]
    rfl
  cases r with
  | raised name lines =>
    simp only [judge, Judgement.erred.injEq, reduceCtorEq, false_implies, and_true]
    rintro rfl
    exact exception _ _
  | foreign =>
    simp only [judge, Judgement.erred.injEq, reduceCtorEq, false_implies, and_true]
    rintro rfl
    exact exception _ _
  | value v =>
    cases within : jsonValue 0 v with
    | error e =>
      simp only [judge, within, Judgement.erred.injEq, reduceCtorEq, false_implies, and_true]
      rintro rfl
      exact exception _ _
    | ok u =>
      simp only [judge, within, observation_of_within within]
      split
      · simp
      · simp only [reduceCtorEq, false_implies, Judgement.failed.injEq, true_and]
        rintro rfl
        split
        · exact isException_shown index v
        · exact value v

/-- The report of the child is accepted by the parent. -/
theorem report_accepted {task : Json} {call : List Json → CallResult}
    (returns : Returns it call) :
    validateReport it (childReport it task call) task = .ok (childReport it task call) := by
  unfold childReport
  rw [runCases_eq]
  dsimp only
  have counted := @passed_add_listed it call (taskCases task) 0
  have bounded := @isError_le it call (taskCases task)
  refine validateReport_eq_ok.mpr ⟨rfl, rfl, by omega, by omega, by omega, fun failure mem => ?_,
    (caseIndex_listed call (taskCases task) 0).1, ?_⟩
  · obtain ⟨index, case, observed, held, rfl, judged⟩ := mem_listed mem
    have expected : expectedAt task index = member "expected" case := by rw [expectedAt, held, Option.getD_some]
    have ok := observedOk_judge (fun v => returns.floats) (fun v => returns.distinct) (fun v => returns.memory) judged
    obtain ⟨bound, -⟩ := List.getElem?_eq_some_iff.mp held
    exact checkFailure_eq_ok.mpr ⟨bound, ok.valid, by rw [expected]; exact ok.differs⟩
  · rw [isException_listed]
    · intro case _ index observed judged
      exact (isException_of_judge index).1 judged
    · intro case _ index observed judged
      exact (isException_of_judge index).2 judged

/-! ### Both ways through the pipe -/

theorem foldl_assign (pairs held : List (String × Json)) (distinct : (Json.keys (held ++ pairs)).Nodup) :
    pairs.foldl (fun fields pair => assign fields pair.1 pair.2) held = held ++ pairs := by
  induction pairs generalizing held with
  | nil => simp
  | cons pair rest ih =>
    have fresh : (held.any fun f => f.1 == pair.1) = false := by
      rw [List.any_eq_false]
      intro f hf eq
      rw [Json.keys, List.map_append, List.nodup_append] at distinct
      exact distinct.2.2 f.1 (List.mem_map_of_mem hf) pair.1 (by simp) (eq_of_beq eq)
    rw [List.foldl_cons, assign, fresh]
    simp only [Bool.false_eq_true, if_false]
    rw [ih _ (by simpa using distinct)]
    simp

theorem pyDict_law (fields : List (String × Json)) (distinct : (Json.keys fields).Nodup) :
    pyDict fields = some (.obj fields) := by
  rw [pyDict, foldl_assign fields [] (by simpa using distinct), List.nil_append]

theorem sendable_childReport {task : Json} (cases : CasesOk task)
    {call : List Json → CallResult} (returns : Returns it call) : Sendable it (childReport it task call) := by
  have few := cases.count.2
  have counted := @passed_add_listed it call (taskCases task) 0
  have bounded := @isError_le it call (taskCases task)
  unfold childReport
  rw [runCases_eq]
  dsimp only
  refine sendable_obj (by decide : ["passed", "total", "errors", "failures"].Nodup) fun f hf => ?_
  simp only [List.mem_cons, List.not_mem_nil, or_false] at hf
  rcases hf with rfl | rfl | rfl | rfl
  · exact sendable_int (by omega)
  · exact sendable_int (by omega)
  · exact sendable_int (by omega)
  refine sendable_arr fun failure mem => ?_
  obtain ⟨index, case, observed, held, rfl, judged⟩ := mem_listed mem
  have ok := observedOk_judge (fun v => returns.floats) (fun v => returns.distinct) (fun v => returns.memory) judged
  obtain ⟨bound, -⟩ := List.getElem?_eq_some_iff.mp held
  refine sendable_obj (by decide : ["case_index", "observed"].Nodup) fun f hf => ?_
  simp only [List.mem_cons, List.not_mem_nil, or_false] at hf
  rcases hf with rfl | rfl
  · exact sendable_int (by omega)
  · exact ok.sends

/-- What the parent reads of what the child prints. -/
theorem loads_printed {task : Json} (cases : CasesOk task)
    {call : List Json → CallResult} (returns : Returns it call) :
    Json.loads pyDict (printed it task call) = some (childReport it task call) := by
  have sends := sendable_childReport cases returns
  exact Json.loads_spaced pyDict_law sends.distinct sends.reads rfl

theorem length_printed (task : Json) (call : List Json → CallResult) :
    (printed it task call).length ≤ outputLimit ↔ ReportFits it task call := by
  rw [printed, List.length_append, length_childReport, ReportFits, outputLimit, List.length_singleton]
  omega

theorem length_payload (text : String) (task : Json) :
    (payload it text task).length ≤ inputLimit ↔ SourceFits it text task := by
  have keys : (Json.quote true "source").length = 8 ∧ (Json.quote true "task").length = 6 := by decide
  have source : (Json.spaced true it.floatRepr (.str text)).length = (Json.quote true text).length := rfl
  rw [payload, length_obj, SourceFits, inputLimit]
  simp only [List.map_nil, List.map_cons, List.sum_cons, List.sum_nil, fieldLength, keys.1, keys.2, source]
  omega

theorem sendable_case {parameters : Nat} {case : Json} (floats : case.Everywhere (FloatReads it)) (distinct : case.Everywhere Json.KeysDistinct)
    (checked : checkCase parameters case = .ok ()) : Sendable it case := by
  obtain ⟨fields, ok⟩ := caseOk checked
  exact sendable_within floats distinct ok.within

theorem sendable_isText {pattern : String → Bool} {v : Json} (text : v.isText pattern = true) : Sendable it v := by
  cases v with
  | str s => exact sendable_str s
  | _ => simp [Json.isText, Json.str?] at text

theorem sendable_texts {v : Json} {names : List String} (texts : v.texts? = some names) : Sendable it v := by
  cases v with
  | arr items =>
    refine sendable_arr fun item mem => ?_
    rw [mapM_str texts] at mem
    obtain ⟨name, -, rfl⟩ := List.mem_map.mp mem
    exact sendable_str name
  | _ => simp [Json.texts?] at texts

/-- A task is read as it was written. -/
theorem sendable_task {task : Json} (floats : task.Everywhere (FloatReads it)) (distinct : task.Everywhere Json.KeysDistinct)
    (accepted : taskSpec it task = .ok task) : Sendable it task := by
  obtain ⟨fields, rfl, named⟩ := taskFields accepted
  have cases := casesOk accepted
  have inside := Json.everywhere_obj.mp distinct
  simp only [taskSpec, bind_eq_ok, need_eq_ok, each_eq_ok] at accepted
  obtain ⟨-, -, -, patterns, -, parameters, -, -, -, instruction, -, list, -⟩ := accepted
  refine sendable_obj inside.1 fun f hf => ?_
  have read : member f.1 (.obj fields) = f.2 := by
    have held := (Json.lookup_eq_some_iff inside.1).mpr hf
    simp only [member, Json.field, held, Option.getD_some]
  have known : f.1 ∈ structuredFields := (Json.sameSet_iff.mp named f.1).mp (List.mem_map_of_mem hf)
  have texts : ∀ pattern, (f.1, pattern) ∈ structuredPatterns → Sendable it f.2 := by
    intro pattern mem
    exact sendable_isText (read ▸ patterns _ mem)
  simp only [structuredFields, List.mem_cons, List.not_mem_nil, or_false] at known
  rcases known with key | key | key | key | key | key | key | key <;> rw [key] at read texts
  · exact texts isStructuredId (by simp [structuredPatterns])
  · exact texts isModulePath (by simp [structuredPatterns])
  · exact texts isFunctionName (by simp [structuredPatterns])
  · rw [read] at parameters
    cases held : f.2.texts? with
    | none => simp [parametersNamed, held] at parameters
    | some names => exact sendable_texts held
  · exact sendable_isText (read ▸ instruction)
  · exact texts (hexRun 40) (by simp [structuredPatterns])
  · exact texts (hexRun 64) (by simp [structuredPatterns])
  · have here := inside.2 f hf
    have read' := (Json.everywhere_obj.mp floats).2 f hf
    have each := cases.each
    rw [taskCases, read] at each
    cases value : f.2 with
    | arr items =>
      rw [value] at each here read'
      exact sendable_arr fun case mem => sendable_case ((Json.everywhere_arr.mp read').2 case mem)
        ((Json.everywhere_arr.mp here).2 case mem) (each case mem)
    | _ => simp [read, value, isListOf] at list

theorem length_escape_pos (c : Char) : 1 ≤ (Json.escapeChar true c).length := by
  unfold Json.escapeChar Json.unicodeEscape
  repeat' split
  all_goals simp

theorem utf8Size_le_escape (c : Char) : c.utf8Size ≤ (Json.escapeChar true c).length := by
  have most : c.utf8Size ≤ 4 := by
    unfold Char.utf8Size
    dsimp only
    split
    · omega
    · split
      · omega
      · split <;> omega
  by_cases high : 127 ≤ c.toNat
  · have other : ∀ d : Char, d.toNat < 127 → c ≠ d := by
      rintro d low rfl
      omega
    unfold Json.escapeChar
    simp only [other '"' (by decide), other '\\' (by decide), other '\n' (by decide), other '\r' (by decide),
      other '\t' (by decide), if_false]
    rw [if_neg (by omega), if_neg (by omega)]
    by_cases unit : c.toNat < 65536
    · rw [if_pos (Or.inr ⟨trivial, high, unit⟩)]
      simp only [Json.unicodeEscape, List.length_cons]
      omega
    · rw [if_neg (by omega), if_pos ⟨trivial, by omega⟩]
      simp only [Json.unicodeEscape, List.length_append, List.length_cons]
      omega
  · have one : c.utf8Size = 1 := by
      have small : c.val ≤ 127 := by
        rw [UInt32.le_iff_toNat_le]
        show c.toNat ≤ 127
        omega
      simp [Char.utf8Size, small]
    rw [one]
    exact length_escape_pos c

theorem byteLength_le_quote (text : String) : Json.byteLength text.toList ≤ (Json.quote true text).length := by
  have each : ∀ cs : List Char, Json.byteLength cs ≤ (cs.flatMap (Json.escapeChar true)).length := by
    intro cs
    induction cs with
    | nil => exact Nat.le_refl 0
    | cons c rest ih =>
      have first := utf8Size_le_escape c
      rw [Json.byteLength_cons, List.flatMap_cons, List.length_append]
      omega
  have inner := each text.toList
  simp only [Json.quote, List.length_append, List.length_cons, List.length_nil]
  omega

/-- What the parser guarantees: the text of an extracted function is guarded like the source it comes from,
unless it is too long. -/
def Guard.Stable (g : Guard) : Prop :=
  ∀ {source task text}, g.guarded source task = .ok () → g.extracted source task = .ok text →
    Json.byteLength text.toList ≤ 262144 → g.guarded text task = .ok ()

/-- What is sent fits, what comes back fits and is accepted, and so the source gets its report. -/
structure RoundTrips (it : Interpreter) (g : Guard) (source : String) (task : Json) (text : String) : Prop where
  input : (payload it text task).length ≤ inputLimit
  output : (printed it task (g.call text task)).length ≤ outputLimit
  accepted : validateReport it (childReport it task (g.call text task)) task =
    .ok (childReport it task (g.call text task))
  report : validate it g source task = .ok (childReport it task (g.call text task))

theorem RoundTrips.fits {g : Guard} {source text : String} {task : Json} (h : RoundTrips it g source task text) :
    SourceFits it text task ∧ ReportFits it task (g.call text task) :=
  ⟨(length_payload text task).mp h.input, (length_printed task _).mp h.output⟩

/-- A guarded source gets its report exactly if its text with the task and its failing results fit. -/
theorem child_round_trip {g : Guard} {source text : String} {task : Json}
    (floats : task.Everywhere (FloatReads it)) (stable : g.Stable) (accepted : taskSpec it task = .ok task) (distinct : task.Everywhere Json.KeysDistinct)
    (guarded : g.guarded source task = .ok ()) (extracted : g.extracted source task = .ok text)
    (returns : Returns it (g.call text task)) :
    RoundTrips it g source task text ↔ SourceFits it text task ∧ ReportFits it task (g.call text task) := by
  refine ⟨RoundTrips.fits, fun ⟨sourceFits, reportFits⟩ => ?_⟩
  have cases := casesOk accepted
  have input := (length_payload text task).mpr sourceFits
  have output := (length_printed task (g.call text task)).mpr reportFits
  have reported := @report_accepted it task _ returns
  refine ⟨input, output, reported, ?_⟩
  have small : Json.byteLength text.toList ≤ 262144 := by
    have most := byteLength_le_quote text
    unfold SourceFits at sourceFits
    omega
  have sends : Sendable it (.obj [("source", .str text), ("task", task)]) := by
    refine sendable_obj (by decide : ["source", "task"].Nodup) fun f hf => ?_
    simp only [List.mem_cons, List.not_mem_nil, or_false] at hf
    rcases hf with rfl | rfl
    · exact sendable_str text
    · exact sendable_task floats distinct accepted
  have read : Json.loads pyDict (payload it text task) = some (.obj [("source", .str text), ("task", task)]) := by
    have loaded := @Json.loads_spaced pyDict true it.floatRepr pyDict_law _ sends.distinct sends.reads [] rfl
    rwa [List.append_nil] at loaded
  have answers : validateChild it g (payload it text task) = .ok (printed it task (g.call text task)) := by
    refine bind_eq_ok.mpr ⟨(), need_eq_ok.mpr input, bind_eq_ok.mpr ⟨_, orError_eq_ok.mpr read, ?_⟩⟩
    refine bind_eq_ok.mpr ⟨task, ?_, bind_eq_ok.mpr ⟨text, ?_, bind_eq_ok.mpr ⟨(), ?_, rfl⟩⟩⟩
    · simpa [member, Json.field, Json.lookup] using accepted
    · simp [member, Json.field, Json.lookup, Json.str?]
    · exact stable guarded extracted small
  refine bind_eq_ok.mpr ⟨task, accepted, bind_eq_ok.mpr ⟨(), guarded, bind_eq_ok.mpr ⟨text, extracted, ?_⟩⟩⟩
  rw [answers]
  refine bind_eq_ok.mpr ⟨(), need_eq_ok.mpr output, ?_⟩
  rw [loads_printed cases returns]
  exact reported

namespace Sample

/-- A candidate that returns one value whatever it is called with. -/
def constant (result : Json) : Guard where
  guarded _ _ := .ok ()
  extracted source _ := .ok source
  call _ _ _ := .value result

def keepSource : String := "def keep(x):\n    return 3\n"

/-- A text of letters that take two bytes each, and six characters where they are escaped. -/
def accents (n : Nat) : String := String.ofList (List.replicate n 'é')

def manyTask (n : Nat) : Json := structuredTask (List.replicate n (identityCase (.int 1)))

end Sample

theorem sample_child_round_trip :
    RoundTrips Sample.worker (Sample.constant (.int 3)) Sample.keepSource Sample.numbers Sample.keepSource ↔
      SourceFits Sample.worker Sample.keepSource Sample.numbers ∧ ReportFits Sample.worker Sample.numbers
        ((Sample.constant (.int 3)).call Sample.keepSource Sample.numbers) := by
  refine child_round_trip ?_ (fun _ _ _ => rfl) sample_numbers sample_numbers_distinct rfl rfl ⟨?_, ?_, ?_⟩
  · simp [Sample.numbers, Sample.structuredTask, Sample.identityCase, FloatReads]
  · rintro args v ⟨⟩
    exact Json.everywhere_int.mpr trivial
  · rintro args v ⟨⟩
    exact Json.everywhere_int.mpr trivial
  · rintro args v ⟨⟩
    have small : Json.byteLength (encoded Sample.worker (.int 3)) = 1 := by decide
    omega

/-- If no case passes and each observation takes `k` characters at least, so does each failure. -/
theorem le_failureLengths {call : List Json → CallResult} {k : Nat} (cases : List Json) (start : Nat)
    (fails : ∀ case ∈ cases, passes (member "expected" case) (resultOf call case) = false)
    (long : ∀ case ∈ cases, k ≤ observedLength it (resultOf call case)) :
    cases.length * k ≤ ((failureLengths it call cases start).map (· + 2)).sum := by
  induction cases generalizing start with
  | nil => simp
  | cons case rest ih =>
    rw [List.forall_mem_cons] at fails long
    have more := ih (start + 1) fails.2 long.2
    simp only [failureLengths] at more
    simp only [failureLengths, List.zipIdx_cons, List.filterMap_cons, fails.1, Bool.false_eq_true, if_false,
      List.map_cons, List.sum_cons, List.length_cons, Nat.succ_mul]
    have first := long.1
    omega

theorem accents_bytes (n : Nat) : Json.byteLength (encoded it (.str (Sample.accents n))) = n * 2 + 2 := by
  have letter : Json.byteLength (Json.escapeChar false 'é') = 2 := by decide
  show Json.byteLength (Json.quote false (Sample.accents n)) = n * 2 + 2
  rw [Sample.accents, Json.byteLength_quote_replicate, letter]

theorem accents_escaped (n : Nat) :
    (Json.spaced true it.floatRepr (.str (Sample.accents n))).length = n * 6 + 2 := by
  have letter : (Json.escapeChar true 'é').length = 6 := by decide
  show (Json.quote true (Sample.accents n)).length = n * 6 + 2
  rw [Sample.accents, Json.length_quote_replicate, letter]

theorem observedLength_accents {n : Nat} (short : n ≤ 255) :
    n * 6 ≤ observedLength it (.value (.str (Sample.accents n))) := by
  have within : jsonValue 0 (.str (Sample.accents n)) = .ok () := by
    rw [jsonValue, need_bind_eq_ok, need_eq_ok, Sample.accents, String.length_ofList, List.length_replicate]
    omega
  simp only [observedLength, within, Except.toOption, Option.isSome_some, if_true, accents_bytes, accents_escaped]
  rw [if_pos (by omega)]
  omega

theorem passes_accents (n : Nat) : passes (.int 1) (.value (.str (Sample.accents n))) = false := by
  simp [passes, Json.typeName]

theorem reportLength_accents {n m : Nat} (short : n ≤ 255) :
    m * (n * 6) ≤ reportLength it (Sample.manyTask m) (fun _ => .value (.str (Sample.accents n))) + 2 := by
  have cases : taskCases (Sample.manyTask m) = List.replicate m (Sample.identityCase (.int 1)) := rfl
  have least := @le_failureLengths it (fun _ => .value (.str (Sample.accents n))) (n * 6)
    (List.replicate m (Sample.identityCase (.int 1))) 0
    (fun case mem => by rw [List.eq_of_mem_replicate mem]; exact passes_accents n)
    (fun _ _ => observedLength_accents short)
  rw [List.length_replicate] at least
  rw [reportLength, cases]
  omega

/-- The report of a hundred such texts is longer than what the parent reads. -/
theorem sample_report_too_long : taskSpec Sample.worker (Sample.manyTask 100) = .ok (Sample.manyTask 100) ∧
    ¬ RoundTrips Sample.worker (Sample.constant (.str (Sample.accents 253))) Sample.keepSource (Sample.manyTask 100)
      Sample.keepSource := by
  refine ⟨structuredTask_accepted (by simp) (fun case mem => ?_) (by decide +kernel), fun trips => ?_⟩
  · rw [List.eq_of_mem_replicate mem]
    exact checkCase_identity rfl
  · have fits : reportLength Sample.worker (Sample.manyTask 100) (fun _ => .value (.str (Sample.accents 253))) ≤
        131071 := trips.fits.2
    have least := @reportLength_accents Sample.worker 253 100 (by omega)
    omega

end WorkerPool
