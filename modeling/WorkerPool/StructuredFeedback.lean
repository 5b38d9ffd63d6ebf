import WorkerPool.Artifact
import WorkerPool.StructuredReport

/-!
# Feedback on a failed candidate

A proposal is a task, with feedback on an earlier candidate or without. The feedback repeats failing cases
with what was observed, as many of the first eight as fit.
-/

namespace WorkerPool

open PyText

def feedbackLimit : Nat := 12000

def fieldsOf : Json → List (String × Json)
  | .obj fields => fields
  | _ => []

/-- `json.dumps(value, sort_keys=True, allow_nan=False)`, which raises `ValueError` at what it cannot write. -/
def sortedText (it : Interpreter) (value : Json) : Except Raised (List Char) :=
  if value.Everywhere Writable then .ok (value.sorted.spaced true it.floatRepr) else .error .error

/-- The case that a failure names. -/
def failedCase (task failure : Json) : Json := (taskCases task)[(caseIndex failure).toNat]?.getD .null

/-- The body of the loop of `proposal_spec`. -/
def checkFeedback (it : Interpreter) (task failure : Json) : Except Raised Unit := do
  need (keysAre ["case_index", "args", "expected", "observed"] failure ∧
    isIntIn 0 ((taskCases task).length - 1) (member "case_index" failure)) "feedback_case"
  let repeated ← sortedText it (.obj [("args", member "args" failure), ("expected", member "expected" failure)])
  let text ← sortedText it (failedCase task failure)
  need (repeated = text) "feedback_case_changed"
  validateObservation it (member "observed" failure)

/-- `proposal_spec`. A list equals its sorted set if it is increasing. -/
def proposalSpec (it : Interpreter) (proposal : Json) : Except Raised Json := do
  need proposal.isObj "proposal_schema"
  let task ← taskSpec it (.obj ((fieldsOf proposal).filter fun f => f.1 ≠ "feedback"))
  if hasKey "feedback" proposal then
    let feedback := member "feedback" proposal
    need (keysAre ["schema_version", "candidate_sha256", "failed_count", "failures"] feedback ∧
      isIntIn 1 1 (member "schema_version" feedback) ∧ (member "candidate_sha256" feedback).isText (hexRun 64) ∧
      isIntIn 1 (taskCases task).length (member "failed_count" feedback)) "feedback_schema"
    let failed := ((member "failed_count" feedback).int?.getD 0).toNat
    need (isListOf 1 (min 8 failed) (member "failures" feedback)) "feedback_failures"
    let failures := listOf (member "failures" feedback)
    each (checkFeedback it task) failures
    need ((failures.map caseIndex).Pairwise (· < ·)) "feedback_case_order"
    need (feedback.spacedBytes false it.floatRepr ≤ feedbackLimit) "feedback_size"
    pure task
  else pure task

/-! ### What the worker sends -/

/-- `{"case_index": …, **case, "observed": …}`. -/
def feedbackEntry (task failure : Json) : Json :=
  .obj (("case_index", member "case_index" failure) :: fieldsOf (failedCase task failure) ++
    [("observed", member "observed" failure)])

def feedbackOf (fingerprint : String) (failed : Nat) (entries : List Json) : Json :=
  .obj [("schema_version", .int 1), ("candidate_sha256", .str fingerprint), ("failed_count", .int failed),
    ("failures", .arr entries)]

def fitsLimit (it : Interpreter) (fingerprint : String) (failed : Nat) (entries : List Json) : Bool :=
  (feedbackOf fingerprint failed entries).spacedBytes false it.floatRepr ≤ feedbackLimit

/-- The loop of `semantic_feedback`: entries are added until one does not fit. -/
def gather (fits : List Json → Bool) : List Json → List Json → List Json
  | held, [] => held
  | held, entry :: rest => if fits (held ++ [entry]) then gather fits (held ++ [entry]) rest else held

/-- `semantic_feedback`, with `ast.dump` of the guarded candidate. -/
def semanticFeedback (it : Interpreter) (task : Json) (dump : String) (report : Json) : Except Raised Json := do
  let report ← validateReport it report task
  let failures := listOf (member "failures" report)
  need (failures ≠ []) "semantic_feedback_missing"
  let feedback := feedbackOf (it.sha256 dump) failures.length
  let held := gather (fitsLimit it (it.sha256 dump) failures.length) [] ((failures.take 8).map (feedbackEntry task))
  let _ ← proposalSpec it (.obj (assign (fieldsOf task) "feedback" (feedback held)))
  pure (feedback held)

/-! ### The longest prefix that fits -/

section Gather

/-- The loop stops before the first entry that does not fit. -/
theorem gather_eq (fits : List Json → Bool) (held entries : List Json) : ∃ n ≤ entries.length,
    gather fits held entries = held ++ entries.take n ∧
      (∀ m, 0 < m → m ≤ n → fits (held ++ entries.take m) = true) ∧
      (n < entries.length → fits (held ++ entries.take (n + 1)) = false) := by
  induction entries generalizing held with
  | nil => exact ⟨0, Nat.le_refl 0, by simp [gather], fun m _ _ => by omega, by simp⟩
  | cons entry rest ih =>
    by_cases fit : fits (held ++ [entry]) = true
    · obtain ⟨n, le, eq, within, stop⟩ := ih (held ++ [entry])
      have step : ∀ m, held ++ (entry :: rest).take (m + 1) = held ++ [entry] ++ rest.take m := by
        intro m
        simp
      refine ⟨n + 1, Nat.succ_le_succ le, ?_, fun m pos le => ?_, fun more => ?_⟩
      · rw [gather, if_pos fit, eq, step]
      · obtain ⟨k, rfl⟩ : ∃ k, m = k + 1 := ⟨m - 1, by omega⟩
        rw [step]
        cases k with
        | zero => simpa using fit
        | succ k => exact within (k + 1) (by omega) (by omega)
      · rw [step]
        exact stop (Nat.lt_of_succ_lt_succ more)
    · refine ⟨0, Nat.zero_le _, by simp [gather, fit], fun m _ _ => by omega, fun _ => ?_⟩
      simpa using fit

end Gather

/-! ### What an accepted report holds -/

variable {it : Interpreter}

/-- A failure names a case of the task and holds an observation. -/
structure FailureOk (it : Interpreter) (task failure : Json) : Prop where
  index : isIntIn 0 ((taskCases task).length - 1) (member "case_index" failure) = true
  observed : validateObservation it (member "observed" failure) = .ok ()

structure ReportOk (it : Interpreter) (task report : Json) : Prop where
  each : ∀ failure ∈ listOf (member "failures" report), FailureOk it task failure
  ordered : ((listOf (member "failures" report)).map caseIndex).Pairwise (· < ·)
  few : (listOf (member "failures" report)).length ≤ (taskCases task).length

theorem length_of_isListOf {lo hi : Nat} {v : Json} (h : isListOf lo hi v = true) :
    lo ≤ (listOf v).length ∧ (listOf v).length ≤ hi := by
  cases v with
  | arr items => simpa [isListOf, listOf] using h
  | _ => simp [isListOf] at h

theorem reportOk {task report evidence : Json} (h : validateReport it report task = .ok evidence) :
    evidence = report ∧ ReportOk it task report := by
  simp only [validateReport, bind_eq_ok, need_eq_ok, each_eq_ok, pure, Except.pure, Except.ok.injEq] at h
  obtain ⟨-, -, -, ⟨-, passes, -⟩, -, size, -, checked, -, ordered, -, -, rfl⟩ := h
  refine ⟨rfl, fun failure mem => ?_, ordered, ?_⟩
  · have ok := checked failure mem
    simp only [checkFailure, bind_eq_ok, need_eq_ok] at ok
    obtain ⟨_, ⟨-, index⟩, _, observed, -⟩ := ok
    exact ⟨index, observed⟩
  · have most := (length_of_isListOf size).2
    have positive : 0 ≤ (member "passed" report).int?.getD 0 := by
      cases read : (member "passed" report).int? with
      | none => exact Int.le_refl 0
      | some n =>
        simp only [isIntIn, read, Option.any_some, Bool.and_eq_true, decide_eq_true_eq] at passes
        exact passes.1
    omega

/-! ### A case and its entry -/

/-- What the checks of a case leave known of it. -/
structure CaseOk (case : Json) (fields : List (String × Json)) : Prop where
  eq : case = .obj fields
  named : Json.sameSet (Json.keys fields) ["args", "expected"] = true
  within : jsonValue 0 case = .ok ()

theorem caseOk {parameters : Nat} {case : Json} (h : checkCase parameters case = .ok ()) :
    ∃ fields, CaseOk case fields := by
  simp only [checkCase, bind_eq_ok, need_eq_ok] at h
  obtain ⟨_, named, _, -, within⟩ := h
  obtain ⟨fields, rfl⟩ := isObj_of_needFields named
  rw [needFields_obj, need_eq_ok] at named
  exact ⟨fields, rfl, named, within⟩

/-- The index of a failure as a natural number. -/
theorem FailureOk.place {task failure : Json} (ok : FailureOk it task failure) : ∃ index : Nat,
    member "case_index" failure = .int index ∧ index < (taskCases task).length ∧
      caseIndex failure = index ∧ (taskCases task)[index]? = some (failedCase task failure) := by
  have inside := ok.index
  cases read : member "case_index" failure with
  | int n =>
    simp only [isIntIn, read, Json.int?, Option.any_some, Bool.and_eq_true, decide_eq_true_eq] at inside
    have index : caseIndex failure = n := by simp [caseIndex, read, Json.int?]
    have bound : n.toNat < (taskCases task).length := by omega
    refine ⟨n.toNat, by rw [Int.toNat_of_nonneg inside.1], bound, by omega, ?_⟩
    rw [failedCase, index, List.getElem?_eq_getElem bound, Option.getD_some]
  | _ => simp [isIntIn, read, Json.int?] at inside

theorem lookup_append (key : String) (fields others : List (String × Json)) :
    Json.lookup key (fields ++ others) = (Json.lookup key others).or (Json.lookup key fields) := by
  simp only [Json.lookup, List.reverse_append, List.find?_append, Option.map_or]

theorem lookup_single (key : String) (f : String × Json) :
    Json.lookup key [f] = if f.1 == key then some f.2 else none := by
  simp only [Json.lookup, List.reverse_singleton, List.find?_singleton]
  split <;> rfl

section Entry

variable {task failure : Json} {fields : List (String × Json)}

theorem feedbackEntry_eq (ok : CaseOk (failedCase task failure) fields) :
    feedbackEntry task failure = .obj ([("case_index", member "case_index" failure)] ++ fields ++
      [("observed", member "observed" failure)]) := by
  rw [feedbackEntry, ok.eq]
  rfl

theorem lookup_case (ok : CaseOk (failedCase task failure) fields) (key : String) :
    Json.lookup key fields = if key ∈ ["args", "expected"] then some (Json.field key fields) else none :=
  Json.lookup_of_named ok.named key

theorem member_feedbackEntry (ok : CaseOk (failedCase task failure) fields) :
    member "case_index" (feedbackEntry task failure) = member "case_index" failure ∧
      member "args" (feedbackEntry task failure) = Json.field "args" fields ∧
      member "expected" (feedbackEntry task failure) = Json.field "expected" fields ∧
      member "observed" (feedbackEntry task failure) = member "observed" failure := by
  have get : ∀ key, member key (feedbackEntry task failure) =
      ((Json.lookup key [("observed", member "observed" failure)]).or ((Json.lookup key fields).or
        (Json.lookup key [("case_index", member "case_index" failure)]))).getD .null := by
    intro key
    rw [feedbackEntry_eq ok]
    simp only [member, Json.field, lookup_append]
  refine ⟨?_, ?_, ?_, ?_⟩ <;>
  · rw [get, lookup_single, lookup_single, lookup_case ok]
    simp

theorem keysAre_feedbackEntry (ok : CaseOk (failedCase task failure) fields) :
    keysAre ["case_index", "args", "expected", "observed"] (feedbackEntry task failure) = true := by
  rw [feedbackEntry_eq ok, keysAre, Json.sameSet_iff]
  intro key
  have inside := Json.sameSet_iff.mp ok.named key
  simp only [Json.keys, List.map_append, List.mem_append, List.map_cons, List.map_nil, List.mem_cons,
    List.not_mem_nil, or_false] at inside ⊢
  rw [inside]
  tauto

theorem jsonValue_writable {depth : Nat} {v : Json} (h : jsonValue depth v = .ok ()) : v.Everywhere Writable := by
  intro w hw
  obtain ⟨depth, held⟩ := jsonValue_everywhere h w hw
  cases w with
  | int n =>
    simp only [jsonValue, need_bind_eq_ok, need_eq_ok] at held
    have digits : (Nat.toDigits 10 n.natAbs).length ≤ 7 :=
      (Nat.length_toDigits_le_iff (by decide) (by decide)).mpr (by omega)
    exact Nat.le_trans digits (by decide)
  | float bits =>
    simp only [jsonValue, need_bind_eq_ok, need_eq_ok, floatWithin, Bool.and_eq_true] at held
    exact held.2.1
  | _ => trivial

theorem sortedText_congr {v w : Json} (same : v.sorted = w.sorted) : sortedText it v = sortedText it w := by
  have everywhere : v.Everywhere Writable ↔ w.Everywhere Writable := by
    rw [← Json.everywhere_sorted (fun _ => trivial) (fun _ => trivial) v, same,
      Json.everywhere_sorted (fun _ => trivial) (fun _ => trivial) w]
  simp only [sortedText, same, everywhere]

/-- The entry of a failure passes the loop of `proposal_spec`. -/
theorem checkFeedback_entry (ok : CaseOk (failedCase task failure) fields) (distinct : (Json.keys fields).Nodup)
    (listed : FailureOk it task failure) : checkFeedback it task (feedbackEntry task failure) = .ok () := by
  obtain ⟨index, args, expected, observed⟩ := member_feedbackEntry ok
  have place : caseIndex (feedbackEntry task failure) = caseIndex failure := by simp only [caseIndex, index]
  have same : (Json.obj [("args", member "args" (feedbackEntry task failure)),
      ("expected", member "expected" (feedbackEntry task failure))]).sorted = (failedCase task failure).sorted := by
    rw [ok.eq, args, expected]
    have keys : ["args", "expected"].Nodup := by decide
    refine Json.sorted_eq_of_fields keys distinct rfl ok.named fun key mem => ?_
    rcases List.mem_cons.mp mem with rfl | mem
    · rfl
    · obtain rfl := List.mem_singleton.mp mem
      rfl
  have text : sortedText it (failedCase task failure) = .ok ((failedCase task failure).sorted.spaced true it.floatRepr) :=
    if_pos (jsonValue_writable ok.within)
  have case : failedCase task (feedbackEntry task failure) = failedCase task failure := by
    simp only [failedCase, place]
  unfold checkFeedback
  rw [case]
  refine bind_eq_ok.mpr ⟨(), need_eq_ok.mpr ⟨keysAre_feedbackEntry ok, index ▸ listed.index⟩, ?_⟩
  refine bind_eq_ok.mpr ⟨_, (sortedText_congr same).trans text, bind_eq_ok.mpr ⟨_, text, ?_⟩⟩
  exact bind_eq_ok.mpr ⟨(), need_eq_ok.mpr rfl, observed ▸ listed.observed⟩

end Entry

/-! ### Sizes -/

/-- `len(json.dumps(value, ensure_ascii=False).encode())`. -/
def bytes (it : Interpreter) (v : Json) : Nat := v.spacedBytes false it.floatRepr

theorem bytes_field (it : Interpreter) (key : String) (v : Json) :
    Json.byteLength (Json.spacedField false it.floatRepr (key, v)) =
      Json.byteLength (Json.quote false key) + 2 + bytes it v := Json.byteLength_spacedField _ _ _ _

theorem bytes_entry {task failure : Json} {fields : List (String × Json)}
    (ok : CaseOk (failedCase task failure) fields) : bytes it (feedbackEntry task failure) =
      bytes it (member "case_index" failure) + bytes it (failedCase task failure) +
        bytes it (member "observed" failure) + 30 := by
  have some : fields ≠ [] := by
    rintro rfl
    exact absurd ok.named (by decide)
  have index : Json.byteLength (Json.quote false "case_index") = 12 := by decide
  have observed : Json.byteLength (Json.quote false "observed") = 10 := by decide
  have case : bytes it (failedCase task failure) =
      Json.joinedBytes (fields.map (Json.spacedField false it.floatRepr)) + 2 := by
    rw [ok.eq, bytes, Json.spacedBytes_obj]
  rw [case, feedbackEntry_eq ok, bytes, Json.spacedBytes_obj]
  simp only [List.map_append, List.map_cons, List.map_nil]
  rw [Json.joinedBytes_append_single (by simp), List.singleton_append, Json.joinedBytes_cons _ (by simpa using some),
    bytes_field, bytes_field, index, observed]
  omega

/-- The size of feedback, apart from what its entries take. -/
theorem bytes_feedback {fingerprint : String} (hex : hexRun 64 fingerprint = true) (failed : Nat)
    (entries : List Json) : bytes it (feedbackOf fingerprint failed entries) =
      143 + bytes it (.int failed) + Json.joinedBytes (entries.map (Json.spaced false it.floatRepr)) := by
  have version : Json.byteLength (Json.quote false "schema_version") = 16 := by decide
  have candidate : Json.byteLength (Json.quote false "candidate_sha256") = 18 := by decide
  have count : Json.byteLength (Json.quote false "failed_count") = 14 := by decide
  have failures : Json.byteLength (Json.quote false "failures") = 10 := by decide
  have one : bytes it (.int 1) = 1 := by
    show Json.byteLength (toString (1 : Int)).toList = 1
    decide
  have digest : bytes it (.str fingerprint) = 66 := by
    simp only [hexRun, Bool.and_eq_true, beq_iff_eq] at hex
    show Json.byteLength (Json.quote false fingerprint) = 66
    rw [Json.byteLength_quote_hex hex.2, hex.1]
  rw [bytes, feedbackOf, Json.spacedBytes_obj]
  simp only [List.map_cons, List.map_nil]
  rw [Json.joinedBytes_cons _ (by simp), Json.joinedBytes_cons _ (by simp), Json.joinedBytes_cons _ (by simp)]
  have last : Json.joinedBytes [Json.spacedField false it.floatRepr ("failures", .arr entries)] =
      Json.byteLength (Json.spacedField false it.floatRepr ("failures", .arr entries)) := rfl
  have list : bytes it (.arr entries) = Json.joinedBytes (entries.map (Json.spaced false it.floatRepr)) + 2 :=
    Json.spacedBytes_arr _ _ _
  rw [last, bytes_field, bytes_field, bytes_field, bytes_field, version, candidate, count, failures, one, digest, list]
  omega

/-! ### The proposal -/

theorem taskFields {task task' : Json} (h : taskSpec it task = .ok task') :
    ∃ fields, task = .obj fields ∧ Json.sameSet (Json.keys fields) structuredFields = true := by
  obtain ⟨_, named, -⟩ := bind_eq_ok.mp h
  obtain ⟨fields, rfl⟩ := isObj_of_needFields named
  rw [needFields_obj, need_eq_ok] at named
  exact ⟨fields, rfl, named⟩

/-- A task with feedback on it is an accepted proposal of the task. -/
theorem proposalSpec_feedback {task : Json} {fingerprint : String} {failed : Nat} {held : List Json}
    (accepted : taskSpec it task = .ok task) (hex : hexRun 64 fingerprint = true)
    (failing : 1 ≤ failed) (few : failed ≤ (taskCases task).length) (first : 1 ≤ held.length)
    (most : held.length ≤ min 8 failed) (checked : ∀ entry ∈ held, checkFeedback it task entry = .ok ())
    (ordered : (held.map caseIndex).Pairwise (· < ·))
    (fits : bytes it (feedbackOf fingerprint failed held) ≤ feedbackLimit) :
    proposalSpec it (.obj (assign (fieldsOf task) "feedback" (feedbackOf fingerprint failed held))) = .ok task := by
  obtain ⟨fields, rfl, named⟩ := taskFields accepted
  have other : ∀ f ∈ fields, f.1 ≠ "feedback" := by
    intro f hf eq
    have inside := (Json.sameSet_iff.mp named f.1).mp (List.mem_map_of_mem hf)
    rw [eq] at inside
    exact absurd inside (by decide)
  have assigned : assign fields "feedback" (feedbackOf fingerprint failed held) =
      fields ++ [("feedback", feedbackOf fingerprint failed held)] := by
    refine if_neg fun any => ?_
    obtain ⟨f, hf, eq⟩ := List.any_eq_true.mp any
    exact other f hf (eq_of_beq eq)
  have kept : (fields ++ [("feedback", feedbackOf fingerprint failed held)]).filter (fun f => f.1 ≠ "feedback") =
      fields := by
    rw [List.filter_append, List.filter_eq_self.mpr fun f hf => decide_eq_true (other f hf)]
    simp
  have found : Json.lookup "feedback" (fields ++ [("feedback", feedbackOf fingerprint failed held)]) =
      some (feedbackOf fingerprint failed held) := by
    rw [lookup_append, lookup_single]
    rfl
  have held' : member "feedback" (.obj (fields ++ [("feedback", feedbackOf fingerprint failed held)])) =
      feedbackOf fingerprint failed held := by
    simp only [member, Json.field, found, Option.getD_some]
  have count : isIntIn 1 (taskCases (.obj fields)).length (.int failed) = true := by
    simp only [isIntIn, Json.int?, Option.any_some, Bool.and_eq_true, decide_eq_true_eq]
    omega
  have reads : member "schema_version" (feedbackOf fingerprint failed held) = .int 1 ∧
      member "candidate_sha256" (feedbackOf fingerprint failed held) = .str fingerprint ∧
      member "failed_count" (feedbackOf fingerprint failed held) = .int failed ∧
      member "failures" (feedbackOf fingerprint failed held) = .arr held := by
    simp [member, feedbackOf, Json.field, Json.lookup]
  rw [fieldsOf, assigned]
  refine bind_eq_ok.mpr ⟨(), need_eq_ok.mpr rfl, bind_eq_ok.mpr ⟨.obj fields, ?_, ?_⟩⟩
  · rw [fieldsOf, kept]
    exact accepted
  rw [if_pos (by rw [hasKey, found]; rfl), held']
  dsimp only
  rw [reads.1, reads.2.1, reads.2.2.1, reads.2.2.2]
  refine bind_eq_ok.mpr ⟨(), need_eq_ok.mpr ⟨rfl, rfl, hex, count⟩, ?_⟩
  refine bind_eq_ok.mpr ⟨(), need_eq_ok.mpr ?_, ?_⟩
  · simp only [isListOf, Json.int?, Option.getD_some, Int.toNat_natCast, Bool.and_eq_true]
    exact ⟨decide_eq_true first, decide_eq_true most⟩
  refine bind_eq_ok.mpr ⟨(), each_eq_ok.mpr checked, ?_⟩
  refine bind_eq_ok.mpr ⟨(), need_eq_ok.mpr ordered, ?_⟩
  exact bind_eq_ok.mpr ⟨(), need_eq_ok.mpr fits, rfl⟩

/-! ### Feedback on an accepted report -/

/-- The failures that a report lists. -/
def failuresOf (report : Json) : List Json := listOf (member "failures" report)

/-- Feedback with the first so many failures of a report. -/
def feedbackUpTo (it : Interpreter) (task : Json) (dump : String) (report : Json) (n : Nat) : Json :=
  feedbackOf (it.sha256 dump) (failuresOf report).length (((failuresOf report).take n).map (feedbackEntry task))

/-- The feedback takes no more bytes than the limit. -/
def Fits (it : Interpreter) (task : Json) (dump : String) (report : Json) (n : Nat) : Prop :=
  bytes it (feedbackUpTo it task dump report n) ≤ feedbackLimit

/-- The feedback is made and accepted: the longest non-empty prefix of the first eight failures that fits, with
the count of all. -/
def Constructible (it : Interpreter) (task : Json) (dump : String) (report : Json) : Prop :=
  ∃ n, semanticFeedback it task dump report = .ok (feedbackUpTo it task dump report n) ∧
    proposalSpec it (.obj (assign (fieldsOf task) "feedback" (feedbackUpTo it task dump report n))) = .ok task ∧
    0 < n ∧ n ≤ min 8 (failuresOf report).length ∧ Fits it task dump report n ∧
    ∀ m, n < m → m ≤ min 8 (failuresOf report).length → ¬ Fits it task dump report m

/-- The first failure, its case and its observation take as text at most so many bytes. -/
def FirstFits (it : Interpreter) (task report : Json) : Prop :=
  ∀ failure ∈ (failuresOf report).head?, bytes it (.int (failuresOf report).length) +
    bytes it (member "case_index" failure) + bytes it (failedCase task failure) +
    bytes it (member "observed" failure) ≤ 11827

theorem Fits.mono {task report : Json} {dump : String} {m n : Nat} (le : m ≤ n)
    (h : Fits it task dump report n) : Fits it task dump report m := by
  unfold Fits feedbackUpTo at h ⊢
  rw [bytes_feedback (it.sha256_hex dump)] at h ⊢
  obtain ⟨k, rfl⟩ := Nat.exists_eq_add_of_le le
  have more := Json.joinedBytes_le_append
    ((((failuresOf report).take m).map (feedbackEntry task)).map (Json.spaced false it.floatRepr))
    (((((failuresOf report).drop m).take k).map (feedbackEntry task)).map (Json.spaced false it.floatRepr))
  rw [← List.map_append, ← List.map_append, ← List.take_add] at more
  omega

theorem fits_one_iff {task report : Json} {dump : String} (cases : CasesOk task) (ok : ReportOk it task report)
    (failing : failuresOf report ≠ []) : Fits it task dump report 1 ↔ FirstFits it task report := by
  obtain ⟨failure, rest, eq⟩ := List.exists_cons_of_ne_nil failing
  have listed : FailureOk it task failure := ok.each failure (by rw [failuresOf] at eq; simp [eq])
  obtain ⟨index, -, -, -, held⟩ := listed.place
  obtain ⟨fields, case⟩ := caseOk (cases.each _ (List.mem_of_getElem? held))
  have one : ((((failuresOf report).take 1).map (feedbackEntry task)).map (Json.spaced false it.floatRepr)) =
      [Json.spaced false it.floatRepr (feedbackEntry task failure)] := by
    rw [eq]
    rfl
  have only : Json.joinedBytes [Json.spaced false it.floatRepr (feedbackEntry task failure)] =
      bytes it (feedbackEntry task failure) := rfl
  unfold Fits feedbackUpTo FirstFits
  rw [bytes_feedback (it.sha256_hex dump), one, only, bytes_entry case]
  simp only [eq, List.head?_cons, Option.mem_def, Option.some.injEq, forall_eq', feedbackLimit]
  omega

theorem everywhere_member {p : Json → Prop} (null : p .null) {v : Json} (h : v.Everywhere p) (key : String) :
    (member key v).Everywhere p := by
  cases v with
  | obj fields =>
    show ((Json.lookup key fields).getD .null).Everywhere p
    cases held : Json.lookup key fields with
    | none => simpa using null
    | some w => exact (Json.everywhere_obj.mp h).2 (key, w) (Json.lookup_mem held)
  | _ => simpa [member] using null

theorem distinct_case {task case : Json} {fields : List (String × Json)} {index : Nat}
    (distinct : task.Everywhere Json.KeysDistinct) (held : (taskCases task)[index]? = some case)
    (ok : CaseOk case fields) : (Json.keys fields).Nodup := by
  have inside := everywhere_member trivial distinct "cases"
  have mem := List.mem_of_getElem? held
  unfold taskCases at mem
  cases list : member "cases" task with
  | arr items =>
    rw [list] at mem inside
    have here := (Json.everywhere_arr.mp inside).2 case mem
    rw [ok.eq] at here
    exact here.here
  | _ => simp [list, listOf] at mem

/-- The entries that the loop goes through pass the loop of `proposal_spec`. -/
theorem checkFeedback_entries {task report : Json} (cases : CasesOk task)
    (distinct : task.Everywhere Json.KeysDistinct) (ok : ReportOk it task report) (n : Nat) :
    (∀ entry ∈ ((failuresOf report).take n).map (feedbackEntry task), checkFeedback it task entry = .ok ()) ∧
      ((((failuresOf report).take n).map (feedbackEntry task)).map caseIndex).Pairwise (· < ·) := by
  have each : ∀ failure ∈ (failuresOf report).take n, checkFeedback it task (feedbackEntry task failure) = .ok () ∧
      caseIndex (feedbackEntry task failure) = caseIndex failure := by
    intro failure mem
    have listed := ok.each failure (List.mem_of_mem_take mem)
    obtain ⟨index, -, -, -, held⟩ := listed.place
    obtain ⟨fields, case⟩ := caseOk (cases.each _ (List.mem_of_getElem? held))
    refine ⟨checkFeedback_entry case (distinct_case distinct held case) listed, ?_⟩
    simp only [caseIndex, (member_feedbackEntry case).1]
  constructor
  · intro entry mem
    obtain ⟨failure, listed, rfl⟩ := List.mem_map.mp mem
    exact (each failure listed).1
  · have same : (((failuresOf report).take n).map (feedbackEntry task)).map caseIndex =
        ((failuresOf report).map caseIndex).take n := by
      rw [List.map_map, ← List.map_take]
      exact List.map_congr_left fun failure mem => (each failure mem).2
    rw [same]
    exact ok.ordered.take

theorem Constructible.firstFits {task report : Json} {dump : String} (cases : CasesOk task)
    (ok : ReportOk it task report) (failing : failuresOf report ≠ []) (h : Constructible it task dump report) :
    FirstFits it task report := by
  obtain ⟨n, -, -, positive, -, fits, -⟩ := h
  exact (fits_one_iff cases ok failing).mp (fits.mono positive)

theorem sample_numbers_distinct : Sample.numbers.Everywhere Json.KeysDistinct := by
  simp [Sample.numbers, Sample.structuredTask, Sample.identityCase, Json.KeysDistinct, Json.keys]

namespace Sample

def twoTexts (s : String) : Json := .arr [.str s, .str s]

/-- A text of so many letters. -/
def letters (n : Nat) : String := String.ofList (List.replicate n 'a')

def longTask : Json := structuredTask [identityCase (twoTexts (letters 4000)), identityCase (.int 1)]

end Sample

theorem joinedBytes_single (cs : List Char) : Json.joinedBytes [cs] = Json.byteLength cs := rfl

theorem twoTexts_within {s : String} (short : s.length ≤ 4096) : jsonValue 2 (Sample.twoTexts s) = .ok () := by
  refine jsonValue_arr.mpr ⟨by omega, by simp, fun v hv => ?_⟩
  have text : v = .str s := by simpa using hv
  rw [text, jsonValue, need_bind_eq_ok, need_eq_ok]
  exact ⟨by omega, short⟩

theorem bytes_twoTexts (a : Bool) (s : String) :
    (Sample.twoTexts s).spacedBytes a it.floatRepr = 2 * Json.byteLength (Json.quote a s) + 4 := by
  have text : Json.byteLength (Json.spaced a it.floatRepr (.str s)) = Json.byteLength (Json.quote a s) := rfl
  rw [Sample.twoTexts, Json.spacedBytes_arr, List.map_cons, List.map_cons, List.map_nil,
    Json.joinedBytes_cons _ (List.cons_ne_nil _ _), joinedBytes_single, text]
  omega

theorem bytes_identityCase (a : Bool) (v : Json) :
    (Sample.identityCase v).spacedBytes a it.floatRepr = 2 * v.spacedBytes a it.floatRepr + 26 := by
  have args : Json.byteLength (Json.quote a "args") = 6 := by cases a <;> decide
  have expected : Json.byteLength (Json.quote a "expected") = 10 := by cases a <;> decide
  have single : Json.byteLength (Json.spaced a it.floatRepr v) = v.spacedBytes a it.floatRepr := rfl
  rw [Sample.identityCase, Json.spacedBytes_obj, List.map_cons, List.map_cons, List.map_nil,
    Json.joinedBytes_cons _ (List.cons_ne_nil _ _), joinedBytes_single, Json.byteLength_spacedField,
    Json.byteLength_spacedField, Json.spacedBytes_arr, List.map_cons, List.map_nil, joinedBytes_single, single, args,
    expected]
  omega

theorem letters_length (n : Nat) : (Sample.letters n).length = n := by
  rw [Sample.letters, String.length_ofList, List.length_replicate]

theorem letters_bytes (a : Bool) (n : Nat) : Json.byteLength (Json.quote a (Sample.letters n)) = n + 2 := by
  have letter : Json.byteLength (Json.escapeChar a 'a') = 1 := by cases a <;> decide
  rw [Sample.letters, Json.byteLength_quote_replicate, letter, Nat.mul_one]

end WorkerPool
