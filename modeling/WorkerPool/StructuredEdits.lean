import WorkerPool.StructuredRender
import WorkerPool.Lib.Edits

/-!
# Local edits of a candidate

The model answers with edits, each an old text that the function holds once and a new one. They are applied from
the last to the first.
-/

namespace WorkerPool

open PyText Search

variable {E S : Type}

/-- A text of an edit, as its characters. -/
def editText (key : String) (edit : Json) : List Char := ((member key edit).str?.getD "").toList

/-- The span of an edit in the source: where its old text stands first. -/
def editSpan (source : List Char) (edit : Json) : Span Char :=
  let start := (find (editText "old" edit) source).getD 0
  ⟨start, start + (editText "old" edit).length, editText "new" edit⟩

/-- The place behind the signature line. -/
def bodyStart (source : List Char) : Nat := source.findIdx (· == '\n') + 1

/-- The body of the loop over the edits. -/
def checkEdit (source : List Char) (edit : Json) : Except Raised Unit := do
  need (keysAre ["old", "new"] edit ∧
    (member "old" edit).isText (fun s => decide (1 ≤ s.length ∧ s.length ≤ 3000)) ∧
    (member "new" edit).isText (fun s => decide (s.length ≤ 6000))) "revision_edit_schema"
  need (editText "old" edit ≠ editText "new" edit) "candidate_repeated"
  need (count (editText "old" edit) 0 source = 1) "revision_edit_not_unique"
  need (bodyStart source ≤ (editSpan source edit).start) "revision_signature_edit"

/-- `spans.sort()`. -/
def sortedSpans (source : List Char) (edits : List Json) : List (Span Char) :=
  (edits.map (editSpan source)).insertionSort (· ≤ ·)

/-- The loop over the reversed spans. -/
def assembled (source : List Char) (edits : List Json) : List Char :=
  (sortedSpans source edits).foldr splice source

/-- What follows the assembly: the whole function is rendered and read again. -/
def finishEdits (it : Interpreter) (py : Python E S) (before : List Char) (task proposal : Json)
    (source : List Char) : Except Raised (List Char) := do
  let candidate ← render it py before task
    (Json.spaced true it.floatRepr (.obj [("function", .str (String.ofList source))]))
  let fingerprint ← candidateFingerprint it py candidate task
  need ((member "candidate_sha256" (member "feedback" proposal)).str? ≠ some fingerprint) "candidate_repeated"
  let text ← extracted py candidate task
  pure (Json.spaced false it.floatRepr (.obj [("function", .str (String.ofList text))]))

/-- The edits of a reply. -/
def repliedEdits (reply : List Char) : Except Raised (List Json) := do
  need (Json.byteLength reply ≤ 16384) "revision_size"
  match Json.loads pyDict reply with
  | none => blocked "revision_json"
  | some value =>
    need (keysAre ["edits"] value ∧ isListOf 1 6 (member "edits" value)) "revision_schema"
    pure (listOf (member "edits" value))

/-- `_apply_local_edits`. -/
def applyLocalEdits (it : Interpreter) (py : Python E S) (reply before : List Char) (proposal : Json) :
    Except Raised (List Char × List Json) := do
  let task ← proposalSpec it proposal
  need (hasKey "feedback" proposal) "revision_feedback_missing"
  let fingerprint ← candidateFingerprint it py before task
  need ((member "candidate_sha256" (member "feedback" proposal)).str? = some fingerprint) "feedback_candidate_mismatch"
  let edits ← repliedEdits reply
  let source ← extracted py before task
  each (checkEdit source) edits
  need ((sortedSpans source edits).IsChain Span.Before) "revision_edits_overlap"
  let text ← finishEdits it py before task proposal (assembled source edits)
  pure (text, edits)

/-! ### Accepted edits -/

variable {it : Interpreter} {py : Python E S} {reply before source text : List Char} {proposal task : Json}
  {edits : List Json}

/-- What an accepted edit is. -/
structure EditOk (source : List Char) (edit : Json) : Prop where
  nonempty : editText "old" edit ≠ []
  counted : count (editText "old" edit) 0 source = 1
  below : bodyStart source ≤ (editSpan source edit).start

theorem EditOk.of_check {edit : Json} (h : checkEdit source edit = .ok ()) : EditOk source edit := by
  simp only [checkEdit, bind_eq_ok, need_eq_ok] at h
  obtain ⟨_, ⟨-, old, -⟩, -, -, -, counted, below⟩ := h
  refine ⟨fun empty => ?_, counted, below⟩
  obtain ⟨s, eq, long⟩ := isText_iff.mp old
  have short : s.toList = [] := by simpa [editText, eq, Json.str?] using empty
  have : 1 ≤ s.length := (of_decide_eq_true long).1
  rw [← String.length_toList, short] at this
  exact absurd this (by decide)

/-- The span of an accepted edit is where its old text stands. -/
theorem EditOk.occurs {edit : Json} (ok : EditOk source edit) :
    Occurs (editText "old" edit) source (editSpan source edit).start := by
  obtain ⟨n, found, -⟩ := (count_eq_one ok.nonempty).mp ok.counted
  have start : (editSpan source edit).start = n := by rw [editSpan, found]; rfl
  rw [start]
  exact ((find_eq_some_iff ok.nonempty).mp found).1

theorem EditOk.within {edit : Json} (ok : EditOk source edit) : (editSpan source edit).Within source.length :=
  ⟨Nat.lt_add_of_pos_right (List.length_pos_iff.mpr ok.nonempty), ok.occurs.le_length ok.nonempty⟩

/-- Spans that follow one another each end before all later ones. -/
theorem pairwise_before {spans : List (Span Char)} (chain : spans.IsChain Span.Before)
    (within : ∀ span ∈ spans, span.Within source.length) : spans.Pairwise Span.Before := by
  induction spans with
  | nil => exact .nil
  | cons a rest ih =>
    have later := ih chain.tail fun span mem => within span (List.mem_cons_of_mem _ mem)
    refine List.pairwise_cons.mpr ⟨fun b mem => ?_, later⟩
    cases rest with
    | nil => cases mem
    | cons next rest =>
      have first : a.stop ≤ next.start := (List.isChain_cons_cons.mp chain).1
      rcases List.mem_cons.mp mem with rfl | mem
      · exact first
      · have some_of := (within next (List.mem_cons_of_mem _ List.mem_cons_self)).start_lt
        have second : next.stop ≤ b.start := (List.pairwise_cons.mp later).1 b mem
        show a.stop ≤ b.start
        omega

theorem sortedSpans_perm : (sortedSpans source edits).Perm (edits.map (editSpan source)) :=
  List.perm_insertionSort _ _

/-- The sorted spans do not depend on the order of the edits. -/
theorem sortedSpans_eq {edits' : List Json} (same : edits'.Perm edits) :
    sortedSpans source edits' = sortedSpans source edits := by
  refine List.Perm.eq_of_pairwise' (r := (· ≤ ·)) ?_ ?_ ?_
  · exact List.pairwise_insertionSort _ _
  · exact List.pairwise_insertionSort _ _
  · exact sortedSpans_perm.trans ((same.map _).trans sortedSpans_perm.symm)

/-- The edits of an accepted reply: checked one by one, and their spans in order. -/
structure EditsOk (source : List Char) (edits : List Json) : Prop where
  each : ∀ edit ∈ edits, EditOk source edit
  ordered : (sortedSpans source edits).Pairwise Span.Before

theorem EditsOk.within (ok : EditsOk source edits) :
    ∀ span ∈ sortedSpans source edits, span.Within source.length := by
  intro span mem
  obtain ⟨edit, held, rfl⟩ := List.mem_map.mp (sortedSpans_perm.mem_iff.mp mem)
  exact (ok.each edit held).within

theorem EditsOk.disjoint (ok : EditsOk source edits) :
    (edits.map (editSpan source)).Pairwise fun a b => a.Before b ∨ b.Before a := by
  have sorted : (sortedSpans source edits).Pairwise fun a b => a.Before b ∨ b.Before a :=
    ok.ordered.imp fun before => .inl before
  exact sorted.perm sortedSpans_perm fun either => either.symm

/-- Applied one after the other, the edits are the substitution of all spans at once. -/
theorem EditsOk.assembled_eq (ok : EditsOk source edits) :
    assembled source edits = simultaneous (edits.map (editSpan source)) 0 source := by
  have folded := foldr_splice 0 ok.within ok.ordered fun span _ => Nat.zero_le span.start
  have apart : (sortedSpans source edits).Pairwise fun a b => a.start ≠ b.start := by
    refine ok.ordered.imp_of_mem fun {a b} mem _ ends => ?_
    have some_of := (ok.within a mem).start_lt
    have : a.stop ≤ b.start := ends
    omega
  rw [assembled, folded, List.take_zero, List.nil_append, List.drop_zero]
  exact simultaneous_perm sortedSpans_perm apart 0 source

/-- What is accepted. -/
theorem applyLocalEdits_eq_ok {held : List Json} :
    applyLocalEdits it py reply before proposal = .ok (text, held) ↔ ∃ task fingerprint source,
      proposalSpec it proposal = .ok task ∧ hasKey "feedback" proposal = true ∧
      candidateFingerprint it py before task = .ok fingerprint ∧
      (member "candidate_sha256" (member "feedback" proposal)).str? = some fingerprint ∧
      repliedEdits reply = .ok held ∧ extracted py before task = .ok source ∧
      (∀ edit ∈ held, checkEdit source edit = .ok ()) ∧ (sortedSpans source held).IsChain Span.Before ∧
      finishEdits it py before task proposal (assembled source held) = .ok text := by
  constructor
  · intro h
    simp only [applyLocalEdits, bind_eq_ok, need_eq_ok, each_eq_ok, pure, Except.pure, Except.ok.injEq,
      Prod.mk.injEq] at h
    obtain ⟨task, spec, -, feedback, fingerprint, read, -, matches_, edits, replied, source, eq, -, checked, -, chain,
      out, finished, rfl, rfl⟩ := h
    exact ⟨task, fingerprint, source, spec, feedback, read, matches_, replied, eq, checked, chain, finished⟩
  · rintro ⟨task, fingerprint, source, spec, feedback, read, same, replied, eq, checked, chain, finished⟩
    refine bind_eq_ok.mpr ⟨task, spec, bind_eq_ok.mpr ⟨(), need_eq_ok.mpr feedback, ?_⟩⟩
    refine bind_eq_ok.mpr ⟨fingerprint, read, bind_eq_ok.mpr ⟨(), need_eq_ok.mpr same, ?_⟩⟩
    refine bind_eq_ok.mpr ⟨held, replied, bind_eq_ok.mpr ⟨source, eq, ?_⟩⟩
    refine bind_eq_ok.mpr ⟨(), each_eq_ok.mpr checked, bind_eq_ok.mpr ⟨(), need_eq_ok.mpr chain, ?_⟩⟩
    exact bind_eq_ok.mpr ⟨text, finished, rfl⟩

/-- The same edits in another order are accepted, with the same function. -/
theorem applyLocalEdits_perm {reply' : List Char} {edits' : List Json}
    (accepted : applyLocalEdits it py reply before proposal = .ok (text, edits)) (same : edits'.Perm edits)
    (replied : repliedEdits reply' = .ok edits') :
    applyLocalEdits it py reply' before proposal = .ok (text, edits') := by
  obtain ⟨task, fingerprint, source, spec, feedback, read, fits, -, eq, checked, chain, finished⟩ :=
    applyLocalEdits_eq_ok.mp accepted
  have spans : sortedSpans source edits' = sortedSpans source edits := sortedSpans_eq same
  refine applyLocalEdits_eq_ok.mpr ⟨task, fingerprint, source, spec, feedback, read, fits, replied, eq, ?_, ?_, ?_⟩
  · exact fun edit mem => checked edit (same.mem_iff.mp mem)
  · rwa [spans]
  · rwa [assembled, spans]

/-- Each old text stands at one place, which is the place of its span, below the signature; the spans are apart;
the function is what the substitution of all of them at once comes to, and in each order it is the same. -/
structure Unambiguous (it : Interpreter) (py : Python E S) (before : List Char) (proposal task : Json)
    (source : List Char) (edits : List Json) (text : List Char) : Prop where
  once : ∀ edit ∈ edits, ∃! n, Occurs (editText "old" edit) source n
  placed : ∀ edit ∈ edits, Occurs (editText "old" edit) source (editSpan source edit).start
  below : ∀ edit ∈ edits, bodyStart source ≤ (editSpan source edit).start
  disjoint : (edits.map (editSpan source)).Pairwise fun a b => a.Before b ∨ b.Before a
  atOnce : assembled source edits = simultaneous (edits.map (editSpan source)) 0 source
  finished : finishEdits it py before task proposal (simultaneous (edits.map (editSpan source)) 0 source) = .ok text
  permuted : ∀ reply edits', edits'.Perm edits → repliedEdits reply = .ok edits' →
    assembled source edits' = assembled source edits ∧
      applyLocalEdits it py reply before proposal = .ok (text, edits')

/-- Accepted edits are unambiguous if and only if no old text overlaps itself in the source. -/
theorem local_edits_unambiguous (accepted : applyLocalEdits it py reply before proposal = .ok (text, edits)) :
    ∃ task source, proposalSpec it proposal = .ok task ∧ extracted py before task = .ok source ∧
      (Unambiguous it py before proposal task source edits text ↔
        ∀ edit ∈ edits, ¬ Overlaps (editText "old" edit) source) := by
  obtain ⟨task, fingerprint, source, spec, -, -, -, -, eq, checked, chain, finished⟩ :=
    applyLocalEdits_eq_ok.mp accepted
  have each : ∀ edit ∈ edits, EditOk source edit := fun edit mem => .of_check (checked edit mem)
  have within : ∀ span ∈ sortedSpans source edits, span.Within source.length := by
    intro span mem
    obtain ⟨edit, held, rfl⟩ := List.mem_map.mp (sortedSpans_perm.mem_iff.mp mem)
    exact (each edit held).within
  have ok : EditsOk source edits := ⟨each, pairwise_before chain within⟩
  refine ⟨task, source, spec, eq, fun holds edit mem => ?_, fun apart => ?_⟩
  · exact (unique_iff_not_overlaps (each edit mem).nonempty (each edit mem).counted).mp (holds.once edit mem)
  · refine ⟨fun edit mem => ?_, fun edit mem => (each edit mem).occurs, fun edit mem => (each edit mem).below,
      ok.disjoint, ok.assembled_eq, ?_, fun reply edits' same replied => ?_⟩
    · exact (unique_iff_not_overlaps (each edit mem).nonempty (each edit mem).counted).mpr (apart edit mem)
    · rwa [← ok.assembled_eq]
    · exact ⟨by rw [assembled, sortedSpans_eq same]; rfl, applyLocalEdits_perm accepted same replied⟩


namespace Sample

def keepHeader : List Char := "def keep(x):\n".toList

def keepOf (body : List Char) : FunctionDef Empty (List Char) where
  name := "keep"
  decorators := []
  parameters := [("x", none)]
  others := []
  returns := none
  body := [body]

/-- The module `ast` on texts that begin with the header. The body is one statement. -/
def python : Python Empty (List Char) where
  parse text :=
    if keepHeader.isPrefixOf text then some [⟨1, text.count '\n', .function (keepOf (text.drop 13))⟩] else none
  unparse f := keepHeader ++ dropNewlines f.body.flatten
  dump nodes := String.ofList (nodes.flatMap fun
    | .function f => f.body.flatten
    | .other s => s)
  checkNodes _ _ := .ok ()

def keepBody : List Char := "    if x:\n        return 3\n    return 3\n".toList

def keepBefore : List Char := keepHeader ++ keepBody

/-- What a proposal says of a candidate that returned 3 for the first case. -/
def keepProposal : Json :=
  .obj (assign (fieldsOf numbers) "feedback" (feedbackOf (worker.sha256 (String.ofList keepBody)) 1
    [feedbackEntry numbers (failureOf 0 (shown (.int 3)))]))

def edit (old new : String) : Json := .obj [("old", .str old), ("new", .str new)]

/-- Five of eight blanks are replaced. -/
def indentation : Json := edit "     " "        x = 3\n     "

def replyOf (edits : List Json) : List Char := Json.spaced true worker.floatRepr (.obj [("edits", .arr edits)])

def keepAfter : List Char := "    if x:\n        x = 3\n        return 3\n    return 3\n".toList

/-- What is returned for the edit. -/
def keepText : List Char :=
  Json.spaced false worker.floatRepr (.obj [("function", .str (String.ofList (keepHeader ++ keepAfter)))])

end Sample

theorem sample_proposal : proposalSpec Sample.worker Sample.keepProposal = .ok Sample.numbers := by
  have reported := @sample_reported (.arr [.int 1]) (.arr [.int 2]) rfl
  obtain ⟨-, ok⟩ := reportOk reported
  obtain ⟨checked, ordered⟩ := checkFeedback_entries (casesOk sample_numbers) sample_numbers_distinct ok 1
  refine proposalSpec_feedback sample_numbers (Sample.worker.sha256_hex _) (by omega) (by decide) (by decide)
    (by decide) checked ordered ?_
  decide +kernel

theorem sample_parse (body : List Char) : Sample.python.parse (Sample.keepHeader ++ body) =
    some [⟨1, (Sample.keepHeader ++ body).count '\n', .function (Sample.keepOf body)⟩] := by
  have begins : Sample.keepHeader.isPrefixOf (Sample.keepHeader ++ body) = true :=
    List.isPrefixOf_iff_prefix.mpr (List.prefix_append _ _)
  have behind : (Sample.keepHeader ++ body).drop 13 = body := List.drop_left' (by decide)
  simp only [Sample.python, begins, behind, if_true]

theorem sample_tree {body : List Char} (short : Json.byteLength (Sample.keepHeader ++ body) ≤ 262144) :
    functionTree Sample.python (Sample.keepHeader ++ body) "keep" =
      .ok (⟨1, (Sample.keepHeader ++ body).count '\n', .function (Sample.keepOf body)⟩, Sample.keepOf body) := by
  refine bind_eq_ok.mpr ⟨(), need_eq_ok.mpr short, ?_⟩
  rw [sample_parse]
  rfl

/-- A candidate that is written as it was read. -/
theorem sample_guarded {body : List Char} (short : Json.byteLength (Sample.keepHeader ++ body) ≤ 262144)
    (ended : dropNewlines body ++ ['\n'] = body) :
    extracted Sample.python (Sample.keepHeader ++ body) Sample.numbers = .ok (Sample.keepHeader ++ body) ∧
      guarded Sample.python (Sample.keepHeader ++ body) Sample.numbers = .ok [.function (Sample.keepOf body)] := by
  have written : Sample.python.unparse (Sample.keepOf body).stripped ++ ['\n'] = Sample.keepHeader ++ body := by
    show Sample.keepHeader ++ dropNewlines [body].flatten ++ ['\n'] = _
    rw [List.flatten_singleton, List.append_assoc, ended]
  have extract : extracted Sample.python (Sample.keepHeader ++ body) Sample.numbers =
      .ok (Sample.keepHeader ++ body) :=
    bind_eq_ok.mpr ⟨_, sample_tree short, bind_eq_ok.mpr ⟨(), need_eq_ok.mpr ⟨rfl, rfl⟩, congrArg Except.ok written⟩⟩
  refine ⟨extract, bind_eq_ok.mpr ⟨_, extract, bind_eq_ok.mpr ⟨_, congrArg orError (sample_parse body), ?_⟩⟩⟩
  rfl

theorem sample_fingerprint {body : List Char} (short : Json.byteLength (Sample.keepHeader ++ body) ≤ 262144)
    (ended : dropNewlines body ++ ['\n'] = body) :
    candidateFingerprint Sample.worker Sample.python (Sample.keepHeader ++ body) Sample.numbers =
      .ok (Sample.worker.sha256 (String.ofList body)) := by
  have dumped : Sample.python.dump [.function (Sample.keepOf body)] = String.ofList body := by
    show String.ofList ([body].flatten ++ []) = _
    rw [List.flatten_singleton, List.append_nil]
  exact bind_eq_ok.mpr ⟨_, (sample_guarded short ended).2,
    congrArg (fun text => Except.ok (Sample.worker.sha256 text)) dumped⟩

theorem replied_sample {edits : List Json} (texts : ∀ edit ∈ edits, ∃ old new, edit = Sample.edit old new)
    (count : 1 ≤ edits.length ∧ edits.length ≤ 6) (short : Json.byteLength (Sample.replyOf edits) ≤ 16384) :
    repliedEdits (Sample.replyOf edits) = .ok edits := by
  have distinct : (Json.obj [("edits", .arr edits)]).Everywhere Json.KeysDistinct := by
    simp only [Json.everywhere_obj, Json.everywhere_arr, List.forall_mem_cons, List.not_mem_nil, false_implies,
      implies_true, and_true]
    refine ⟨by simp [Json.KeysDistinct, Json.keys], trivial, fun edit mem => ?_⟩
    obtain ⟨old, new, rfl⟩ := texts edit mem
    simp [Sample.edit, Json.KeysDistinct, Json.keys]
  have reads : (Json.obj [("edits", .arr edits)]).Everywhere (Json.ReadsBack Sample.worker.floatRepr) := by
    simp only [Json.everywhere_obj, Json.everywhere_arr, List.forall_mem_cons, List.not_mem_nil, false_implies,
      implies_true, and_true]
    refine ⟨trivial, trivial, fun edit mem => ?_⟩
    obtain ⟨old, new, rfl⟩ := texts edit mem
    simp [Sample.edit, Json.ReadsBack]
  have read := Json.loads_spaced (a := true) pyDict_law distinct reads (List.all_nil (f := Json.isBlank))
  rw [List.append_nil] at read
  refine bind_eq_ok.mpr ⟨(), need_eq_ok.mpr short, ?_⟩
  rw [Sample.replyOf, read]
  refine bind_eq_ok.mpr ⟨(), need_eq_ok.mpr ⟨rfl, ?_⟩, rfl⟩
  show (decide (1 ≤ edits.length) && decide (edits.length ≤ 6)) = true
  simpa using count

theorem replied_function {text : List Char}
    (short : Json.byteLength (Json.spaced true it.floatRepr (.obj [("function", .str (String.ofList text))])) ≤ 20000) :
    repliedFunction (Json.spaced true it.floatRepr (.obj [("function", .str (String.ofList text))])) = .ok text := by
  have distinct : (Json.obj [("function", .str (String.ofList text))]).Everywhere Json.KeysDistinct := by
    simp [Json.KeysDistinct, Json.keys]
  have reads : (Json.obj [("function", .str (String.ofList text))]).Everywhere (Json.ReadsBack it.floatRepr) := by
    simp [Json.ReadsBack]
  have read := Json.loads_spaced (a := true) pyDict_law distinct reads (List.all_nil (f := Json.isBlank))
  rw [List.append_nil] at read
  refine bind_eq_ok.mpr ⟨(), need_eq_ok.mpr short, ?_⟩
  rw [read]
  refine bind_eq_ok.mpr ⟨(), need_eq_ok.mpr rfl, ?_⟩
  show Except.ok (String.ofList text).toList = _
  rw [String.toList_ofList]

theorem sample_candidate {body : List Char} (short : Json.byteLength (Sample.keepHeader ++ body) ≤ 262144)
    (ended : dropNewlines body ++ ['\n'] = body) :
    candidateOf Sample.python (Sample.keepHeader ++ body) Sample.numbers = .ok (Sample.keepOf body) := by
  rw [candidateOf, sample_parse]
  exact bind_eq_ok.mpr ⟨_, (sample_guarded short ended).2, rfl⟩

theorem sample_rendered : render Sample.worker Sample.python Sample.keepBefore Sample.numbers
    (Json.spaced true Sample.worker.floatRepr
      (.obj [("function", .str (String.ofList (Sample.keepHeader ++ Sample.keepAfter)))])) =
      .ok (Sample.keepHeader ++ Sample.keepAfter) := by
  refine bind_eq_ok.mpr ⟨_, sample_numbers, bind_eq_ok.mpr ⟨_, replied_function (by decide), ?_⟩⟩
  refine bind_eq_ok.mpr ⟨_, sample_candidate (by decide) (by decide), ?_⟩
  refine bind_eq_ok.mpr ⟨_, sample_tree (by decide), ?_⟩
  refine bind_eq_ok.mpr ⟨_, (sample_guarded (by decide) (by decide)).1, ?_⟩
  have header : (Lines.keepLines Issue.isLineBreak (Sample.keepHeader ++ Sample.keepBody))[0]? =
      some Sample.keepHeader := by decide
  refine bind_eq_ok.mpr ⟨Sample.keepHeader, congrArg orError header, ?_⟩
  refine bind_eq_ok.mpr ⟨(), need_eq_ok.mpr (by decide), ?_⟩
  have after : spliced (Lines.keepLines Issue.isLineBreak (Sample.keepHeader ++ Sample.keepBody)) 1
      ((Sample.keepHeader ++ Sample.keepBody).count '\n') Sample.keepHeader
      (renderedBody (Sample.python.unparse (Sample.keepOf Sample.keepAfter))) =
      Sample.keepHeader ++ Sample.keepAfter := by decide
  dsimp only [Sample.keepBefore]
  rw [after]
  exact bind_eq_ok.mpr ⟨_, congrArg orError (sample_parse _), rfl⟩

theorem sample_checked : checkEdit Sample.keepBefore Sample.indentation = .ok () := by
  refine bind_eq_ok.mpr ⟨(), need_eq_ok.mpr (by decide), ?_⟩
  refine bind_eq_ok.mpr ⟨(), need_eq_ok.mpr (by decide), ?_⟩
  refine bind_eq_ok.mpr ⟨(), need_eq_ok.mpr (by decide), ?_⟩
  exact need_eq_ok.mpr (by decide)

theorem sample_edits_assembled : assembled Sample.keepBefore [Sample.indentation] = Sample.keepHeader ++ Sample.keepAfter := by
  decide

theorem sample_digest : (member "candidate_sha256" (member "feedback" Sample.keepProposal)).str? =
    some (Sample.worker.sha256 (String.ofList Sample.keepBody)) := rfl

theorem sample_finished : finishEdits Sample.worker Sample.python Sample.keepBefore Sample.numbers
    Sample.keepProposal (Sample.keepHeader ++ Sample.keepAfter) = .ok Sample.keepText := by
  have other : Sample.worker.sha256 (String.ofList Sample.keepBody) ≠
      Sample.worker.sha256 (String.ofList Sample.keepAfter) := by decide +kernel
  refine bind_eq_ok.mpr ⟨_, sample_rendered, bind_eq_ok.mpr ⟨_,
    sample_fingerprint (by decide) (by decide), ?_⟩⟩
  refine bind_eq_ok.mpr ⟨(), need_eq_ok.mpr ?_, ?_⟩
  · rw [sample_digest]
    exact fun same => other (Option.some.inj same)
  · exact bind_eq_ok.mpr ⟨_, (sample_guarded (by decide) (by decide)).1, rfl⟩

/-- The edit is accepted. -/
theorem sample_applied : applyLocalEdits Sample.worker Sample.python (Sample.replyOf [Sample.indentation])
    Sample.keepBefore Sample.keepProposal = .ok (Sample.keepText, [Sample.indentation]) := by
  refine applyLocalEdits_eq_ok.mpr ⟨_, _, _, sample_proposal, rfl,
    sample_fingerprint (by decide) (by decide), sample_digest,
    replied_sample (fun edit mem => ⟨_, _, List.mem_singleton.mp mem⟩) (by decide) (by decide),
    (sample_guarded (by decide) (by decide)).1, fun edit mem => ?_, ?_, ?_⟩
  · rw [List.mem_singleton.mp mem]
    exact sample_checked
  · decide
  · exact sample_edits_assembled.symm ▸ sample_finished

theorem sample_local_edits : ∃ task source, proposalSpec Sample.worker Sample.keepProposal = .ok task ∧
    extracted Sample.python Sample.keepBefore task = .ok source ∧
      (Unambiguous Sample.worker Sample.python Sample.keepBefore Sample.keepProposal task source [Sample.indentation]
        Sample.keepText ↔ ∀ edit ∈ [Sample.indentation], ¬ Overlaps (editText "old" edit) source) :=
  local_edits_unambiguous sample_applied

/-- Five blanks stand at four places of an indentation by eight, and are counted once. -/
theorem sample_indentation_ambiguous :
    applyLocalEdits Sample.worker Sample.python (Sample.replyOf [Sample.indentation]) Sample.keepBefore
      Sample.keepProposal = .ok (Sample.keepText, [Sample.indentation]) ∧
    extracted Sample.python Sample.keepBefore Sample.numbers = .ok Sample.keepBefore ∧
    ¬ ∃! n, Occurs (editText "old" Sample.indentation) Sample.keepBefore n := by
  refine ⟨sample_applied, (sample_guarded (by decide) (by decide)).1, ?_⟩
  rintro ⟨n, -, only⟩
  have first := only 23 (by decide)
  have second := only 24 (by decide)
  omega

end WorkerPool
