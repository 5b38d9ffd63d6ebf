import Mathlib
import WorkerPool.RagHandoff
import WorkerPool.StructuredPipe
import WorkerPool.Lib.Lines

/-!
# Revisions anchored at lines

The model names lines of the function by number. A line is replaced by other lines, and two lines that return early
may be put in front of it.
-/

namespace WorkerPool

open PyText
open Issue (isLineBreak splitLines)

/-- The value of `ast.Constant`. -/
inductive PyConstant where
  | none
  | bool (b : Bool)
  | int (n : Int)
  | float (bits : UInt64)
  | str (s : String)
  | other

/-- An expression as `ast` reads it, as far as the checks go into it. -/
inductive PyExpr where
  | name (id : String)
  | constant (value : PyConstant)
  | attribute (value : PyExpr) (attr : String)
  | call (func : PyExpr) (args keywords : List PyExpr)
  | unary (op : String) (operand : PyExpr)
  | compare (left : PyExpr) (ops : List String) (comparators : List PyExpr)
  | boolOp (op : String) (values : List PyExpr)
  | other (parts : List PyExpr)

/-- What the module `ast` is asked for. -/
structure AnchorSyntax where
  /-- `ast.parse(text, mode="eval").body`. -/
  parseExpr : List Char → Option PyExpr
  unparse : PyExpr → List Char
  dump : PyExpr → String
  /-- Of a source that is one function, `lineno` and `col_offset` of each `If`, `For`, `Assign`, `Return` and `Expr`. -/
  statements : List Char → Option (List (Nat × Nat))
  /-- Of a source that is one function, the values of its `Return` nodes by their places. -/
  returned : List Char → Option (List (Option PyExpr))

/-- `AnchorRejected`, with what is wrong with the anchor. -/
def rejected {α : Type} (code : String) (kind : Option String := none) : Except Raised α :=
  .error (.blocked (.str code :: (kind.map Json.str).toList))

def orReject {α : Type} (found : Option α) (code : String) (kind : Option String := none) : Except Raised α :=
  match found with
  | some a => .ok a
  | none => rejected code kind

/-! ### Lines of the source -/

def sourceLines (source : List Char) : List (List Char) := Lines.keepLines isLineBreak source

/-- `text.lstrip()`. -/
def lstrip (text : List Char) : List Char := text.dropWhile isSpace

/-- `text.rstrip().endswith(":")`. -/
def endsInColon (text : List Char) : Bool := (text.reverse.dropWhile isSpace).head? == some ':'

/-- `original[:len(original) - len(original.lstrip(" "))]`. -/
def indentOf (line : List Char) : List Char := line.takeWhile (· == ' ')

def anchorName (number : Nat) : String := "L" ++ toString number

/-- `line_catalog`. -/
def lineCatalog (source : List Char) : Except Raised (List (String × Nat)) := do
  need (1 ≤ Json.byteLength source ∧ Json.byteLength source ≤ 20000) "revision_size"
  let lines := sourceLines source
  need (2 ≤ lines.length ∧ lines.length ≤ 350) "revision_anchor_source"
  need ("def ".toList.isPrefixOf (lines.headD []) ∧ endsInColon (lines.headD [])) "revision_anchor_source"
  need ((lines.drop 1).all fun line => line.all isSpace || "    ".toList.isPrefixOf line) "revision_anchor_source"
  pure ((lines.zipIdx.drop 1).filterMap fun entry =>
    if entry.1.all isSpace then none else some (anchorName (entry.2 + 1), entry.2))

/-- `anchors[anchor]`. -/
def anchored (catalog : List (String × Nat)) (anchor : String) : Option Nat :=
  (catalog.find? fun entry => entry.1 = anchor).map Prod.snd

/-- A statement begins at the column in the line, and a line may stand in front of it. -/
def beginsAt (line : List Char) (column : Nat) : Bool :=
  column == (indentOf line).length &&
    !("elif ".toList.isPrefixOf (lstrip line) || "elif(".toList.isPrefixOf (lstrip line))

/-- `statement_anchors`. -/
def statementAnchors (ast : AnchorSyntax) (source : List Char) : Except Raised (List String) := do
  let catalog ← lineCatalog source
  let lines := splitLines [] source
  let locations ← orReject (ast.statements source) "revision_anchor_source"
  pure ((catalog.map Prod.fst).filter fun anchor => locations.any fun location =>
    anchor == anchorName location.1 && beginsAt (lines[location.1 - 1]?.getD []) location.2)

/-- The loop of `guard_return_literals`, after some literals. -/
def literalsOf (ast : AnchorSyntax) : List (List Char) → List (Option PyExpr) → List (List Char)
  | literals, some (.constant value) :: rest =>
    let literal := ast.unparse (.constant value)
    match value with
    | .other => literalsOf ast literals rest
    | _ =>
      if Json.byteLength literal ≤ 128 ∧ literal ∉ literals then literalsOf ast (literals ++ [literal]) rest
      else literalsOf ast literals rest
  | literals, _ :: rest => literalsOf ast literals rest
  | literals, [] => literals

/-- `guard_return_literals`. -/
def guardReturnLiterals (ast : AnchorSyntax) (source : List Char) : Except Raised (List (List Char)) := do
  let _ ← lineCatalog source
  let returns ← orReject (ast.returned source) "revision_anchor_source"
  pure ((literalsOf ast [] returns).take 16)

/-! ### Type guards -/

def isPrivate (id : String) : Bool := "__".toList.isPrefixOf id.toList

/-- `subject`. -/
def isSubject : PyExpr → Bool
  | .name id => !isPrivate id
  | .call (.attribute (.name id) "get") [.constant (.str key)] [] => !isPrivate id && key.length ≤ 128
  | _ => false

/-- `negative_isinstance`. -/
def negativeIsinstance : PyExpr → Option PyExpr
  | .unary "Not" (.call (.name "isinstance") [value, .name id] []) =>
    if id ∈ ["str", "dict", "list", "bool", "int", "float"] ∧ isSubject value then some value else none
  | _ => none

/-- What `validated_type_guard` requires. -/
def isTypeGuard (ast : AnchorSyntax) : PyExpr → Bool
  | .boolOp "And" [check, guard] =>
    match check, negativeIsinstance guard with
    | .compare left ["IsNot"] [.constant .none], some checked => isSubject left && ast.dump left == ast.dump checked
    | _, _ => false
  | node => (negativeIsinstance node).isSome

/-- `validated_type_guard`. -/
def validatedTypeGuard (ast : AnchorSyntax) (node : PyExpr) : Except Raised (List Char) := do
  need (isTypeGuard ast node) "revision_guard_expression"
  pure (ast.unparse node)

/-! ### The assembly -/

/-- What an entry of a reply puts at a line: lines in its place, or a guard in front of it. -/
structure Entry where
  index : Nat
  guard : Bool
  text : List Char

/-- The keys of `replacements` and `guards`, held as one list of entries: a line has one entry, or one of each kind
where the model splits them. -/
def isFresh (modelSplit : Bool) (held : List Entry) (guard : Bool) (index : Nat) : Bool :=
  held.all fun entry => entry.index != index || (modelSplit && entry.guard != guard)

def entryText (key : String) (edit : Json) : List Char := ((member key edit).str?.getD "").toList

def isIfHeader (line : List Char) : Bool := "if ".toList.isPrefixOf (lstrip line) && endsInColon line

/-- The lines of a guard. -/
def guardLines (indent condition value : List Char) : List Char :=
  (indent ++ "if ".toList ++ condition ++ ":\n".toList) ++ (indent ++ "    return ".toList ++ value ++ "\n".toList)

/-- The lines of a replacement. -/
def replacementLines (indent new : List Char) : List Char :=
  ((splitLines [] new).map fun line => indent ++ line ++ "\n".toList).flatten

/-- The condition and the value of a guard that the model splits off, as they are written. -/
def splitGuard (ast : AnchorSyntax) (source condition value : List Char) : Except Raised (List Char × List Char) := do
  let guard ← orReject (ast.parseExpr condition) "revision_edit_schema"
  let result ← orReject (ast.parseExpr value) "revision_edit_schema"
  need ((match result with | .constant _ => true | _ => false) = true) "revision_edit_schema"
  let literals ← guardReturnLiterals ast source
  need (ast.unparse result ∈ literals) "revision_edit_schema"
  let written ← validatedTypeGuard ast guard
  pure (written, ast.unparse result)

/-- The characters that no guard holds. -/
def guardBanned (c : Char) : Bool := c ∈ "\r\n\t\x00[]".toList

/-- The anchors in front of which a guard may stand, where the line is no `if` header. -/
def guardStarts (ast : AnchorSyntax) (modelSplit : Bool) (source original : List Char) : Except Raised (List String) :=
  if isIfHeader original || !modelSplit then .ok [] else statementAnchors ast source

/-- The condition and the value of a guard as they are put into the lines. -/
def guardTexts (ast : AnchorSyntax) (modelSplit : Bool) (source : List Char) (edit : Json) :
    Except Raised (List Char × List Char) :=
  if modelSplit then splitGuard ast source (entryText "guard" edit) (entryText "return_expression" edit)
  else .ok (entryText "guard" edit, entryText "return_expression" edit)

/-- The body of the loop, of a guard. -/
def guardEntry (ast : AnchorSyntax) (modelSplit : Bool) (source : List Char) (catalog : List (String × Nat))
    (fresh : Bool → Nat → Bool) (edit : Json) : Except Raised Entry := do
  need ((member "anchor" edit).isText (fun _ => true) ∧
    (member "guard" edit).isText (fun s => decide (1 ≤ s.length ∧ s.length ≤ 2000)) ∧
    (member "return_expression" edit).isText (fun s => decide (1 ≤ s.length ∧ s.length ≤ 2000)))
    "revision_edit_schema"
  let index ← orReject (anchored catalog (String.ofList (entryText "anchor" edit))) "revision_anchor_invalid"
    "unknown_anchor"
  need (fresh true index) "revision_anchor_duplicate"
  let original := (sourceLines source)[index]?.getD []
  let starts ← guardStarts ast modelSplit source original
  if isIfHeader original || starts.contains (String.ofList (entryText "anchor" edit)) then
    need ((entryText "guard" edit ++ entryText "return_expression" edit).all fun c => !guardBanned c)
      "revision_indentation"
    let (condition, value) ← guardTexts ast modelSplit source edit
    pure ⟨index, true, guardLines (indentOf original) condition value⟩
  else rejected "revision_anchor_invalid" (if modelSplit then "guard_not_statement" else "guard_not_if_header")

/-- The body of the loop, of a replacement. -/
def replacementEntry (source : List Char) (catalog : List (String × Nat)) (fresh : Bool → Nat → Bool)
    (edit : Json) : Except Raised Entry := do
  need (keysAre ["anchor", "new"] edit ∧ (member "anchor" edit).isText (fun _ => true) ∧
    (member "new" edit).isText (fun s => decide (s.length ≤ 6000))) "revision_edit_schema"
  let index ← orReject (anchored catalog (String.ofList (entryText "anchor" edit))) "revision_anchor_invalid"
    "unknown_anchor"
  need (fresh false index) "revision_anchor_duplicate"
  need ((entryText "new" edit).all fun c => c ∉ "\r\t\x00".toList) "revision_indentation"
  let added := splitLines [] (entryText "new" edit)
  need (∀ line ∈ added.head?, line.head?.any fun c => !isSpace c) "revision_indentation"
  let original := (sourceLines source)[index]?.getD []
  need (endsInColon original = true → added.getLast?.any endsInColon) "revision_block_header"
  pure ⟨index, false, replacementLines (indentOf original) (entryText "new" edit)⟩

/-- The body of the loop over the entries of a reply. -/
def entryOf (ast : AnchorSyntax) (modelSplit : Bool) (source : List Char) (catalog : List (String × Nat))
    (fresh : Bool → Nat → Bool) (edit : Json) : Except Raised Entry := do
  need edit.isObj "revision_edit_schema"
  if keysAre ["anchor", "guard", "return_expression"] edit then guardEntry ast modelSplit source catalog fresh edit
  else replacementEntry source catalog fresh edit

/-- The loop, with the entries held before. -/
def collectEntries (ast : AnchorSyntax) (modelSplit : Bool) (source : List Char) (catalog : List (String × Nat)) :
    List Entry → List Json → Except Raised (List Entry)
  | held, [] => .ok held
  | held, edit :: rest => do
    let entry ← entryOf ast modelSplit source catalog (isFresh modelSplit held) edit
    collectEntries ast modelSplit source catalog (held ++ [entry]) rest

/-- The entries of one kind, as changes of lines. -/
def changesOf (guard : Bool) (entries : List Entry) : List (Nat × List Char) :=
  (entries.filter fun entry => entry.guard = guard).map fun entry => (entry.index, entry.text)

/-- `lines` behind the two loops, joined. -/
def assemble (source : List Char) (entries : List Entry) : List Char :=
  let replaced := Lines.changeAt (fun text _ => text) (changesOf false entries) (sourceLines source)
  (Lines.changeAt (fun text line => text ++ line) (changesOf true entries) replaced).flatten

/-- The list that the loop goes over. -/
def repliedEntries (modelSplit : Bool) (value : Json) : Except Raised (List Json) := do
  need value.isObj "revision_schema"
  if modelSplit then
    need (keysAre ["edits", "guards"] value) "revision_schema"
    match member "edits" value, member "guards" value with
    | .arr edits, .arr guards =>
      need (1 ≤ edits.length + guards.length ∧ edits.length + guards.length ≤ 6) "revision_schema"
      need (edits.all (keysAre ["anchor", "new"])) "revision_edit_schema"
      need (guards.all (keysAre ["anchor", "guard", "return_expression"])) "revision_edit_schema"
      pure (edits ++ guards)
    | _, _ => rejected "revision_schema"
  else
    need (keysAre ["edits"] value ∧ isListOf 1 6 (member "edits" value)) "revision_schema"
    pure (listOf (member "edits" value))

/-- `assemble_anchors`. -/
def assembleAnchors (ast : AnchorSyntax) (modelSplit : Bool) (reply source : List Char) :
    Except Raised (List Char × List Json) := do
  let catalog ← lineCatalog source
  need (Json.byteLength reply ≤ 16384) "revision_size"
  let value ← orReject (Json.loads pyDict reply) "revision_json"
  let edits ← repliedEntries modelSplit value
  let entries ← collectEntries ast modelSplit source catalog [] edits
  let assembled := assemble source entries
  need (assembled ≠ source) "candidate_repeated"
  need (Json.byteLength assembled ≤ 20000) "revision_size"
  pure (assembled, edits)


/-! ### One entry -/

variable {ast : AnchorSyntax} {modelSplit : Bool} {source : List Char} {catalog : List (String × Nat)}
  {fresh : Bool → Nat → Bool} {edit : Json} {entry : Entry}

@[simp] theorem orReject_eq_ok {α : Type} {found : Option α} {code : String} {kind : Option String} {a : α} :
    orReject found code kind = .ok a ↔ found = some a := by
  cases found <;> simp [orReject, rejected]

/-- A guard may stand in front of the line. -/
def Guardable (ast : AnchorSyntax) (modelSplit : Bool) (source : List Char) (anchor : String) (line : List Char) :
    Prop :=
  isIfHeader line = true ∨ modelSplit = true ∧ ∃ starts, statementAnchors ast source = .ok starts ∧ anchor ∈ starts

/-- What makes a guard of an entry, whatever else is held. -/
structure Guards (ast : AnchorSyntax) (modelSplit : Bool) (source : List Char) (catalog : List (String × Nat))
    (edit : Json) (entry : Entry) : Prop where
  anchor : (member "anchor" edit).isText (fun _ => true) = true
  condition : (member "guard" edit).isText (fun s => decide (1 ≤ s.length ∧ s.length ≤ 2000)) = true
  value : (member "return_expression" edit).isText (fun s => decide (1 ≤ s.length ∧ s.length ≤ 2000)) = true
  found : anchored catalog (String.ofList (entryText "anchor" edit)) = some entry.index
  guardable : Guardable ast modelSplit source (String.ofList (entryText "anchor" edit))
    ((sourceLines source)[entry.index]?.getD [])
  plain : (entryText "guard" edit ++ entryText "return_expression" edit).all (fun c => !guardBanned c) = true
  guard : entry.guard = true
  text : ∃ condition value, guardTexts ast modelSplit source edit = .ok (condition, value) ∧
    entry.text = guardLines (indentOf ((sourceLines source)[entry.index]?.getD [])) condition value

theorem guardable_iff {anchor : String} {line : List Char} :
    Guardable ast modelSplit source anchor line ↔ ∃ starts,
      guardStarts ast modelSplit source line = .ok starts ∧
        (isIfHeader line || starts.contains anchor) = true := by
  unfold Guardable guardStarts
  cases isIfHeader line <;> cases modelSplit <;> simp

theorem guardEntry_eq_ok : guardEntry ast modelSplit source catalog fresh edit = .ok entry ↔
    Guards ast modelSplit source catalog edit entry ∧ fresh true entry.index = true := by
  constructor
  · intro h
    simp only [guardEntry, bind_eq_ok, need_eq_ok, orReject_eq_ok] at h
    obtain ⟨-, ⟨anchor, condition, value⟩, index, found, -, free, starts, started, h⟩ := h
    split at h
    · rename_i begins
      simp only [bind_eq_ok, need_eq_ok] at h
      obtain ⟨-, plain, ⟨written, result⟩, texts, made⟩ := h
      cases made
      exact ⟨⟨anchor, condition, value, found, guardable_iff.mpr ⟨starts, started, begins⟩, plain, rfl,
        written, result, texts, rfl⟩, free⟩
    · cases h
  · rintro ⟨ok, free⟩
    obtain ⟨starts, started, begins⟩ := guardable_iff.mp ok.guardable
    obtain ⟨written, result, texts, eq⟩ := ok.text
    refine bind_eq_ok.mpr ⟨(), need_eq_ok.mpr ⟨ok.anchor, ok.condition, ok.value⟩, ?_⟩
    refine bind_eq_ok.mpr ⟨entry.index, orReject_eq_ok.mpr ok.found, bind_eq_ok.mpr ⟨(), need_eq_ok.mpr free, ?_⟩⟩
    refine bind_eq_ok.mpr ⟨starts, started, ?_⟩
    rw [if_pos begins]
    refine bind_eq_ok.mpr ⟨(), need_eq_ok.mpr ok.plain, bind_eq_ok.mpr ⟨_, texts, ?_⟩⟩
    dsimp only
    rw [← ok.guard, ← eq]
    rfl

/-- What makes a replacement of an entry, whatever else is held. -/
structure Replaces (source : List Char) (catalog : List (String × Nat)) (edit : Json) (entry : Entry) : Prop where
  keys : keysAre ["anchor", "new"] edit = true
  anchor : (member "anchor" edit).isText (fun _ => true) = true
  new : (member "new" edit).isText (fun s => decide (s.length ≤ 6000)) = true
  found : anchored catalog (String.ofList (entryText "anchor" edit)) = some entry.index
  plain : (entryText "new" edit).all (fun c => c ∉ "\r\t\x00".toList) = true
  first : ∀ line ∈ (splitLines [] (entryText "new" edit)).head?, line.head?.any (fun c => !isSpace c) = true
  header : endsInColon ((sourceLines source)[entry.index]?.getD []) = true →
    (splitLines [] (entryText "new" edit)).getLast?.any endsInColon = true
  guard : entry.guard = false
  text : entry.text = replacementLines (indentOf ((sourceLines source)[entry.index]?.getD [])) (entryText "new" edit)

theorem replacementEntry_eq_ok : replacementEntry source catalog fresh edit = .ok entry ↔
    Replaces source catalog edit entry ∧ fresh false entry.index = true := by
  constructor
  · intro h
    simp only [replacementEntry, bind_eq_ok, need_eq_ok, orReject_eq_ok] at h
    obtain ⟨-, ⟨keys, anchor, new⟩, index, found, -, free, -, plain, -, first, -, header, made⟩ := h
    cases made
    exact ⟨⟨keys, anchor, new, found, plain, first, header, rfl, rfl⟩, free⟩
  · rintro ⟨ok, free⟩
    refine bind_eq_ok.mpr ⟨(), need_eq_ok.mpr ⟨ok.keys, ok.anchor, ok.new⟩, ?_⟩
    refine bind_eq_ok.mpr ⟨entry.index, orReject_eq_ok.mpr ok.found, bind_eq_ok.mpr ⟨(), need_eq_ok.mpr free, ?_⟩⟩
    refine bind_eq_ok.mpr ⟨(), need_eq_ok.mpr ok.plain, bind_eq_ok.mpr ⟨(), need_eq_ok.mpr ok.first, ?_⟩⟩
    refine bind_eq_ok.mpr ⟨(), need_eq_ok.mpr ok.header, ?_⟩
    rw [← ok.guard, ← ok.text]
    rfl

/-- What makes an entry, whatever else is held. -/
def Makes (ast : AnchorSyntax) (modelSplit : Bool) (source : List Char) (catalog : List (String × Nat)) (edit : Json)
    (entry : Entry) : Prop :=
  edit.isObj = true ∧ if keysAre ["anchor", "guard", "return_expression"] edit then
    Guards ast modelSplit source catalog edit entry else Replaces source catalog edit entry

theorem entryOf_eq_ok : entryOf ast modelSplit source catalog fresh edit = .ok entry ↔
    Makes ast modelSplit source catalog edit entry ∧ fresh entry.guard entry.index = true := by
  rw [entryOf, bind_eq_ok, Makes]
  by_cases typed : keysAre ["anchor", "guard", "return_expression"] edit = true
  · simp only [typed, if_true, guardEntry_eq_ok, need_eq_ok]
    constructor
    · rintro ⟨-, obj, ok, free⟩
      exact ⟨⟨obj, ok⟩, ok.guard ▸ free⟩
    · rintro ⟨⟨obj, ok⟩, free⟩
      exact ⟨(), obj, ok, ok.guard ▸ free⟩
  · simp only [typed, Bool.false_eq_true, if_false, replacementEntry_eq_ok, need_eq_ok]
    constructor
    · rintro ⟨-, obj, ok, free⟩
      exact ⟨⟨obj, ok⟩, ok.guard ▸ free⟩
    · rintro ⟨⟨obj, ok⟩, free⟩
      exact ⟨(), obj, ok, ok.guard ▸ free⟩

/-! ### All entries -/

/-- Two entries are at different lines, or where the model splits them of different kinds. -/
def Entry.Apart (modelSplit : Bool) (a b : Entry) : Prop :=
  a.index ≠ b.index ∨ modelSplit = true ∧ a.guard ≠ b.guard

theorem Entry.Apart.symm {a b : Entry} (h : a.Apart modelSplit b) : b.Apart modelSplit a :=
  h.imp Ne.symm fun split => ⟨split.1, split.2.symm⟩

theorem isFresh_iff {held : List Entry} :
    isFresh modelSplit held entry.guard entry.index = true ↔ ∀ e ∈ held, e.Apart modelSplit entry := by
  simp [isFresh, Entry.Apart]

theorem collectEntries_eq_ok {held entries : List Entry} {edits : List Json} :
    collectEntries ast modelSplit source catalog held edits = .ok entries ↔ ∃ added,
      List.Forall₂ (Makes ast modelSplit source catalog) edits added ∧ entries = held ++ added ∧
      (∀ e ∈ held, ∀ e' ∈ added, e.Apart modelSplit e') ∧ added.Pairwise (Entry.Apart modelSplit) := by
  induction edits generalizing held with
  | nil =>
    rw [collectEntries, Except.ok.injEq]
    constructor
    · rintro rfl
      exact ⟨[], .nil, by simp, by simp, .nil⟩
    · rintro ⟨added, made, rfl, -, -⟩
      cases made
      simp
  | cons edit rest ih =>
    rw [collectEntries, bind_eq_ok]
    simp only [entryOf_eq_ok, isFresh_iff, ih]
    constructor
    · rintro ⟨entry, ⟨made, free⟩, added, more, rfl, outside, inside⟩
      refine ⟨entry :: added, .cons made more, by simp, fun e mem e' mem' => ?_, List.pairwise_cons.mpr ⟨?_, inside⟩⟩
      · rcases List.mem_cons.mp mem' with rfl | mem'
        · exact free e mem
        · exact outside e (List.mem_append_left _ mem) e' mem'
      · exact fun e' mem' => outside entry (List.mem_append_right _ List.mem_cons_self) e' mem'
    · rintro ⟨_, all, rfl, outside, inside⟩
      obtain ⟨entry, added, made, more, rfl⟩ := List.forall₂_cons_left_iff.mp all
      obtain ⟨first, inside⟩ := List.pairwise_cons.mp inside
      refine ⟨entry, ⟨made, fun e mem => outside e mem entry List.mem_cons_self⟩, added, more, by simp,
        fun e mem e' mem' => ?_, inside⟩
      rcases List.mem_append.mp mem with mem | mem
      · exact outside e mem e' (List.mem_cons_of_mem _ mem')
      · rw [List.mem_singleton.mp mem]
        exact first e' mem'

/-- The entry of a kind for a line. -/
def entryAt (guard : Bool) (entries : List Entry) (i : Nat) : Option Entry :=
  entries.find? fun entry => entry.guard = guard ∧ entry.index = i

theorem entryAt_eq_some {guard : Bool} {entries : List Entry} (apart : entries.Pairwise (Entry.Apart modelSplit))
    {i : Nat} : entryAt guard entries i = some entry ↔ entry ∈ entries ∧ entry.guard = guard ∧ entry.index = i := by
  constructor
  · intro found
    have holds := List.find?_some found
    exact ⟨List.mem_of_find?_eq_some found, by simpa using holds⟩
  · rintro ⟨mem, kind, place⟩
    cases found : entryAt guard entries i with
    | none =>
      have nowhere := List.find?_eq_none.mp found entry mem
      simp [kind, place] at nowhere
    | some e =>
      have holds : e.guard = guard ∧ e.index = i := by simpa using List.find?_some found
      by_contra other
      have symm : Std.Symm (Entry.Apart modelSplit) := ⟨fun _ _ => Entry.Apart.symm⟩
      have either := apart.forall (List.mem_of_find?_eq_some found) mem fun eq => other (congrArg some eq)
      rcases either with far | ⟨-, unlike⟩
      · exact far (holds.2.trans place.symm)
      · exact unlike (holds.1.trans kind.symm)

theorem changeOf_changesOf {guard : Bool} (entries : List Entry) (i : Nat) :
    Lines.changeOf (changesOf guard entries) i = (entryAt guard entries i).map Entry.text := by
  rw [Lines.changeOf, changesOf, List.find?_map, List.find?_filter, entryAt, Option.map_map]
  simp only [Function.comp_def, Bool.decide_and, Bool.decide_eq_true]

theorem changesOf_distinct {guard : Bool} {entries : List Entry}
    (apart : entries.Pairwise (Entry.Apart modelSplit)) : ((changesOf guard entries).map Prod.fst).Nodup := by
  rw [changesOf, List.map_map]
  refine List.pairwise_map.mpr ((apart.filter _).imp_of_mem fun {a b} mem mem' either => ?_)
  have first := of_decide_eq_true (List.mem_filter.mp mem).2
  have second := of_decide_eq_true (List.mem_filter.mp mem').2
  exact either.resolve_right fun split => split.2 (first.trans second.symm)

/-- What stands at a line: its guard, and what replaces it or the line itself. -/
def anchoredLine (entries : List Entry) (i : Nat) (line : List Char) : List Char :=
  ((entryAt true entries i).map Entry.text).getD [] ++ ((entryAt false entries i).map Entry.text).getD line

/-- A line that no entry names is unchanged. -/
theorem anchoredLine_unchanged {entries : List Entry} {i : Nat} (free : ∀ entry ∈ entries, entry.index ≠ i)
    (line : List Char) : anchoredLine entries i line = line := by
  have nowhere : ∀ guard, entryAt guard entries i = none := by
    intro guard
    refine List.find?_eq_none.mpr fun entry mem holds => free entry mem ?_
    exact (of_decide_eq_true holds).2
  rw [anchoredLine, nowhere, nowhere]
  rfl

theorem assemble_eq {entries : List Entry} (apart : entries.Pairwise (Entry.Apart modelSplit)) :
    assemble source entries = ((sourceLines source).mapIdx (anchoredLine entries)).flatten := by
  rw [assemble, Lines.changeAt_eq _ (changesOf_distinct apart), Lines.changeAt_eq _ (changesOf_distinct apart),
    List.mapIdx_mapIdx]
  congr 2
  funext i line
  simp only [Function.comp_apply, changeOf_changesOf, anchoredLine]
  cases entryAt true entries i <;> cases entryAt false entries i <;> rfl

/-- The order of the entries has no effect. -/
theorem assemble_perm {entries entries' : List Entry} (apart : entries.Pairwise (Entry.Apart modelSplit))
    (same : entries.Perm entries') : assemble source entries' = assemble source entries := by
  have apart' : entries'.Pairwise (Entry.Apart modelSplit) := apart.perm same Entry.Apart.symm
  have found : ∀ guard i, entryAt guard entries' i = entryAt guard entries i := by
    intro guard i
    ext entry
    simp only [entryAt_eq_some apart, entryAt_eq_some apart', same.mem_iff]
  rw [assemble_eq apart, assemble_eq apart']
  congr 2
  funext i line
  simp only [anchoredLine, found]

/-! ### Replies -/

/-- The same value, or two lists with the same items. -/
def SameItems (v v' : Json) : Prop := v' = v ∨ ∃ xs ys, v = .arr xs ∧ v' = .arr ys ∧ xs.Perm ys

/-- Two values with the same fields, but for the order of the items in lists. -/
def Reordered : Json → Json → Prop
  | .obj fields, .obj fields' => List.Forall₂ (fun f f' => f'.1 = f.1 ∧ SameItems f.2 f'.2) fields fields'
  | v, v' => v' = v

theorem Reordered.keysAre {names : List String} {v v' : Json} (h : Reordered v v') :
    keysAre names v' = keysAre names v := by
  cases v with
  | obj fields =>
    cases v' with
    | obj fields' =>
      have keys : Json.keys fields' = Json.keys fields := by
        induction h with
        | nil => rfl
        | cons first _ ih => simp only [Json.keys, List.map_cons, first.1] at ih ⊢; rw [ih]
      simp only [WorkerPool.keysAre, keys]
    | _ => cases h
  | _ => rw [show v' = _ from h]

theorem find_reordered {key : String} {fields fields' : List (String × Json)}
    (h : List.Forall₂ (fun f f' => f'.1 = f.1 ∧ SameItems f.2 f'.2) fields fields') :
    SameItems (((fields.find? fun f => f.1 == key).map Prod.snd).getD .null)
      (((fields'.find? fun f => f.1 == key).map Prod.snd).getD .null) := by
  induction h with
  | nil => exact .inl rfl
  | @cons f f' _ _ first _ ih =>
    rw [List.find?_cons, List.find?_cons, first.1]
    cases f.1 == key with
    | true => exact first.2
    | false => exact ih

theorem Reordered.member {v v' : Json} (h : Reordered v v') (key : String) :
    SameItems (member key v) (member key v') := by
  cases v with
  | obj fields =>
    cases v' with
    | obj fields' => exact find_reordered (List.rel_reverse h)
    | _ => cases h
  | _ => exact .inl (congrArg _ h)

theorem Reordered.symm {v v' : Json} (h : Reordered v v') : Reordered v' v := by
  cases v with
  | obj fields =>
    cases v' with
    | obj fields' =>
      refine List.Forall₂.imp (fun f f' same => ?_) h.flip
      refine ⟨same.1.symm, same.2.imp Eq.symm ?_⟩
      rintro ⟨xs, ys, left, right, perm⟩
      exact ⟨ys, xs, right, left, perm.symm⟩
    | _ => cases h
  | _ => rw [show v' = _ from h]; exact rfl

theorem SameItems.arr {xs : List Json} {v' : Json} (h : SameItems (.arr xs) v') : ∃ ys, v' = .arr ys ∧ xs.Perm ys := by
  rcases h with rfl | ⟨_, ys, ⟨⟩, rfl, same⟩
  · exact ⟨xs, rfl, .refl xs⟩
  · exact ⟨ys, rfl, same⟩

/-- What a list of replacements and a list of guards must be. -/
structure SplitOk (xs ys : List Json) : Prop where
  count : 1 ≤ xs.length + ys.length ∧ xs.length + ys.length ≤ 6
  edits : xs.all (keysAre ["anchor", "new"]) = true
  guards : ys.all (keysAre ["anchor", "guard", "return_expression"]) = true

theorem SplitOk.perm {xs ys xs' ys' : List Json} (ok : SplitOk xs ys) (same : xs.Perm xs') (same' : ys.Perm ys') :
    SplitOk xs' ys' := by
  refine ⟨?_, ?_, ?_⟩
  · rw [← same.length_eq, ← same'.length_eq]
    exact ok.count
  · rw [← same.all_eq]
    exact ok.edits
  · rw [← same'.all_eq]
    exact ok.guards

theorem repliedEntries_split {v : Json} {edits : List Json} : repliedEntries true v = .ok edits ↔
    keysAre ["edits", "guards"] v = true ∧ ∃ xs ys, member "edits" v = .arr xs ∧ member "guards" v = .arr ys ∧
      SplitOk xs ys ∧ edits = xs ++ ys := by
  constructor
  · intro h
    simp only [repliedEntries, if_true, bind_eq_ok, need_eq_ok] at h
    obtain ⟨-, -, -, keys, h⟩ := h
    split at h
    · rename_i xs ys eq eq'
      simp only [bind_eq_ok, need_eq_ok] at h
      obtain ⟨-, count, -, first, -, second, made⟩ := h
      cases made
      exact ⟨keys, xs, ys, eq, eq', ⟨count, first, second⟩, rfl⟩
    · cases h
  · rintro ⟨keys, xs, ys, eq, eq', ok, rfl⟩
    have obj : v.isObj = true := by
      cases v with
      | obj => rfl
      | _ => cases keys
    refine bind_eq_ok.mpr ⟨(), need_eq_ok.mpr obj, ?_⟩
    rw [if_pos rfl]
    refine bind_eq_ok.mpr ⟨(), need_eq_ok.mpr keys, ?_⟩
    rw [eq, eq']
    refine bind_eq_ok.mpr ⟨(), need_eq_ok.mpr ok.count, bind_eq_ok.mpr ⟨(), need_eq_ok.mpr ok.edits, ?_⟩⟩
    exact bind_eq_ok.mpr ⟨(), need_eq_ok.mpr ok.guards, rfl⟩

theorem repliedEntries_plain {v : Json} {edits : List Json} : repliedEntries false v = .ok edits ↔
    keysAre ["edits"] v = true ∧ member "edits" v = .arr edits ∧ 1 ≤ edits.length ∧ edits.length ≤ 6 := by
  constructor
  · intro h
    simp only [repliedEntries, Bool.false_eq_true, if_false, bind_eq_ok, need_eq_ok] at h
    obtain ⟨-, -, -, ⟨keys, size⟩, made⟩ := h
    cases eq : member "edits" v with
    | arr xs =>
      rw [eq] at made size
      cases made
      exact ⟨keys, rfl, by simpa [isListOf, listOf] using size⟩
    | _ => simp [eq, isListOf] at size
  · rintro ⟨keys, eq, size⟩
    have obj : v.isObj = true := by
      cases v with
      | obj => rfl
      | _ => cases keys
    refine bind_eq_ok.mpr ⟨(), need_eq_ok.mpr obj, ?_⟩
    rw [if_neg Bool.false_ne_true, eq]
    exact bind_eq_ok.mpr ⟨(), need_eq_ok.mpr ⟨keys, by simpa [isListOf] using size⟩, rfl⟩

/-- The entries of a reply whose lists are in another order. -/
theorem Reordered.repliedEntries {v v' : Json} (h : Reordered v v') {edits : List Json}
    (replied : repliedEntries modelSplit v = .ok edits) :
    ∃ edits', repliedEntries modelSplit v' = .ok edits' ∧ edits.Perm edits' := by
  cases modelSplit with
  | true =>
    obtain ⟨keys, xs, ys, eq, eq', ok, rfl⟩ := repliedEntries_split.mp replied
    obtain ⟨xs', listed, same⟩ := (eq ▸ h.member "edits").arr
    obtain ⟨ys', listed', same'⟩ := (eq' ▸ h.member "guards").arr
    exact ⟨xs' ++ ys', repliedEntries_split.mpr ⟨h.keysAre.trans keys, xs', ys', listed, listed', ok.perm same same',
      rfl⟩, same.append same'⟩
  | false =>
    obtain ⟨keys, eq, size⟩ := repliedEntries_plain.mp replied
    obtain ⟨edits', listed, same⟩ := (eq ▸ h.member "edits").arr
    exact ⟨edits', repliedEntries_plain.mpr ⟨h.keysAre.trans keys, listed, same.length_eq ▸ size⟩, same⟩

/-! ### Assembled text -/

/-- What an entry of a reply does to the line that its anchor names. -/
structure Describes (ast : AnchorSyntax) (modelSplit : Bool) (source : List Char) (edit : Json) (entry : Entry)
    (line : List Char) : Prop where
  held : (sourceLines source)[entry.index]? = some line
  anchor : member "anchor" edit = .str (anchorName (entry.index + 1))
  kind : entry.guard = keysAre ["anchor", "guard", "return_expression"] edit
  guard : entry.guard = true → ∃ condition value,
    guardTexts ast modelSplit source edit = .ok (condition, value) ∧
      entry.text = guardLines (indentOf line) condition value
  oneLine : entry.guard = true → ∀ c ∈ entryText "guard" edit ++ entryText "return_expression" edit, c ≠ '\n' ∧ c ≠ '\r'
  replacement : entry.guard = false →
    entry.text = ((splitLines [] (entryText "new" edit)).map fun l => indentOf line ++ l ++ ['\n']).flatten

/-- Each entry describes a line, no line has two entries of one kind, and only where the model splits them a line has
one of each. The text is the lines in their order, each with its guard in front and what replaces it. -/
structure Anchored (ast : AnchorSyntax) (modelSplit : Bool) (source : List Char) (edits : List Json)
    (text : List Char) : Prop where
  entries : ∃ entries, List.Forall₂ (fun edit entry => ∃ line, Describes ast modelSplit source edit entry line)
    edits entries ∧ entries.Pairwise (Entry.Apart modelSplit) ∧
    text = ((sourceLines source).mapIdx (anchoredLine entries)).flatten

theorem anchored_catalog (read : lineCatalog source = .ok catalog) {anchor : String} {index : Nat}
    (found : anchored catalog anchor = some index) :
    anchor = anchorName (index + 1) ∧ index < (sourceLines source).length := by
  simp only [lineCatalog, bind_eq_ok, need_eq_ok] at read
  obtain ⟨-, -, -, -, -, -, -, -, made⟩ := read
  cases made
  obtain ⟨⟨name, i⟩, listed, rfl⟩ := Option.map_eq_some_iff.mp found
  have eq : name = anchor := by simpa using List.find?_some listed
  obtain ⟨⟨line, k⟩, mem, named⟩ := List.mem_filterMap.mp (List.mem_of_find?_eq_some listed)
  split at named
  · cases named
  · obtain ⟨rfl, rfl⟩ := Prod.mk.inj (Option.some.inj named)
    have place := List.mem_zipIdx (List.mem_of_mem_drop mem)
    exact ⟨eq.symm, by omega⟩

theorem Makes.describes (read : lineCatalog source = .ok catalog)
    (made : Makes ast modelSplit source catalog edit entry) :
    ∃ line, Describes ast modelSplit source edit entry line := by
  have text : ∀ v : Json, v.isText (fun _ => true) = true → v = .str (v.str?.getD "") := by
    intro v isText
    obtain ⟨s, rfl, -⟩ := isText_iff.mp isText
    rfl
  have place : anchored catalog (String.ofList (entryText "anchor" edit)) = some entry.index →
      (member "anchor" edit).isText (fun _ => true) = true →
      (∃ line, (sourceLines source)[entry.index]? = some line) ∧
        member "anchor" edit = .str (anchorName (entry.index + 1)) := by
    intro found isText
    obtain ⟨named, within⟩ := anchored_catalog read found
    rw [entryText, String.ofList_toList] at named
    exact ⟨⟨_, List.getElem?_eq_getElem within⟩, (text _ isText).trans (congrArg Json.str named)⟩
  obtain ⟨-, made⟩ := made
  by_cases typed : keysAre ["anchor", "guard", "return_expression"] edit = true
  · rw [if_pos typed] at made
    obtain ⟨⟨line, held⟩, named⟩ := place made.found made.anchor
    obtain ⟨condition, value, texts, eq⟩ := made.text
    rw [held, Option.getD_some] at eq
    have oneLine : ∀ c ∈ entryText "guard" edit ++ entryText "return_expression" edit, c ≠ '\n' ∧ c ≠ '\r' := by
      intro c mem
      have plain := List.all_eq_true.mp made.plain c mem
      constructor
      · rintro rfl
        exact absurd plain (by decide)
      · rintro rfl
        exact absurd plain (by decide)
    exact ⟨line, held, named, made.guard.trans typed.symm, fun _ => ⟨condition, value, texts, eq⟩, fun _ => oneLine,
      fun other => absurd (made.guard.symm.trans other) (by decide)⟩
  · rw [if_neg typed] at made
    obtain ⟨⟨line, held⟩, named⟩ := place made.found made.anchor
    have eq := made.text
    rw [held, Option.getD_some] at eq
    exact ⟨line, held, named, made.guard.trans (eq_false_of_ne_true typed).symm,
      fun other => absurd (made.guard.symm.trans other) (by decide),
      fun other => absurd (made.guard.symm.trans other) (by decide), fun _ => eq⟩

theorem assembleAnchors_eq_ok {reply text : List Char} {edits : List Json} :
    assembleAnchors ast modelSplit reply source = .ok (text, edits) ↔ ∃ catalog value entries,
      lineCatalog source = .ok catalog ∧ Json.byteLength reply ≤ 16384 ∧ Json.loads pyDict reply = some value ∧
      repliedEntries modelSplit value = .ok edits ∧
      List.Forall₂ (Makes ast modelSplit source catalog) edits entries ∧
      entries.Pairwise (Entry.Apart modelSplit) ∧ assemble source entries = text ∧ text ≠ source ∧
      Json.byteLength text ≤ 20000 := by
  constructor
  · intro h
    simp only [assembleAnchors, bind_eq_ok, need_eq_ok, orReject_eq_ok, collectEntries_eq_ok] at h
    obtain ⟨catalog, read, -, size, value, loaded, list, replied, all, ⟨entries, made, eq, -, apart⟩, -, other, -, short,
      rest⟩ := h
    rw [List.nil_append] at eq
    subst eq
    cases rest
    exact ⟨catalog, value, all, read, size, loaded, replied, made, apart, rfl, other, short⟩
  · rintro ⟨catalog, value, entries, read, size, loaded, replied, made, apart, rfl, other, short⟩
    have collected : collectEntries ast modelSplit source catalog [] edits = .ok entries :=
      collectEntries_eq_ok.mpr ⟨entries, made, rfl, by simp, apart⟩
    refine bind_eq_ok.mpr ⟨catalog, read, bind_eq_ok.mpr ⟨(), need_eq_ok.mpr size, ?_⟩⟩
    refine bind_eq_ok.mpr ⟨value, orReject_eq_ok.mpr loaded, bind_eq_ok.mpr ⟨edits, replied, ?_⟩⟩
    refine bind_eq_ok.mpr ⟨entries, collected, bind_eq_ok.mpr ⟨(), need_eq_ok.mpr other, ?_⟩⟩
    exact bind_eq_ok.mpr ⟨(), need_eq_ok.mpr short, rfl⟩

/-- A reply whose lists are in another order is as long. -/
structure SameEntries (reply reply' : List Char) : Prop where
  size : Json.byteLength reply' = Json.byteLength reply
  value : ∃ v v', Json.loads pyDict reply = some v ∧ Json.loads pyDict reply' = some v' ∧ Reordered v v'

theorem SameEntries.symm {reply reply' : List Char} (h : SameEntries reply reply') : SameEntries reply' reply := by
  obtain ⟨v, v', loaded, loaded', same⟩ := h.value
  exact ⟨h.size.symm, v', v, loaded', loaded, same.symm⟩

theorem SameEntries.assembles {reply reply' text : List Char} {edits : List Json} (h : SameEntries reply reply')
    (accepted : assembleAnchors ast modelSplit reply source = .ok (text, edits)) :
    ∃ edits', assembleAnchors ast modelSplit reply' source = .ok (text, edits') := by
  obtain ⟨catalog, value, entries, read, size, loaded, replied, made, apart, eq, other, short⟩ :=
    assembleAnchors_eq_ok.mp accepted
  obtain ⟨v, v', first, second, reordered⟩ := h.value
  obtain rfl := Option.some.inj (first.symm.trans loaded)
  obtain ⟨edits', replied', same⟩ := reordered.repliedEntries replied
  obtain ⟨entries', made', same'⟩ := List.perm_comp_forall₂ same.symm made
  refine ⟨edits', assembleAnchors_eq_ok.mpr ⟨catalog, v', entries', read, h.size.trans_le size, second, replied', made',
    apart.perm same'.symm Entry.Apart.symm, ?_, other, short⟩⟩
  exact (assemble_perm apart same'.symm).trans eq

/-- An accepted reply is assembled by lines; with its lists in another order the text is the same, or both are
rejected. -/
theorem anchored_assembly (ast : AnchorSyntax) (modelSplit : Bool) (reply source : List Char) :
    (∀ text edits, assembleAnchors ast modelSplit reply source = .ok (text, edits) →
      Anchored ast modelSplit source edits text) ∧
    ∀ reply', SameEntries reply reply' →
      (assembleAnchors ast modelSplit reply source).toOption.map Prod.fst =
        (assembleAnchors ast modelSplit reply' source).toOption.map Prod.fst := by
  constructor
  · intro text edits accepted
    obtain ⟨catalog, value, entries, read, -, -, -, made, apart, rfl, -, -⟩ := assembleAnchors_eq_ok.mp accepted
    exact ⟨entries, made.imp fun edit entry made => made.describes read, apart, assemble_eq apart⟩
  · intro reply' same
    cases first : assembleAnchors ast modelSplit reply source with
    | ok result =>
      obtain ⟨edits', second⟩ := same.assembles first
      rw [second]
      rfl
    | error e =>
      cases second : assembleAnchors ast modelSplit reply' source with
      | error _ => rfl
      | ok result =>
        obtain ⟨edits', again⟩ := same.symm.assembles second
        rw [first] at again
        cases again

namespace Sample

/-- The module `ast` that reads nothing: only a reply that the model splits is read by it. -/
def noSyntax : AnchorSyntax where
  parseExpr _ := none
  unparse _ := []
  dump _ := ""
  statements _ := none
  returned _ := none

def branch : List Char := "def keep(x):\n    if x:\n        return 3\n    return 2\n".toList

def replacement : Json := .obj [("anchor", .str "L3"), ("new", .str "y = 4\nreturn y")]

def earlyReturn : Json := .obj [("anchor", .str "L2"), ("guard", .str "x == 1"), ("return_expression", .str "1")]

def anchorReply : List Char := Json.spaced true worker.floatRepr (.obj [("edits", .arr [replacement, earlyReturn])])

def branchEntries : List Entry :=
  [⟨2, false, "        y = 4\n        return y\n".toList⟩, ⟨1, true, "    if x == 1:\n        return 1\n".toList⟩]

def branchAfter : List Char :=
  ("def keep(x):\n    if x == 1:\n        return 1\n    if x:\n        y = 4\n        return y\n" ++
    "    return 2\n").toList

end Sample

theorem sample_assembled : assembleAnchors Sample.noSyntax false Sample.anchorReply Sample.branch =
    .ok (Sample.branchAfter, [Sample.replacement, Sample.earlyReturn]) := by
  have catalog : lineCatalog Sample.branch = .ok [("L2", 1), ("L3", 2), ("L4", 3)] := by
    refine bind_eq_ok.mpr ⟨(), need_eq_ok.mpr (by decide), ?_⟩
    refine bind_eq_ok.mpr ⟨(), need_eq_ok.mpr (by decide), ?_⟩
    refine bind_eq_ok.mpr ⟨(), need_eq_ok.mpr (by decide), ?_⟩
    refine bind_eq_ok.mpr ⟨(), need_eq_ok.mpr (by decide), ?_⟩
    exact congrArg Except.ok (by decide)
  have distinct : (Json.obj [("edits", .arr [Sample.replacement, Sample.earlyReturn])]).Everywhere Json.KeysDistinct := by
    simp [Sample.replacement, Sample.earlyReturn, Json.KeysDistinct, Json.keys]
  have reads : (Json.obj [("edits", .arr [Sample.replacement, Sample.earlyReturn])]).Everywhere
      (Json.ReadsBack Sample.worker.floatRepr) := by
    simp [Sample.replacement, Sample.earlyReturn, Json.ReadsBack]
  have loaded := Json.loads_spaced (a := true) pyDict_law distinct reads (List.all_nil (f := Json.isBlank))
  rw [List.append_nil] at loaded
  have first : Makes Sample.noSyntax false Sample.branch [("L2", 1), ("L3", 2), ("L4", 3)] Sample.replacement
      ⟨2, false, "        y = 4\n        return y\n".toList⟩ := by
    refine ⟨rfl, ?_⟩
    rw [if_neg (by decide)]
    exact ⟨by decide, rfl, by decide, by decide, by decide, by decide, by decide, rfl,
      by decide⟩
  have second : Makes Sample.noSyntax false Sample.branch [("L2", 1), ("L3", 2), ("L4", 3)] Sample.earlyReturn
      ⟨1, true, "    if x == 1:\n        return 1\n".toList⟩ := by
    refine ⟨rfl, ?_⟩
    rw [if_pos (by decide)]
    exact ⟨rfl, by decide, by decide, by decide, .inl (by decide), by decide, rfl, _, _, rfl,
      by decide⟩
  refine assembleAnchors_eq_ok.mpr ⟨_, _, Sample.branchEntries, catalog, by decide +kernel, loaded,
    repliedEntries_plain.mpr ⟨rfl, rfl, by decide, by decide⟩, .cons first (.cons second .nil), ?_, by decide,
    by decide, by decide⟩
  exact List.pairwise_cons.mpr ⟨fun e mem => .inl (by rw [List.mem_singleton.mp mem]; decide), List.pairwise_singleton _ _⟩

theorem sample_anchored : Anchored Sample.noSyntax false Sample.branch [Sample.replacement, Sample.earlyReturn]
    Sample.branchAfter :=
  (anchored_assembly Sample.noSyntax false Sample.anchorReply Sample.branch).1 _ _ sample_assembled

end WorkerPool
