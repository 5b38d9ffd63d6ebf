import WorkerPool.RagHandoff
import WorkerPool.StructuredPipe
import WorkerPool.Lib.Lines

/-!
# Rendering a function into its module

The module `ast` is a parameter: what it reads in a text, what it writes for a function, and what the grammar of
candidates asks of the nodes. The splice is by lines.
-/

namespace WorkerPool

open PyText
open Issue (isLineBreak)

/-- A function definition, over expressions and statements. -/
structure FunctionDef (E S : Type) where
  name : String
  decorators : List E
  /-- `args.args` with their annotations. -/
  parameters : List (String × Option E)
  /-- Defaults, parameters of other kinds and type parameters. -/
  others : List E
  returns : Option E
  body : List S

inductive TopLevel (E S : Type) where
  | function (f : FunctionDef E S)
  | other (s : S)

/-- A statement of a module with `lineno` and `end_lineno`. -/
structure Placed (E S : Type) where
  line : Nat
  last : Nat
  node : TopLevel E S

/-- `ast.parse`, `ast.unparse` and `ast.dump`, and what `guarded` asks of the nodes of a candidate. -/
structure Python (E S : Type) where
  parse : List Char → Option (List (Placed E S))
  unparse : FunctionDef E S → List Char
  dump : List (TopLevel E S) → String
  checkNodes : Json → List (TopLevel E S) → Except Raised Unit

def blocked {α : Type} (code : String) : Except Raised α := .error (.blocked [.str code])

variable {E S : Type}

def FunctionDef.stripped (f : FunctionDef E S) : FunctionDef E S :=
  { f with parameters := f.parameters.map fun p => (p.1, none), returns := none }

/-- A statement that defines a function of the name. -/
def Placed.named (name : String) (p : Placed E S) : Option (Placed E S × FunctionDef E S) :=
  match p.node with
  | .function f => if f.name = name then some (p, f) else none
  | .other _ => none

/-- `task["function"]`. -/
def taskFunction (task : Json) : String := (member "function" task).str?.getD ""

/-- `function_tree`. -/
def functionTree (py : Python E S) (source : List Char) (name : String) :
    Except Raised (Placed E S × FunctionDef E S) := do
  need (Json.byteLength source ≤ 262144) "module_size"
  match py.parse source with
  | none => blocked "module_syntax"
  | some tree =>
    match tree.filterMap (Placed.named name) with
    | [(p, f)] =>
      need (f.decorators.isEmpty = true) "function_decorator"
      pure (p, f)
    | _ => blocked "function_identity"

/-- `extracted`. -/
def extracted (py : Python E S) (source : List Char) (task : Json) : Except Raised (List Char) := do
  let (_, f) ← functionTree py source (taskFunction task)
  need (f.parameters.map Prod.fst = taskParameters task ∧ f.others.isEmpty = true) "function_signature"
  pure (py.unparse f.stripped ++ ['\n'])

/-- `guarded`. -/
def guarded (py : Python E S) (source : List Char) (task : Json) : Except Raised (List (TopLevel E S)) := do
  let normalized ← extracted py source task
  let tree ← orError (py.parse normalized)
  py.checkNodes task (tree.map Placed.node)
  pure (tree.map Placed.node)

/-- `candidate_fingerprint`. -/
def candidateFingerprint (it : Interpreter) (py : Python E S) (source : List Char) (task : Json) :
    Except Raised String := do
  let tree ← guarded py source task
  pure (it.sha256 (py.dump tree))

/-! ### The splice -/

/-- `text.rstrip("\n")`. -/
def dropNewlines (text : List Char) : List Char := (text.reverse.dropWhile (· == '\n')).reverse

/-- What `render` asks of the line at which the function begins. -/
def isHeader (line : List Char) : Bool :=
  (line.reverse.dropWhile isSpace).head? == some ':' && "def ".toList.isPrefixOf (line.dropWhile isSpace)

/-- The lines of the text that stands for the body. -/
def renderedBody (unparsed : List Char) : List Char :=
  dropNewlines ((Lines.keepLines isLineBreak unparsed).drop 1).flatten ++ ['\n']

/-- `lines[:line - 1] + header + body + lines[last:]`. -/
def spliced (lines : List (List Char)) (line last : Nat) (header body : List Char) : List Char :=
  (lines.take (line - 1)).flatten ++ (header ++ body) ++ (lines.drop last).flatten

/-- The reply of the model: a dictionary with a text for `function`. -/
def repliedFunction (reply : List Char) : Except Raised (List Char) := do
  need (Json.byteLength reply ≤ 20000) "reply_size"
  match Json.loads pyDict reply with
  | none => blocked "reply_json"
  | some proposed =>
    need (keysAre ["function"] proposed) "reply_schema"
    match member "function" proposed with
    | .str text => pure text.toList
    | _ => blocked "reply_schema"

/-- What the text of a candidate comes to: one function, guarded. -/
def candidateOf (py : Python E S) (text : List Char) (task : Json) : Except Raised (FunctionDef E S) := do
  match py.parse text with
  | some [⟨_, _, .function _⟩] =>
    match ← guarded py text task with
    | .function candidate :: _ => pure candidate
    | _ => .error .error
  | some _ => blocked "candidate_function_only"
  | none => blocked "candidate_syntax"

/-- `render`. -/
def render (it : Interpreter) (py : Python E S) (before : List Char) (task : Json) (reply : List Char) :
    Except Raised (List Char) := do
  let _ ← taskSpec it task
  let text ← repliedFunction reply
  let candidate ← candidateOf py text task
  let (original, _) ← functionTree py before (taskFunction task)
  let _ ← extracted py before task
  let lines := Lines.keepLines isLineBreak before
  let header ← orError lines[original.line - 1]?
  need (isHeader header) "multiline_signature_not_supported"
  let after := spliced lines original.line original.last header (renderedBody (py.unparse candidate))
  let _ ← orError (py.parse after)
  pure after

end WorkerPool
