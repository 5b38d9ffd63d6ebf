import Mathlib

/-!
# The three-valued logic of SQL conditions

Connectives over truth values with an unknown, comparisons of nullable columns, and the
evaluation from left to right that stops at an operand that decides and may raise before.
-/

namespace Sql

variable {α ε ρ : Type}

inductive Truth where
  | true | false | unknown
  deriving DecidableEq, Repr

namespace Truth

def ofBool (b : Bool) : Truth := if b then true else false

def not : Truth → Truth
  | true => false
  | false => true
  | unknown => unknown

def and : Truth → Truth → Truth
  | false, _ => false
  | true, t => t
  | unknown, false => false
  | unknown, _ => unknown

def or : Truth → Truth → Truth
  | true, _ => true
  | false, t => t
  | unknown, true => true
  | unknown, _ => unknown

/-- Only a condition that is true takes effect, not one that is unknown. -/
def holds (t : Truth) : Bool := t == true

@[simp] theorem holds_ofBool (b : Bool) : (ofBool b).holds = b := by
  cases b <;> rfl

@[simp] theorem not_ofBool (b : Bool) : (ofBool b).not = ofBool !b := by
  cases b <;> rfl

@[simp] theorem holds_and (s t : Truth) : (s.and t).holds = (s.holds && t.holds) := by
  cases s <;> cases t <;> rfl

@[simp] theorem holds_or (s t : Truth) : (s.or t).holds = (s.holds || t.holds) := by
  cases s <;> cases t <;> rfl

end Truth

/-! ### Nullable columns -/

/-- `x = y`, unknown where either is `NULL`. -/
def eq [DecidableEq α] : Option α → Option α → Truth
  | some a, some b => .ofBool (decide (a = b))
  | _, _ => .unknown

/-- `x <> y`. -/
def ne [DecidableEq α] (x y : Option α) : Truth := (eq x y).not

def isNull (x : Option α) : Truth := .ofBool x.isNone

def isNotNull (x : Option α) : Truth := .ofBool x.isSome

/-- `COALESCE(x, d)` with a constant. -/
def coalesce (x : Option α) (d : α) : Option α := some (x.getD d)

/-- `EXISTS(SELECT 1 FROM rows WHERE condition)`, which is never unknown. -/
def anyRow (rows : List ρ) (condition : ρ → Truth) : Truth :=
  .ofBool (rows.any fun r => (condition r).holds)

@[simp] theorem holds_eq [DecidableEq α] (x y : Option α) :
    (eq x y).holds = (x.isSome && decide (x = y)) := by
  cases x with
  | none => rfl
  | some a =>
    cases y with
    | none => rfl
    | some b => by_cases h : a = b <;> simp [eq, Truth.ofBool, Truth.holds, h]

theorem holds_ne [DecidableEq α] (x y : Option α) :
    (ne x y).holds = (x.isSome && y.isSome && decide (x ≠ y)) := by
  cases x with
  | none => cases y <;> rfl
  | some a =>
    cases y with
    | none => rfl
    | some b => by_cases h : a = b <;> simp [ne, eq, Truth.ofBool, Truth.not, Truth.holds, h]

@[simp] theorem holds_isNull (x : Option α) : (isNull x).holds = x.isNone := by simp [isNull]

@[simp] theorem holds_isNotNull (x : Option α) : (isNotNull x).holds = x.isSome := by
  simp [isNotNull]

@[simp] theorem holds_anyRow (rows : List ρ) (condition : ρ → Truth) :
    (anyRow rows condition).holds = rows.any fun r => (condition r).holds := by
  simp [anyRow]

/-! ### Evaluation that may raise -/

/-- `x AND y`: the second operand is not evaluated after a false one. -/
def andThen (x y : Except ε Truth) : Except ε Truth := do
  let s ← x
  if s = .false then pure .false else return s.and (← y)

/-- `x OR y`: the second operand is not evaluated after a true one. -/
def orElse (x y : Except ε Truth) : Except ε Truth := do
  let s ← x
  if s = .true then pure .true else return s.or (← y)

/-- A guard lets the statement pass only where its condition is evaluated and does not hold. -/
def refuses : Except ε Truth → Bool
  | .error _ => true
  | .ok t => t.holds

@[simp] theorem andThen_ok (s t : Truth) :
    andThen (.ok s) (.ok t : Except ε Truth) = .ok (s.and t) := by
  cases s <;> rfl

@[simp] theorem orElse_ok (s t : Truth) :
    orElse (.ok s) (.ok t : Except ε Truth) = .ok (s.or t) := by
  cases s <;> rfl

/-- After an operand that is known the guard is decided by it and the rest. -/
@[simp] theorem refuses_andThen_ofBool (b : Bool) (y : Except ε Truth) :
    refuses (andThen (.ok (.ofBool b)) y) = (b && refuses y) := by
  cases b with
  | false => rfl
  | true => cases y <;> rfl

end Sql
