import Mathlib

/-!
# Python text

The `str` operations and the small fragment of `re` that programs use on
identifiers and messages: stripping, truth of an optional text, full matches of
character-class runs, and `re.sub` with a pattern given by its matcher.

The Unicode tables of the interpreter (letter case, `str.isalnum`) are not
copied here; they stay parameters of the definitions that need them.
-/

namespace PyText

/-- `str.isspace` and the class `\s`. -/
def isSpace (c : Char) : Bool :=
  let n := c.toNat
  (9 ≤ n && n ≤ 13) || (28 ≤ n && n ≤ 32) || n == 0x85 || n == 0xA0 || n == 0x1680 ||
    (0x2000 ≤ n && n ≤ 0x200A) || n == 0x2028 || n == 0x2029 || n == 0x202F ||
    n == 0x205F || n == 0x3000

def stripList (cs : List Char) : List Char :=
  ((cs.dropWhile isSpace).reverse.dropWhile isSpace).reverse

def strip (s : String) : String := String.ofList (stripList s.toList)

/-- The slice `s[:n]`. -/
def prefixOf (n : Nat) (s : String) : String := String.ofList (s.toList.take n)

/-- The truth value of a nullable text: neither absent nor empty. -/
def truthy : Option String → Bool
  | none => false
  | some s => s ≠ ""

/-- Python's `value or None` for a text. -/
def orNone (s : String) : Option String := if s = "" then none else some s

@[simp] theorem truthy_none : truthy none = false := rfl

theorem truthy_some {s : String} : truthy (some s) = true ↔ s ≠ "" := by simp [truthy]

def isLowerHex (c : Char) : Bool := ('0' ≤ c && c ≤ '9') || ('a' ≤ c && c ≤ 'f')

def isAsciiAlnum (c : Char) : Bool :=
  ('0' ≤ c && c ≤ '9') || ('a' ≤ c && c ≤ 'z') || ('A' ≤ c && c ≤ 'Z')

/-- Full match of `[0-9a-f]{n}`. -/
def hexRun (n : Nat) (s : String) : Bool :=
  s.toList.length == n && s.toList.all isLowerHex

/-- Full match of one character of `first` and then `lo` to `hi` of `rest`. -/
def headedRun (first rest : Char → Bool) (lo hi : Nat) (s : String) : Bool :=
  match s.toList with
  | [] => false
  | c :: cs => first c && (lo ≤ cs.length && cs.length ≤ hi) && cs.all rest

/-- `re.sub`: at each position left to right the matcher sees the character
before it and the text from it on, and answers with a replacement and the number
of characters consumed. The counter skips what a match has consumed. -/
def subst (m : Option Char → List Char → Option (List Char × Nat)) :
    Option Char → Nat → List Char → List Char
  | _, _, [] => []
  | _, skip + 1, c :: cs => subst m (some c) skip cs
  | before, 0, c :: cs =>
    match m before (c :: cs) with
    | some (replacement, consumed) => replacement ++ subst m (some c) (consumed - 1) cs
    | none => c :: subst m (some c) 0 cs

/-- Substitution by non-empty replacements never empties a text. -/
theorem subst_ne_nil {m : Option Char → List Char → Option (List Char × Nat)}
    (solid : ∀ before cs r n, m before cs = some (r, n) → r ≠ [])
    (before : Option Char) {cs : List Char} (h : cs ≠ []) : subst m before 0 cs ≠ [] := by
  cases cs with
  | nil => exact absurd rfl h
  | cons c rest =>
    rw [subst]
    cases hm : m before (c :: rest) with
    | none => simp
    | some p =>
      obtain ⟨r, n⟩ := p
      simp [solid before _ r n hm]

/-- A character of the result comes from the text or from a replacement. -/
theorem mem_subst {m : Option Char → List Char → Option (List Char × Nat)}
    {cs : List Char} {before : Option Char} {skip : Nat} {c : Char}
    (h : c ∈ subst m before skip cs) :
    c ∈ cs ∨ ∃ b tail r n, tail <:+ cs ∧ m b tail = some (r, n) ∧ c ∈ r := by
  induction cs generalizing before skip with
  | nil => simp [subst] at h
  | cons d rest ih =>
    have lift : (c ∈ rest ∨ ∃ b tail r n, tail <:+ rest ∧ m b tail = some (r, n) ∧ c ∈ r) →
        c ∈ d :: rest ∨ ∃ b tail r n, tail <:+ d :: rest ∧ m b tail = some (r, n) ∧ c ∈ r := by
      rintro (hc | ⟨b, tail, r, n, ht, hm, hc⟩)
      · exact Or.inl (List.mem_cons_of_mem _ hc)
      · exact Or.inr ⟨b, tail, r, n, ht.trans (List.suffix_cons _ _), hm, hc⟩
    cases skip with
    | succ skip => exact lift (ih (by simpa only [subst] using h))
    | zero =>
      rw [subst] at h
      cases hm : m before (d :: rest) with
      | none =>
        rw [hm] at h
        rcases List.mem_cons.mp h with rfl | hc
        · exact Or.inl List.mem_cons_self
        · exact lift (ih hc)
      | some p =>
        obtain ⟨r, n⟩ := p
        rw [hm] at h
        rcases List.mem_append.mp h with hc | hc
        · exact Or.inr ⟨before, d :: rest, r, n, List.suffix_refl _, hm, hc⟩
        · exact lift (ih hc)

/-- A letter of a pattern compiled with `(?i)`: besides the two ASCII cases, `i`,
`s` and `k` have the non-ASCII partners that `re` documents. -/
def sameLetter (letter c : Char) : Bool :=
  c == letter || c == letter.toUpper ||
    (letter == 'i' && (c.toNat == 0x130 || c.toNat == 0x131)) ||
    (letter == 's' && c.toNat == 0x17F) || (letter == 'k' && c.toNat == 0x212A)

/-- The class `[A-Za-z0-9]` under `(?i)`. -/
def isCaselessAlnum (c : Char) : Bool :=
  isAsciiAlnum c || c.toNat == 0x130 || c.toNat == 0x131 || c.toNat == 0x17F ||
    c.toNat == 0x212A

/-- The length of a caseless literal at the head of a text. -/
def literal : List Char → List Char → Option Nat
  | [], _ => some 0
  | _ :: _, [] => none
  | l :: ls, c :: cs => if sameLetter l c then (literal ls cs).map (· + 1) else none

def isWord (isAlnum : Char → Bool) (c : Char) : Bool := isAlnum c || c == '_'

/-- `\b` in front of a word character. -/
def atWordStart (isAlnum : Char → Bool) (before : Option Char) : Bool :=
  match before with
  | none => true
  | some c => !isWord isAlnum c

def spanLength (p : Char → Bool) (cs : List Char) : Nat := (cs.takeWhile p).length


/-! ### Fields joined by a delimiter -/

section Joined

variable {α : Type} {d : α} {r n q r' n' q' : List α}

/-- A field without the delimiter ends at the first one. -/
theorem field_inj (free : d ∉ n) (free' : d ∉ n') (h : n ++ d :: q = n' ++ d :: q') :
    n = n' ∧ q = q' := by
  induction n generalizing n' with
  | nil =>
    cases n' with
    | nil => exact ⟨rfl, (List.cons_eq_cons.mp h).2⟩
    | cons e rest => exact absurd ((List.cons_eq_cons.mp h).1 ▸ List.mem_cons_self) free'
  | cons e rest ih =>
    cases n' with
    | nil => exact absurd ((List.cons_eq_cons.mp h).1 ▸ List.mem_cons_self) free
    | cons e' rest' =>
      obtain ⟨rfl, tail⟩ := List.cons_eq_cons.mp h
      obtain ⟨rfl, last⟩ := ih (fun later => free (List.mem_cons_of_mem _ later))
        (fun later => free' (List.mem_cons_of_mem _ later)) tail
      exact ⟨rfl, last⟩

/-- The first field `r` goes on, past a delimiter and the second field of the other text, and
what it holds beyond is made up for by the last field of the other. -/
def Absorbs (d : α) (r n q r' n' q' : List α) : Prop :=
  ∃ tail, r = r' ++ d :: (n' ++ tail) ∧ d :: q' = tail ++ d :: (n ++ d :: q)

theorem Absorbs.ne (h : Absorbs d r n q r' n' q') : r ≠ r' := by
  obtain ⟨tail, longer, -⟩ := h
  intro same
  have lengths := congrArg List.length (same.symm.trans longer)
  simp only [List.length_append, List.length_cons] at lengths
  omega

theorem Absorbs.mem (h : Absorbs d r n q r' n' q') : d ∈ r := by
  obtain ⟨tail, rfl, -⟩ := h
  exact List.mem_append_right _ List.mem_cons_self

theorem Absorbs.joined_eq (h : Absorbs d r n q r' n' q') :
    r ++ d :: (n ++ d :: q) = r' ++ d :: (n' ++ d :: q') := by
  obtain ⟨tail, rfl, rest⟩ := h
  rw [rest]
  simp only [List.append_assoc, List.cons_append]

/-- A longer first field absorbs the other's second field whole. -/
theorem absorbs_of_longer {c : List α} (free : d ∉ n') (some_ : c ≠ [])
    (h : d :: (n' ++ d :: q') = c ++ d :: (n ++ d :: q)) :
    Absorbs d (r' ++ c) n q r' n' q' := by
  cases c with
  | nil => exact absurd rfl some_
  | cons e c =>
    obtain ⟨rfl, inner⟩ := List.cons_eq_cons.mp h
    rcases List.append_eq_append_iff.mp inner with ⟨tail, rfl, rest⟩ | ⟨tail, cut, rest⟩
    · exact ⟨tail, rfl, rest⟩
    · cases tail with
      | nil =>
        rw [List.append_nil] at cut
        exact ⟨[], by rw [cut, List.append_nil], rest.symm⟩
      | cons e tail =>
        -- the other's second field would hold a delimiter
        obtain ⟨rfl, -⟩ := List.cons_eq_cons.mp rest
        exact absurd (cut ▸ List.mem_append_right c List.mem_cons_self) free

/-- Three fields, the second without a delimiter, are determined by the joined text up to one
first field absorbing the other's second. -/
theorem joined_eq_iff (free : d ∉ n) (free' : d ∉ n') :
    r ++ d :: (n ++ d :: q) = r' ++ d :: (n' ++ d :: q') ↔
      (r = r' ∧ n = n' ∧ q = q') ∨ Absorbs d r n q r' n' q' ∨ Absorbs d r' n' q' r n q := by
  constructor
  · intro h
    by_cases same : r = r'
    · subst same
      obtain ⟨-, inner⟩ := List.cons_eq_cons.mp (List.append_cancel_left h)
      exact .inl ⟨rfl, field_inj free free' inner⟩
    · rcases List.append_eq_append_iff.mp h with ⟨c, rfl, rest⟩ | ⟨c, rfl, rest⟩
      · exact .inr (.inr (absorbs_of_longer free (fun none_ => same (by simp [none_])) rest))
      · exact .inr (.inl (absorbs_of_longer free' (fun none_ => same (by simp [none_])) rest))
  · rintro (⟨rfl, rfl, rfl⟩ | absorbs | absorbs)
    · rfl
    · exact absorbs.joined_eq
    · exact absorbs.joined_eq.symm

end Joined

end PyText
