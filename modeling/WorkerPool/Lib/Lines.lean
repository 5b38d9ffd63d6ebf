import Mathlib

/-!
# Lines with their ends

A text is cut behind each line break. Which characters break lines differs from one reader to another; a carriage
return with the line feed behind it is one break for all.
-/

namespace Lines

variable {ends : Char → Bool}

/-- `text.splitlines(keepends=True)`, for the breaks given. -/
def keepLines (ends : Char → Bool) : List Char → List (List Char)
  | [] => []
  | '\r' :: '\n' :: rest => ['\r', '\n'] :: keepLines ends rest
  | c :: rest =>
    if ends c then [c] :: keepLines ends rest
    else match keepLines ends rest with
      | [] => [[c]]
      | line :: lines => (c :: line) :: lines

/-- The breaks that the grammar of Python knows. -/
def isNewline (c : Char) : Bool := c == '\n' || c == '\r'

/-! ### Changes at their places -/

variable {α β : Type}

/-- Items are changed at the places that the changes name. -/
def changeAt (f : β → α → α) (changes : List (Nat × β)) (xs : List α) : List α :=
  changes.foldl (fun xs change => xs.modify change.1 (f change.2)) xs

/-- The change for a place. -/
def changeOf (changes : List (Nat × β)) (i : Nat) : Option β := (changes.find? fun change => change.1 = i).map Prod.snd

/-- Changes of different places do not depend on one another. -/
theorem changeAt_eq (f : β → α → α) {changes : List (Nat × β)} (distinct : (changes.map Prod.fst).Nodup) (xs : List α) :
    changeAt f changes xs = xs.mapIdx fun i a => ((changeOf changes i).map (f · a)).getD a := by
  induction changes generalizing xs with
  | nil => exact (List.ext_getElem? fun i => by simp [changeAt, changeOf]).symm
  | cons change rest ih =>
    rw [List.map_cons, List.nodup_cons] at distinct
    have later := ih distinct.2 (xs.modify change.1 (f change.2))
    rw [changeAt, List.foldl_cons, ← changeAt, later]
    apply List.ext_getElem?
    intro i
    rw [List.getElem?_mapIdx, List.getElem?_mapIdx, List.getElem?_modify]
    by_cases here : change.1 = i
    · have none_later : rest.find? (fun c => c.1 = i) = none := by
        refine List.find?_eq_none.mpr fun c mem eq => distinct.1 ?_
        rw [here, ← of_decide_eq_true eq]
        exact List.mem_map_of_mem mem
      cases xs[i]? with
      | none => simp
      | some a => simp [changeOf, here, none_later]
    · cases xs[i]? with
      | none => simp
      | some a => simp [changeOf, here]

end Lines
