import WorkerPool.Lib.PyText

/-!
# Substitution over a text in parts

What a substitution emits for the front of a text, and how much of the rest a match takes that begins in the front.
A matcher is local if it reads no further than one character behind its match.
-/

namespace PyText

/-- A matcher: from the character before a place and the text from it on, a replacement and a length. -/
abbrev Matcher := Option Char → List Char → Option (List Char × Nat)

variable {m : Matcher}

/-- The character before what follows a text. -/
def lastOf (before : Option Char) (text : List Char) : Option Char := text.getLast?.or before

@[simp] theorem lastOf_nil (before : Option Char) : lastOf before [] = before := rfl

@[simp] theorem lastOf_cons (before : Option Char) (c : Char) (text : List Char) :
    lastOf before (c :: text) = lastOf (some c) text := by
  cases text with
  | nil => rfl
  | cons d rest => rw [lastOf, lastOf, List.getLast?_cons_cons]; rfl

theorem lastOf_append (before : Option Char) (front back : List Char) :
    lastOf before (front ++ back) = lastOf (lastOf before front) back := by
  induction front generalizing before with
  | nil => rfl
  | cons c front ih => rw [List.cons_append, lastOf_cons, lastOf_cons, ih]

/-- How many characters of the back a match takes that begins in the front. -/
def taken (m : Matcher) : Option Char → Nat → List Char → List Char → Nat
  | _, skip, [], _ => skip
  | _, skip + 1, c :: front, back => taken m (some c) skip front back
  | before, 0, c :: front, back =>
    match m before (c :: (front ++ back)) with
    | some (_, consumed) => taken m (some c) (consumed - 1) front back
    | none => taken m (some c) 0 front back

/-- What is emitted for the front. -/
def emitted (m : Matcher) : Option Char → Nat → List Char → List Char → List Char
  | _, _, [], _ => []
  | _, skip + 1, c :: front, back => emitted m (some c) skip front back
  | before, 0, c :: front, back =>
    match m before (c :: (front ++ back)) with
    | some (replacement, consumed) => replacement ++ emitted m (some c) (consumed - 1) front back
    | none => c :: emitted m (some c) 0 front back

theorem subst_append (before : Option Char) (skip : Nat) (front back : List Char) :
    subst m before skip (front ++ back) =
      emitted m before skip front back ++ subst m (lastOf before front) (taken m before skip front back) back := by
  induction front generalizing before skip with
  | nil => simp [emitted, taken]
  | cons c front ih =>
    cases skip with
    | succ skip => rw [List.cons_append, subst, ih, emitted, taken, lastOf_cons]
    | zero =>
      rw [List.cons_append, subst, emitted, taken, lastOf_cons]
      cases m before (c :: (front ++ back)) with
      | none => simp only [ih, List.cons_append]
      | some hit => simp only [ih, List.append_assoc]

/-- The rest of a match is skipped. -/
theorem subst_skip (before : Option Char) (skip extra : Nat) (text : List Char) (fits : skip = text.length + extra)
    (rest : List Char) : subst m before skip (text ++ rest) = subst m (lastOf before text) extra rest := by
  induction text generalizing before skip with
  | nil =>
    rw [List.length_nil, Nat.zero_add] at fits
    rw [fits]
    rfl
  | cons c text ih =>
    obtain ⟨k, rfl⟩ : ∃ k, skip = k + 1 := ⟨skip - 1, by rw [List.length_cons] at fits; omega⟩
    rw [List.cons_append, subst, lastOf_cons, ih (some c) k (by rw [List.length_cons] at fits; omega)]

/-- No match begins in the text, where the rest follows. -/
def Quiet (m : Matcher) : Option Char → List Char → List Char → Prop
  | _, [], _ => True
  | before, c :: text, rest => m before (c :: (text ++ rest)) = none ∧ Quiet m (some c) text rest

theorem Quiet.subst {before : Option Char} {text rest : List Char} (quiet : Quiet m before text rest) :
    subst m before 0 (text ++ rest) = text ++ subst m (lastOf before text) 0 rest := by
  induction text generalizing before with
  | nil => rfl
  | cons c text ih =>
    obtain ⟨here, later⟩ := quiet
    rw [List.cons_append, PyText.subst, here, lastOf_cons, List.cons_append]
    exact congrArg (c :: ·) (ih later)

theorem Quiet.append {before : Option Char} {front back rest : List Char} (first : Quiet m before front (back ++ rest))
    (second : Quiet m (lastOf before front) back rest) : Quiet m before (front ++ back) rest := by
  induction front generalizing before with
  | nil => exact second
  | cons c front ih =>
    obtain ⟨here, later⟩ := first
    rw [lastOf_cons] at second
    exact ⟨by rw [List.append_eq, List.append_assoc]; exact here, ih later second⟩

/-- Where no match begins with the text, what is before it has no effect. -/
theorem subst_before {text : List Char} (none_here : ∀ before, m before text = none) (before before' : Option Char) :
    subst m before 0 text = subst m before' 0 text := by
  cases text with
  | nil => rfl
  | cons c rest => rw [subst, subst, none_here before, none_here before']

/-- A match is found again in a text that agrees with the first as far as one character behind the match. -/
def Local (m : Matcher) : Prop := ∀ ⦃before s s' replacement n k⦄, s.take k = s'.take k →
  m before s = some (replacement, n) → n < k → m before s' = some (replacement, n)

/-- A match that begins earlier and takes the whole mark is found whatever follows the mark, with the same
replacement, and takes the mark again. -/
def Solid (m : Matcher) (mark : List Char) : Prop := ∀ ⦃before front back back' replacement n⦄, front ≠ [] →
  m before (front ++ (mark ++ back)) = some (replacement, n) → front.length + mark.length ≤ n →
    ∃ n', front.length + mark.length ≤ n' ∧ m before (front ++ (mark ++ back')) = some (replacement, n')

/-- What follows a mark has no effect on what is emitted in front of it, nor on whether the mark is taken. -/
theorem emitted_eq {mark : List Char} (reads : Local m) (solid : Solid m mark) (back back' : List Char)
    (before : Option Char) (front : List Char) (skip skip' : Nat)
    (same : skip = skip' ∨ front.length + mark.length ≤ skip ∧ front.length + mark.length ≤ skip') :
    emitted m before skip front (mark ++ back) = emitted m before skip' front (mark ++ back') ∧
      (taken m before skip front (mark ++ back) = taken m before skip' front (mark ++ back') ∨
        mark.length ≤ taken m before skip front (mark ++ back) ∧
          mark.length ≤ taken m before skip' front (mark ++ back')) := by
  induction front generalizing before skip skip' with
  | nil =>
    rw [List.length_nil, Nat.zero_add] at same
    exact ⟨rfl, same⟩
  | cons c front ih =>
    rw [List.length_cons] at same
    cases skip with
    | succ skip =>
      obtain ⟨k, rfl⟩ : ∃ k, skip' = k + 1 := ⟨skip' - 1, by omega⟩
      simp only [emitted, taken]
      exact ih (some c) skip k (by omega)
    | zero =>
      obtain rfl : skip' = 0 := by omega
      have agree : ∀ x y : List Char, (c :: (front ++ (mark ++ x))).take (front.length + 1 + mark.length) =
          (c :: (front ++ (mark ++ y))).take (front.length + 1 + mark.length) := by
        intro x y
        have whole : ∀ z : List Char, (c :: (front ++ (mark ++ z))).take (front.length + 1 + mark.length) =
            c :: (front ++ mark) := by
          intro z
          rw [← List.append_assoc, ← List.cons_append]
          exact List.take_left' (by simp only [List.length_cons, List.length_append]; omega)
        rw [whole, whole]
      have moves : ∀ x y replacement n, m before (c :: (front ++ (mark ++ x))) = some (replacement, n) →
          ∃ n', m before (c :: (front ++ (mark ++ y))) = some (replacement, n') ∧
            (n' = n ∨ front.length + 1 + mark.length ≤ n ∧ front.length + 1 + mark.length ≤ n') := by
        intro x y replacement n hit
        by_cases short : n < front.length + 1 + mark.length
        · exact ⟨n, reads (agree x y) hit short, .inl rfl⟩
        · obtain ⟨n', long, again⟩ := @solid before (c :: front) x y replacement n (List.cons_ne_nil _ _) hit
            (by rw [List.length_cons]; omega)
          rw [List.length_cons] at long
          exact ⟨n', again, .inr ⟨by omega, long⟩⟩
      rw [emitted, emitted, taken, taken]
      cases hit : m before (c :: (front ++ (mark ++ back))) with
      | some found =>
        obtain ⟨replacement, n⟩ := found
        obtain ⟨n', again, lengths⟩ := moves back back' replacement n hit
        rw [again]
        obtain ⟨emits, takes⟩ := ih (some c) (n - 1) (n' - 1) (by omega)
        exact ⟨congrArg (replacement ++ ·) emits, takes⟩
      | none =>
        cases hit' : m before (c :: (front ++ (mark ++ back'))) with
        | some found =>
          obtain ⟨replacement, n⟩ := found
          obtain ⟨n', again, -⟩ := moves back' back replacement n hit'
          rw [again] at hit
          cases hit
        | none =>
          obtain ⟨emits, takes⟩ := ih (some c) 0 0 (.inl rfl)
          exact ⟨congrArg (c :: ·) emits, takes⟩

/-- A match takes nothing behind a place if no match reaches over it. -/
theorem taken_le {back : List Char} {limit : Nat}
    (stops : ∀ before front replacement n, front ≠ [] → m before (front ++ back) = some (replacement, n) →
      n ≤ front.length + limit)
    (before : Option Char) (front : List Char) (skip : Nat) (short : skip ≤ front.length + limit) :
    taken m before skip front back ≤ limit := by
  induction front generalizing before skip with
  | nil => simpa [taken] using short
  | cons c front ih =>
    rw [List.length_cons] at short
    cases skip with
    | succ skip => exact ih (some c) skip (by omega)
    | zero =>
      rw [taken]
      cases hit : m before (c :: (front ++ back)) with
      | none => exact ih (some c) 0 (Nat.zero_le _)
      | some found =>
        obtain ⟨replacement, n⟩ := found
        have bound := stops before (c :: front) replacement n (List.cons_ne_nil _ _) hit
        rw [List.length_cons] at bound
        exact ih (some c) (n - 1) (by omega)

theorem taken_of_le {before : Option Char} {front back : List Char} {skip : Nat} (long : front.length ≤ skip) :
    taken m before skip front back = skip - front.length := by
  induction front generalizing before skip with
  | nil => rfl
  | cons c front ih =>
    rw [List.length_cons] at long
    obtain ⟨k, rfl⟩ : ∃ k, skip = k + 1 := ⟨skip - 1, by omega⟩
    rw [taken, ih (by omega), List.length_cons, Nat.add_sub_add_right]

/-- If nothing is taken and no match ends with the front, the last character of the front is emitted. -/
theorem lastOf_emitted {back : List Char}
    (apart : ∀ before front replacement n, front ≠ [] → m before (front ++ back) = some (replacement, n) →
      0 < n ∧ n ≠ front.length)
    (before before' : Option Char) (front : List Char) (skip : Nat) (short : skip < front.length)
    (free : taken m before skip front back = 0) :
    lastOf before' (emitted m before skip front back) = lastOf before front := by
  induction front generalizing before before' skip with
  | nil => exact absurd short (Nat.not_lt_zero skip)
  | cons c front ih =>
    rw [List.length_cons] at short
    cases skip with
    | succ skip =>
      rw [taken] at free
      rw [emitted, lastOf_cons]
      exact ih (some c) before' skip (by omega) free
    | zero =>
      rw [taken] at free
      rw [emitted, lastOf_cons]
      cases hit : m before (c :: (front ++ back)) with
      | none =>
        rw [hit] at free
        show lastOf before' (c :: emitted m (some c) 0 front back) = _
        rw [lastOf_cons]
        cases front with
        | nil => rfl
        | cons d front => exact ih (some c) (some c) 0 (by simp) free
      | some found =>
        obtain ⟨replacement, n⟩ := found
        obtain ⟨positive, other⟩ := apart before (c :: front) replacement n (List.cons_ne_nil _ _) hit
        rw [List.length_cons] at other
        rw [hit] at free
        have within : n - 1 < front.length := by
          by_contra beyond
          have long : front.length ≤ n - 1 := Nat.not_lt.mp beyond
          have zero : taken m (some c) (n - 1) front back = 0 := free
          rw [taken_of_le long] at zero
          omega
        show lastOf before' (replacement ++ emitted m (some c) (n - 1) front back) = _
        rw [lastOf_append]
        exact ih (some c) _ (n - 1) within free

/-! ### Spans -/

theorem spanLength_append {p : Char → Bool} {front rest : List Char} (run : ∀ c ∈ front, p c = true)
    (stop : ∀ c ∈ rest.head?, p c = false) : spanLength p (front ++ rest) = front.length := by
  rw [spanLength, List.takeWhile_append_of_pos run]
  cases rest with
  | nil => rw [List.takeWhile_nil, List.append_nil]
  | cons c rest => rw [List.takeWhile_cons, stop c rfl, if_neg Bool.false_ne_true, List.append_nil]

theorem spanLength_parts (p : Char → Bool) (cs : List Char) : ∃ front rest, cs = front ++ rest ∧
    (∀ c ∈ front, p c = true) ∧ (∀ c ∈ rest.head?, p c = false) ∧ spanLength p cs = front.length := by
  refine ⟨cs.takeWhile p, cs.dropWhile p, List.takeWhile_append_dropWhile.symm, fun c mem => ?_, fun c mem => ?_, rfl⟩
  · exact List.all_eq_true.mp List.all_takeWhile c mem
  · have stopped := List.head?_dropWhile_not p cs
    rw [Option.mem_def.mp mem] at stopped
    simpa using stopped

/-- A run that a text in front of another character begins with is in front of that character. -/
theorem run_in_front {p : Char → Bool} {text run rest tail : List Char} {c : Char}
    (eq : text ++ c :: tail = run ++ rest) (all : ∀ d ∈ run, p d = true) (other : p c = false) :
    ∃ gap, text = run ++ gap ∧ rest = gap ++ c :: tail := by
  rcases List.append_eq_append_iff.mp eq with ⟨a, rfl, behind⟩ | ⟨gap, rfl, rfl⟩
  · cases a with
    | nil => exact ⟨[], by rw [List.append_nil, List.append_nil], behind.symm⟩
    | cons d a =>
      obtain ⟨rfl, -⟩ := List.cons.inj behind
      have kept := all c (by simp)
      rw [other] at kept
      cases kept
  · exact ⟨gap, rfl, rfl⟩

/-! ### Matches that end in a run -/

/-- A match: something in front, and behind it a run of characters of a class, as long as it can be. Any other run
behind the same front would be a match too. -/
structure Found (m : Matcher) (p : Char → Bool) (before : Option Char) (s replacement : List Char) (n : Nat)
    (front run rest : List Char) : Prop where
  text : s = front ++ (run ++ rest)
  nonempty : run ≠ []
  all : ∀ c ∈ run, p c = true
  stop : ∀ c ∈ rest.head?, p c = false
  length : n = front.length + run.length
  again : ∀ run rest, run ≠ [] → (∀ c ∈ run, p c = true) → (∀ c ∈ rest.head?, p c = false) →
    m before (front ++ (run ++ rest)) = some (replacement, front.length + run.length)

/-- Matches end in runs of the class. -/
def EndsInRun (m : Matcher) (p : Char → Bool) : Prop := ∀ ⦃before s replacement n⦄,
  m before s = some (replacement, n) → ∃ front run rest, Found m p before s replacement n front run rest

/-- A match that begins in front of the key has its run begin there too. -/
def RunsOver (m : Matcher) (p : Char → Bool) (key : List Char) : Prop := ∀ ⦃before text tail replacement n⦄,
  text ≠ [] → m before (text ++ (key ++ tail)) = some (replacement, n) →
    ∃ front gap run rest, text = front ++ gap ∧ run ++ rest = gap ++ (key ++ tail) ∧
      Found m p before (text ++ (key ++ tail)) replacement n front run rest

variable {p : Char → Bool} {key : List Char}

/-- Two texts that agree beyond a part: the part is in both, and what follows begins alike. -/
theorem agree_behind {front rest s' : List Char} {k : Nat} (agree : (front ++ rest).take k = s'.take k)
    (lt : front.length < k) : ∃ rest', s' = front ++ rest' ∧ rest'.head? = rest.head? := by
  have cut : (front ++ rest).take k = front ++ rest.take (k - front.length) := by
    rw [List.take_append, List.take_of_length_le (Nat.le_of_lt lt)]
  rw [cut] at agree
  refine ⟨rest.take (k - front.length) ++ s'.drop k, ?_, ?_⟩
  · rw [← List.append_assoc, agree, List.take_append_drop]
  · cases rest with
    | nil =>
      have length := congrArg List.length agree
      simp only [List.take_nil, List.append_nil, List.length_take] at length
      rw [List.take_nil, List.nil_append, List.drop_eq_nil_of_le (by omega)]
    | cons c rest =>
      obtain ⟨j, eq⟩ : ∃ j, k - front.length = j + 1 := ⟨k - front.length - 1, by omega⟩
      rw [eq]
      rfl

theorem EndsInRun.isLocal (ends : EndsInRun m p) : Local m := by
  intro before s s' replacement n k agree hit short
  obtain ⟨front, run, rest, found⟩ := ends hit
  rw [found.text, ← List.append_assoc] at agree
  have lt : (front ++ run).length < k := by
    rw [List.length_append, ← found.length]
    exact short
  obtain ⟨rest', rfl, head⟩ := agree_behind agree lt
  rw [found.length, List.append_assoc]
  exact found.again run rest' found.nonempty found.all (head ▸ found.stop)

theorem RunsOver.solid (across : RunsOver m p key) (key_ne : key ≠ []) (more : List Char) : Solid m (key ++ more) := by
  intro before text back back' replacement n some_of hit long
  rw [List.append_assoc] at hit
  obtain ⟨front, gap, run, rest, rfl, eq, found⟩ := across some_of hit
  rw [List.length_append, found.length] at long
  have covered : gap ++ (key ++ more) <+: run := by
    have whole : gap ++ (key ++ more) <+: run ++ rest := ⟨back, by rw [eq]; simp⟩
    refine List.prefix_of_prefix_length_le whole (List.prefix_append run rest) ?_
    rw [List.length_append]
    omega
  obtain ⟨beyond, rfl⟩ := covered
  obtain ⟨run', rest', rfl, all, stop, -⟩ := spanLength_parts p back'
  have all' : ∀ c ∈ gap ++ (key ++ more) ++ run', p c = true := by
    intro c mem
    rcases List.mem_append.mp mem with mem | mem
    · exact found.all c (List.mem_append_left _ mem)
    · exact all c mem
  have nonempty : gap ++ (key ++ more) ++ run' ≠ [] := by simp [key_ne]
  refine ⟨_, ?_, (by simp : (front ++ gap) ++ (key ++ more ++ (run' ++ rest')) =
    front ++ (gap ++ (key ++ more) ++ run' ++ rest')) ▸ found.again _ rest' nonempty all' stop⟩
  simp only [List.length_append]
  omega

/-- A match ends with or before a text behind which no character of the class follows. -/
theorem RunsOver.le (across : RunsOver m p key) {value after : List Char} (stop : ∀ c ∈ after.head?, p c = false)
    {before : Option Char} {text replacement : List Char} {n : Nat} (some_of : text ≠ [])
    (hit : m before (text ++ (key ++ value ++ after)) = some (replacement, n)) :
    n ≤ text.length + (key ++ value).length := by
  rw [List.append_assoc] at hit
  obtain ⟨front, gap, run, rest, rfl, eq, found⟩ := across some_of hit
  by_contra beyond
  rw [found.length, List.length_append] at beyond
  have covered : gap ++ (key ++ value) <+: run := by
    have whole : gap ++ (key ++ value) <+: run ++ rest := ⟨after, by rw [eq]; simp⟩
    refine List.prefix_of_prefix_length_le whole (List.prefix_append run rest) ?_
    rw [List.length_append]
    omega
  obtain ⟨more, rfl⟩ := covered
  cases more with
  | nil =>
    rw [List.append_nil, List.length_append] at beyond
    omega
  | cons c more =>
    have same : c :: (more ++ rest) = after := by
      have cut : (gap ++ (key ++ value)) ++ (c :: (more ++ rest)) = (gap ++ (key ++ value)) ++ after := by
        simpa using eq
      exact List.append_cancel_left cut
    have kept := found.all c (by simp)
    rw [stop c (by rw [← same]; rfl)] at kept
    cases kept

/-- No match ends with the text in front of a key that begins with a character of the class. -/
theorem RunsOver.apart (across : RunsOver m p key) (begins : ∀ c ∈ key.head?, p c = true) (key_ne : key ≠ [])
    {before : Option Char} {text tail replacement : List Char} {n : Nat} (some_of : text ≠ [])
    (hit : m before (text ++ (key ++ tail)) = some (replacement, n)) : 0 < n ∧ n ≠ text.length := by
  obtain ⟨front, gap, run, rest, rfl, eq, found⟩ := across some_of hit
  have positive : 0 < run.length := List.length_pos_iff.mpr found.nonempty
  rw [found.length]
  refine ⟨by omega, fun ends => ?_⟩
  rw [List.length_append, Nat.add_left_cancel_iff] at ends
  obtain ⟨-, rfl⟩ := List.append_inj eq ends
  obtain ⟨c, key, rfl⟩ := List.exists_cons_of_ne_nil key_ne
  have stopped := found.stop c rfl
  rw [begins c rfl] at stopped
  cases stopped

/-! ### Texts that a substitution leaves -/

theorem Quiet.subst_eq {before : Option Char} {text : List Char} (quiet : Quiet m before text []) :
    PyText.subst m before 0 text = text := by
  have whole := quiet.subst
  rw [List.append_nil, PyText.subst, List.append_nil] at whole
  exact whole

/-! ### What a second substitution finds -/

/-- A character of the class behind the front of a match makes a match. -/
theorem Found.begins {before : Option Char} {s s' replacement front run rest tail : List Char} {n : Nat} {d : Char}
    (found : Found m p before s replacement n front run rest) (text : s' = front ++ d :: tail) (kept : p d = true) :
    m before s' ≠ none := by
  obtain ⟨more, behind, rfl, all, stop, -⟩ := spanLength_parts p tail
  have all' : ∀ c ∈ d :: more, p c = true := by
    intro c mem
    rcases List.mem_cons.mp mem with rfl | mem
    · exact kept
    · exact all c mem
  have again := found.again (d :: more) behind (List.cons_ne_nil _ _) all' stop
  rw [text]
  rw [List.cons_append] at again
  rw [again]
  exact Option.some_ne_none _

/-- A match in the beginning of a text is one in the text. -/
theorem EndsInRun.extends (ends : EndsInRun m p) {before : Option Char} {text : List Char} {k : Nat}
    (hit : m before (text.take k) ≠ none) : m before text ≠ none := by
  obtain ⟨⟨replacement, n⟩, found⟩ := Option.ne_none_iff_exists'.mp hit
  obtain ⟨front, run, rest, parts⟩ := ends found
  obtain ⟨d, run, rfl⟩ := List.exists_cons_of_ne_nil parts.nonempty
  have whole : text.take k ++ text.drop k = text := List.take_append_drop k text
  rw [parts.text] at whole
  have eq : text = front ++ d :: (run ++ rest ++ text.drop k) := whole.symm.trans (by simp)
  exact parts.begins eq (parts.all d List.mem_cons_self)

/-- What is left to do behind a match. -/
theorem subst_cut {before : Option Char} {replacement taken rest : List Char} (some_of : taken ≠ [])
    (hit : m before (taken ++ rest) = some (replacement, taken.length)) :
    subst m before 0 (taken ++ rest) = replacement ++ subst m (lastOf before taken) 0 rest := by
  obtain ⟨c, taken, rfl⟩ := List.exists_cons_of_ne_nil some_of
  rw [List.cons_append] at hit
  rw [List.cons_append, subst, hit, lastOf_cons]
  exact congrArg (replacement ++ ·) (subst_skip (some c) _ 0 taken rfl rest)

/-- A match takes a part of the text and leaves a mark for it. The part and the mark begin with characters of the class
of another matcher, whose matches run over the mark, and neither matcher begins behind the part. -/
structure Cut (m m' : Matcher) (p : Char → Bool) (text replacement : List Char) (n : Nat) (part rest : List Char) :
    Prop where
  text : text = part ++ rest
  length : n = part.length
  begins : ∃ c tail, part = c :: tail ∧ p c = true
  mark : ∃ c key more, replacement = c :: key ++ more ∧ p c = true ∧ RunsOver m' p (c :: key)
  stop : ∀ c ∈ rest.head?, p c = false
  behind : ∀ c tail, rest = c :: tail → ∀ before tail', m before (c :: tail') = none ∧ m' before (c :: tail') = none

/-- Every match is a cut. -/
def Cuts (m m' : Matcher) (p : Char → Bool) : Prop := ∀ ⦃before text replacement n⦄,
  m before text = some (replacement, n) → ∃ part rest, Cut m m' p text replacement n part rest

theorem Cut.subst_eq {m' : Matcher} {before : Option Char} {text replacement part rest : List Char} {n : Nat}
    (cut : Cut m m' p text replacement n part rest) (hit : m before text = some (replacement, n)) :
    subst m before 0 text = replacement ++ subst m (lastOf before part) 0 rest := by
  obtain ⟨c, tail, eq, -⟩ := cut.begins
  rw [cut.text, cut.length] at hit
  rw [cut.text]
  exact subst_cut (by rw [eq]; exact List.cons_ne_nil _ _) hit

variable {m' : Matcher}

/-- A match that begins in what is kept was one before. -/
theorem match_kept (cuts : Cuts m m' p) (text : List Char) (before b : Option Char)
    (kept : List Char) (some_of : kept ≠ []) (hit : m' b (kept ++ subst m before 0 text) ≠ none) :
    m' b (kept ++ text) ≠ none := by
  induction size : text.length using Nat.strongRecOn generalizing text before kept with
  | ind total ih =>
    cases text with
    | nil => exact hit
    | cons c rest =>
      cases found : m before (c :: rest) with
      | none =>
        rw [subst, found] at hit
        have longer := ih rest.length (by rw [← size]; exact Nat.lt_succ_self _) rest (some c) (kept ++ [c])
          (by simp) (by rw [List.append_assoc]; exact hit) rfl
        rwa [List.append_assoc] at longer
      | some cutting =>
        obtain ⟨replacement, n⟩ := cutting
        obtain ⟨part, behind, cut⟩ := cuts found
        rw [cut.subst_eq found] at hit
        obtain ⟨d, tail, rfl, begins⟩ := cut.begins
        obtain ⟨e, key, more, rfl, -, across⟩ := cut.mark
        obtain ⟨⟨replacement', n'⟩, again⟩ := Option.ne_none_iff_exists'.mp hit
        rw [List.append_assoc] at again
        obtain ⟨front, gap, run, rest', rfl, eq, parts⟩ := across some_of again
        rw [cut.text]
        cases gap with
        | nil =>
          have text : front ++ [] ++ (d :: tail ++ behind) = front ++ d :: (tail ++ behind) := by simp
          exact parts.begins text begins
        | cons g gap =>
          obtain ⟨r, run, rfl⟩ := List.exists_cons_of_ne_nil parts.nonempty
          obtain ⟨rfl, -⟩ := List.cons.inj eq
          have text : front ++ r :: gap ++ (d :: tail ++ behind) = front ++ r :: (gap ++ (d :: tail ++ behind)) := by simp
          exact parts.begins text (parts.all r List.mem_cons_self)

theorem Quiet.take (ends : EndsInRun m p) {before : Option Char} {text : List Char} (quiet : Quiet m before text [])
    (k : Nat) : Quiet m before (text.take k) [] := by
  induction text generalizing before k with
  | nil => simpa using quiet
  | cons c text ih =>
    cases k with
    | zero => trivial
    | succ k =>
      obtain ⟨here, later⟩ := quiet
      refine ⟨?_, ih later k⟩
      by_contra hit
      refine absurd here (ends.extends (k := k + 1) ?_)
      simpa using hit

/-- Where the first matcher finds nothing, neither does the second. -/
def Leaves (m m' : Matcher) : Option Char → Nat → List Char → Prop
  | _, _, [] => True
  | _, skip + 1, c :: text => Leaves m m' (some c) skip text
  | before, 0, c :: text =>
    match m before (c :: text) with
    | some (_, consumed) => Leaves m m' (some c) (consumed - 1) text
    | none => m' before (c :: text) = none ∧ Leaves m m' (some c) 0 text

theorem leaves_self (before : Option Char) (skip : Nat) (text : List Char) : Leaves m m before skip text := by
  induction text generalizing before skip with
  | nil => trivial
  | cons c text ih =>
    cases skip with
    | succ skip => exact ih _ _
    | zero =>
      rw [Leaves]
      cases found : m before (c :: text) with
      | none => exact ⟨rfl, ih _ _⟩
      | some hit => exact ih _ _

theorem Quiet.leaves {before : Option Char} {text : List Char} (quiet : Quiet m' before text []) (skip : Nat) :
    Leaves m m' before skip text := by
  induction text generalizing before skip with
  | nil => trivial
  | cons c text ih =>
    obtain ⟨here, later⟩ := quiet
    cases skip with
    | succ skip => exact ih later _
    | zero =>
      rw [Leaves]
      cases found : m before (c :: text) with
      | none => exact ⟨by simpa using here, ih later _⟩
      | some hit => exact ih later _

theorem leaves_skip (before : Option Char) (text rest : List Char) :
    Leaves m m' before text.length (text ++ rest) ↔ Leaves m m' (lastOf before text) 0 rest := by
  induction text generalizing before with
  | nil => rfl
  | cons c text ih =>
    rw [List.length_cons, List.cons_append, Leaves, lastOf_cons]
    exact ih _

/-- No match begins in what a substitution by marks emits, if none began in what it left. -/
theorem quiet_subst (cuts : Cuts m m' p)
    (calm : ∀ before text replacement n, m before text = some (replacement, n) →
      ∀ b rest, Quiet m' b replacement rest)
    (text : List Char) (before b : Option Char) (leaves : Leaves m m' before 0 text)
    (same : b = before ∨ ∀ c tail, text = c :: tail → ∀ before tail', m before (c :: tail') = none ∧
      m' before (c :: tail') = none) :
    Quiet m' b (subst m before 0 text) [] := by
  induction size : text.length using Nat.strongRecOn generalizing text before b with
  | ind total ih =>
    cases text with
    | nil => trivial
    | cons c rest =>
      cases found : m before (c :: rest) with
      | none =>
        rw [Leaves, found] at leaves
        obtain ⟨here, later⟩ := leaves
        rw [subst, found]
        refine ⟨?_, ih rest.length (by rw [← size]; exact Nat.lt_succ_self _) rest (some c) (some c) later (.inl rfl) rfl⟩
        rw [List.append_nil]
        rcases same with rfl | never
        · by_contra hit
          exact match_kept cuts rest (some c) b [c] (List.cons_ne_nil _ _) hit here
        · exact (never c rest rfl b _).2
      | some hit =>
        obtain ⟨replacement, n⟩ := hit
        obtain ⟨part, behind, cut⟩ := cuts found
        rw [cut.subst_eq found]
        obtain ⟨d, tail, eq, -⟩ := cut.begins
        have shorter : behind.length < total := by
          rw [← size, cut.text, eq, List.length_append, List.length_cons]
          omega
        refine Quiet.append (calm _ _ _ _ found b _) (ih _ shorter behind _ _ ?_ (.inr cut.behind) rfl)
        rw [Leaves, found] at leaves
        have text := cut.text
        rw [eq, List.cons_append] at text
        obtain ⟨rfl, rfl⟩ := List.cons.inj text
        have length : n - 1 = tail.length := by rw [cut.length, eq, List.length_cons, Nat.add_sub_cancel]
        rw [eq, lastOf_cons]
        exact (leaves_skip (some c) tail behind).mp (length ▸ leaves)

/-- The marks of a substitution are found again and left as they are, as far as they are there. -/
structure Lasting (m : Matcher) (p : Char → Bool) : Prop where
  again : ∀ ⦃before text replacement n⦄, m before text = some (replacement, n) → ∀ rest,
    (∀ c ∈ rest.head?, p c = false) → m before (replacement ++ rest) = some (replacement, replacement.length)
  begun : ∀ ⦃before text replacement n⦄, m before text = some (replacement, n) → ∀ k,
    (subst m before 0 (replacement.take k)).take k = replacement.take k

theorem head?_subst {before : Option Char} {text : List Char}
    (never : ∀ c tail, text = c :: tail → ∀ before tail', m before (c :: tail') = none) :
    (subst m before 0 text).head? = text.head? := by
  cases text with
  | nil => rfl
  | cons c rest => rw [subst, never c rest rfl, List.head?_cons, List.head?_cons]

theorem mem_head?_of_take {text : List Char} {k : Nat} {c : Char} (mem : c ∈ (text.take k).head?) : c ∈ text.head? := by
  cases text with
  | nil => simp at mem
  | cons d rest =>
    cases k with
    | zero => simp at mem
    | succ k => simpa using mem

/-- A second substitution, after the first and a truncation, changes nothing up to the truncation. -/
theorem subst_again (cuts : Cuts m m p) (ends : EndsInRun m p) (lasting : Lasting m p)
    (text : List Char) (before b : Option Char) (k : Nat)
    (same : b = before ∨ ∀ c tail, text = c :: tail → ∀ before tail', m before (c :: tail') = none) :
    (subst m b 0 ((subst m before 0 text).take k)).take k = (subst m before 0 text).take k := by
  induction size : text.length using Nat.strongRecOn generalizing text before b k with
  | ind total ih =>
    cases text with
    | nil => simp [subst]
    | cons c rest =>
      cases found : m before (c :: rest) with
      | none =>
        rw [subst, found]
        cases k with
        | zero => rfl
        | succ k =>
          have here : m b (c :: (subst m (some c) 0 rest).take k) = none := by
            rcases same with rfl | never
            · by_contra hit
              refine match_kept cuts rest (some c) b [c] (List.cons_ne_nil _ _) ?_ found
              exact ends.extends (k := k + 1) hit
            · exact never c rest rfl b _
          show (subst m b 0 (c :: (subst m (some c) 0 rest).take k)).take (k + 1) = _
          rw [subst, here]
          have later := ih rest.length (by rw [← size]; exact Nat.lt_succ_self _) rest (some c) (some c) k (.inl rfl) rfl
          exact congrArg (c :: ·) later
      | some hit =>
        obtain ⟨replacement, n⟩ := hit
        obtain rfl : b = before := same.resolve_right fun never => by
          rw [never c rest rfl before rest] at found
          cases found
        obtain ⟨part, behind, cut⟩ := cuts found
        obtain ⟨d, tail, eq, -⟩ := cut.begins
        have shorter : behind.length < total := by
          rw [← size, cut.text, eq, List.length_append, List.length_cons]
          omega
        have never : ∀ c tail, behind = c :: tail → ∀ before tail', m before (c :: tail') = none :=
          fun c tail eq before tail' => (cut.behind c tail eq before tail').1
        rw [cut.subst_eq found]
        by_cases short : k ≤ replacement.length
        · rw [List.take_append_of_le_length short]
          exact lasting.begun found k
        · have head : (subst m (lastOf b part) 0 behind).head? = behind.head? := head?_subst never
          obtain ⟨e, key, more, mark, -⟩ := cut.mark
          have some_of : replacement ≠ [] := by simp [mark]
          obtain ⟨j, rfl⟩ : ∃ j, k = replacement.length + j := ⟨k - replacement.length, by omega⟩
          rw [List.take_length_add_append, subst_cut some_of (lasting.again found _ ?_), List.take_length_add_append,
            ih _ shorter behind (lastOf b part) (lastOf b replacement) j (.inr never) rfl]
          intro c mem
          refine cut.stop c ?_
          rw [← head]
          exact mem_head?_of_take mem

/-! ### Two texts that differ in a part -/

/-- Where a match that begins in the front reaches into the part, it takes all of it. -/
def TakenWhole (m : Matcher) (front part after : List Char) : Prop :=
  taken m none 0 front (part ++ after) = 0 ∨ part.length ≤ taken m none 0 front (part ++ after)

instance (m : Matcher) (front part after : List Char) : Decidable (TakenWhole m front part after) :=
  inferInstanceAs (Decidable (_ ∨ _))

/-- The part is taken in both texts or in none, and what is emitted for the front is the same. -/
theorem taken_alike (ends : EndsInRun m p) (across : RunsOver m p key) (key_ne : key ≠ [])
    {front more value value' after : List Char} (stop : ∀ c ∈ after.head?, p c = false)
    (whole : TakenWhole m front (key ++ more ++ value) after)
    (whole' : TakenWhole m front (key ++ more ++ value') after) :
    emitted m none 0 front (key ++ more ++ value ++ after) = emitted m none 0 front (key ++ more ++ value' ++ after) ∧
      (taken m none 0 front (key ++ more ++ value ++ after) = 0 ∧
          taken m none 0 front (key ++ more ++ value' ++ after) = 0 ∨
        taken m none 0 front (key ++ more ++ value ++ after) = (key ++ more ++ value).length ∧
          taken m none 0 front (key ++ more ++ value' ++ after) = (key ++ more ++ value').length) := by
  have positive : 0 < key.length := List.length_pos_iff.mpr key_ne
  have bound : ∀ value, taken m none 0 front (key ++ more ++ value ++ after) ≤ (key ++ more ++ value).length := by
    intro value
    refine taken_le (fun before front replacement n some_of hit => ?_) none front 0 (Nat.zero_le _)
    rw [List.append_assoc key more value] at hit ⊢
    exact across.le stop some_of hit
  obtain ⟨emits, takes⟩ := emitted_eq ends.isLocal (across.solid key_ne more) (value ++ after) (value' ++ after) none front
    0 0 (.inl rfl)
  simp only [← List.append_assoc] at emits takes
  refine ⟨emits, ?_⟩
  have first := bound value
  have second := bound value'
  simp only [TakenWhole, List.length_append] at whole whole' first second takes ⊢
  omega

/-- A matcher that has not reached into the part goes on behind the same character. -/
theorem lastOf_front (across : RunsOver m p key) (begins : ∀ c ∈ key.head?, p c = true) (key_ne : key ≠ [])
    {front tail : List Char} (free : taken m none 0 front (key ++ tail) = 0) :
    lastOf none (emitted m none 0 front (key ++ tail)) = lastOf none front := by
  by_cases some_of : front = []
  · subst some_of
    rfl
  · exact lastOf_emitted (fun before front replacement n some_of hit => across.apart begins key_ne some_of hit) none none
      front 0 (List.length_pos_iff.mpr some_of) free

end PyText
