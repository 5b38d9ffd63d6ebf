import WorkerPool.Naming
import WorkerPool.Lib.Subst

/-!
# What the redaction hides

The two passes of `sanitize` over a text with a secret in it. A match of either pattern that begins in front of the
secret's keyword may take the keyword and leave the secret.
-/

namespace WorkerPool

open PyText

/-! ### Letters of the patterns -/

def bearerWord : List Char := "bearer".toList

def patternWords : List (List Char) := bearerWord :: secretWords

/-- The characters that a letter of a pattern may stand for. -/
def variants (letter : Char) : List Char :=
  [letter, letter.toUpper, Char.ofNat 0x130, Char.ofNat 0x131, Char.ofNat 0x17F, Char.ofNat 0x212A]

theorem mem_variants {letter c : Char} (same : sameLetter letter c = true) : c ∈ variants letter := by
  have code : ∀ n : Nat, c.toNat = n → c = Char.ofNat n := by
    rintro n rfl
    exact (Char.ofNat_toNat c).symm
  simp only [sameLetter, Bool.or_eq_true, Bool.and_eq_true, beq_iff_eq] at same
  simp only [variants, List.mem_cons, List.not_mem_nil, or_false]
  rcases same with (((rfl | rfl) | ⟨-, number | number⟩) | ⟨-, number⟩) | ⟨-, number⟩
  · exact .inl rfl
  · exact .inr (.inl rfl)
  · exact .inr (.inr (.inl (code _ number)))
  · exact .inr (.inr (.inr (.inl (code _ number))))
  · exact .inr (.inr (.inr (.inr (.inl (code _ number)))))
  · exact .inr (.inr (.inr (.inr (.inr (code _ number)))))

/-- `[^\s,;]`. -/
def isValueChar (c : Char) : Bool := !isSpace c && c != ',' && c != ';'

/-- A character that stands for a letter of a pattern. -/
def IsLetter (c : Char) : Prop := ∃ word ∈ patternWords, ∃ l ∈ word, sameLetter l c = true

theorem IsLetter.kinds {c : Char} (h : IsLetter c) :
    isSpace c = false ∧ c ≠ ':' ∧ c ≠ '=' ∧ isTokenChar c = true ∧ isValueChar c = true := by
  obtain ⟨word, mem, l, inside, same⟩ := h
  have all : (patternWords.all fun word => word.all fun l => (variants l).all fun c => decide (isSpace c = false ∧
      c ≠ ':' ∧ c ≠ '=' ∧ isTokenChar c = true ∧ isValueChar c = true)) = true := by decide +kernel
  have letters := List.all_eq_true.mp (List.all_eq_true.mp all word mem) l inside
  exact of_decide_eq_true (List.all_eq_true.mp letters c (mem_variants same))

/-- The letter of a pattern that a character can stand for. -/
def letterOf (c : Char) : Char :=
  if c.toNat = 0x130 ∨ c.toNat = 0x131 then 'i' else if c.toNat = 0x17F then 's'
  else if c.toNat = 0x212A then 'k' else c.toLower

theorem letterOf_eq {word : List Char} (mem : word ∈ patternWords) {l c : Char} (inside : l ∈ word)
    (same : sameLetter l c = true) : letterOf c = l := by
  have all : (patternWords.all fun word => word.all fun l => (variants l).all fun c =>
      decide (sameLetter l c = true → letterOf c = l)) = true := by decide +kernel
  have letters := List.all_eq_true.mp (List.all_eq_true.mp all word mem) l inside
  exact of_decide_eq_true (List.all_eq_true.mp letters c (mem_variants same)) same

/-- A character stands for one letter only. -/
theorem letter_unique {v w : List Char} (hv : v ∈ patternWords) (hw : w ∈ patternWords) {a b c : Char} (ha : a ∈ v)
    (hb : b ∈ w) (first : sameLetter a c = true) (second : sameLetter b c = true) : a = b :=
  (letterOf_eq hv ha first).symm.trans (letterOf_eq hw hb second)

/-- The text spells the word, in either case. -/
def Spells (word text : List Char) : Prop := List.Forall₂ (fun l c => sameLetter l c = true) word text

theorem literal_eq_some {word text : List Char} {n : Nat} : literal word text = some n ↔
    ∃ front back, text = front ++ back ∧ Spells word front ∧ n = front.length := by
  induction word generalizing text n with
  | nil =>
    rw [literal, Option.some_inj]
    constructor
    · rintro rfl
      exact ⟨[], text, rfl, .nil, rfl⟩
    · rintro ⟨front, back, rfl, spelled, rfl⟩
      cases spelled
      rfl
  | cons l word ih =>
    cases text with
    | nil =>
      refine ⟨nofun, ?_⟩
      rintro ⟨front, back, eq, spelled, -⟩
      obtain ⟨rfl, -⟩ := List.append_eq_nil_iff.mp eq.symm
      cases spelled
    | cons c text =>
      rw [literal]
      constructor
      · intro h
        split at h
        · rename_i same
          obtain ⟨k, later, rfl⟩ := Option.map_eq_some_iff.mp h
          obtain ⟨front, back, rfl, spelled, rfl⟩ := ih.mp later
          exact ⟨c :: front, back, rfl, .cons same spelled, rfl⟩
        · cases h
      · rintro ⟨_, back, eq, spelled, rfl⟩
        obtain ⟨d, front, same, later, rfl⟩ := List.forall₂_cons_left_iff.mp spelled
        obtain ⟨rfl, rfl⟩ := List.cons.inj eq
        have rest : literal word (front ++ back) = some front.length := ih.mpr ⟨front, back, rfl, later, rfl⟩
        rw [if_pos same]
        exact congrArg (Option.map (· + 1)) rest

theorem Spells.letters {word text : List Char} (mem : word ∈ patternWords) (h : Spells word text) :
    ∀ c ∈ text, IsLetter c := by
  intro c inside
  obtain ⟨i, lt, rfl⟩ := List.getElem_of_mem inside
  have within : i < word.length := h.length_eq ▸ lt
  exact ⟨word, mem, word[i], List.getElem_mem within, h.get within lt⟩

/-- What is spelled by letters of two words is one word. -/
theorem spells_unique {v w : List Char} (hv : v ∈ patternWords) (hw : w ∈ patternWords) {x y text : List Char}
    (inside : x ⊆ v) (inside' : y ⊆ w) (first : Spells x text) (second : Spells y text) : x = y := by
  induction first generalizing y with
  | nil =>
    cases second
    rfl
  | @cons a c x text same _ ih =>
    obtain ⟨b, y, same', later, rfl⟩ := List.forall₂_cons_right_iff.mp second
    rw [List.cons_subset] at inside inside'
    rw [letter_unique hv hw inside.1 inside'.1 same same', ih inside.2 inside'.2 later]

theorem Spells.split {word front back : List Char} (h : Spells word (front ++ back)) :
    ∃ x y, word = x ++ y ∧ Spells x front ∧ Spells y back := by
  exact ⟨_, _, (List.take_append_drop front.length word).symm, List.forall₂_take_append _ _ _ h,
    List.forall₂_drop_append _ _ _ h⟩

/-- A word that begins in front of another ends in front of it, or ends inside it; `bearer` does not end inside. -/
theorem Spells.straddle {v w front key tail rest text : List Char} (hv : v ∈ patternWords) (hw : w ∈ patternWords)
    (some_of : front ≠ []) (eq : front ++ (key ++ rest) = text ++ tail) (earlier : Spells v text)
    (later : Spells w key) :
    (∃ gap, front = text ++ gap ∧ tail = gap ++ (key ++ rest)) ∨
      v ≠ bearerWord ∧ ∃ c more, tail = c :: more ∧ IsLetter c := by
  have apart : ∀ v ∈ patternWords, ∀ w ∈ patternWords, ∀ k ∈ List.range v.length, 0 < k →
      ¬ w <+: v.drop k ∧ (v.drop k <+: w → v ≠ bearerWord) := by decide +kernel
  rcases List.append_eq_append_iff.mp eq with ⟨a, rfl, behind⟩ | ⟨gap, rfl, rfl⟩
  · obtain ⟨x, y, rfl, spelled, across⟩ := earlier.split
    by_cases none_over : y = []
    · subst none_over
      cases across
      exact .inl ⟨[], by rw [List.append_nil, List.append_nil], behind.symm⟩
    have positive : 0 < x.length := by
      rw [spelled.length_eq]
      exact List.length_pos_iff.mpr some_of
    have within : x.length ∈ List.range (x ++ y).length := by
      have := List.length_pos_iff.mpr none_over
      rw [List.mem_range, List.length_append]
      omega
    obtain ⟨no_whole, no_bearer⟩ := apart (x ++ y) hv w hw x.length within positive
    rw [List.drop_left] at no_whole no_bearer
    have inside : y ⊆ x ++ y := List.subset_append_right x y
    rcases List.append_eq_append_iff.mp behind with ⟨b, rfl, rfl⟩ | ⟨c, rfl, rfl⟩
    · obtain ⟨z, z', rfl, whole, -⟩ := across.split
      obtain rfl := spells_unique hv hw (List.Subset.trans (List.subset_append_left z z') inside) (List.Subset.refl w) whole later
      exact absurd (List.prefix_append z z') no_whole
    · obtain ⟨z, z', rfl, begun, more⟩ := later.split
      obtain rfl := spells_unique hv hw inside (List.subset_append_left z z') across begun
      refine .inr ⟨no_bearer (List.prefix_append y z'), ?_⟩
      cases more with
      | nil => simp at no_whole
      | @cons l d z' c same _ => exact ⟨d, _, rfl, _, hw, l, by simp, same⟩
  · exact .inl ⟨gap, rfl, rfl⟩

/-! ### The two matchers -/

variable {rt : Runtime} {before : Option Char} {s replacement : List Char} {n : Nat}

/-- The parts of a match of `BEARER`. -/
structure BearerParts (s word gap token rest : List Char) : Prop where
  text : s = word ++ (gap ++ (token ++ rest))
  word : Spells bearerWord word
  gap_ne : gap ≠ []
  gap : ∀ c ∈ gap, isSpace c = true
  token_ne : token ≠ []
  token : ∀ c ∈ token, isTokenChar c = true
  stop : ∀ c ∈ rest.head?, isTokenChar c = false

theorem space_not_token {c : Char} (space : isSpace c = true) : isTokenChar c = false := by
  have le : ∀ a b : Char, a ≤ b ↔ a.toNat ≤ b.toNat := fun _ _ => Iff.rfl
  have same : ∀ a b : Char, a = b ↔ a.toNat = b.toNat := fun _ _ => Char.toNat_inj.symm
  simp only [isSpace, Bool.or_eq_true, Bool.and_eq_true, beq_iff_eq, decide_eq_true_eq] at space
  by_contra token
  simp only [Bool.not_eq_false, isTokenChar, isCaselessAlnum, isAsciiAlnum, Bool.or_eq_true, Bool.and_eq_true, le,
    beq_iff_eq, decide_eq_true_eq, same, Char.reduceToNat] at token
  omega

theorem matchBearer_eq_some : matchBearer rt before s = some (replacement, n) ↔
    atWordStart rt.isAlnum before = true ∧ replacement = redactedBearer ∧ ∃ word gap token rest,
      BearerParts s word gap token rest ∧ n = word.length + gap.length + token.length := by
  constructor
  · intro h
    rw [matchBearer] at h
    split at h
    · rename_i begins
      obtain ⟨k, read, h⟩ := Option.bind_eq_some_iff.mp h
      obtain ⟨word, back, rfl, spelled, rfl⟩ := literal_eq_some.mp read
      rw [List.drop_left] at h
      obtain ⟨gap, after, rfl, blank, stop, length⟩ := spanLength_parts isSpace back
      dsimp only at h
      rw [length, List.drop_length_add_append, List.drop_left] at h
      obtain ⟨token, rest, rfl, run, end_, length'⟩ := spanLength_parts isTokenChar after
      rw [length'] at h
      split at h
      · rename_i both
        cases h
        exact ⟨begins, rfl, word, gap, token, rest, ⟨rfl, spelled, List.length_pos_iff.mp both.1, blank,
          List.length_pos_iff.mp both.2, run, end_⟩, rfl⟩
      · cases h
    · cases h
  · rintro ⟨begins, rfl, word, gap, token, rest, parts, rfl⟩
    obtain ⟨rfl, spelled, gap_ne, blank, token_ne, run, stop⟩ := parts
    have read : literal bearerWord (word ++ (gap ++ (token ++ rest))) = some word.length :=
      literal_eq_some.mpr ⟨word, _, rfl, spelled, rfl⟩
    have stop' : ∀ c ∈ (token ++ rest).head?, isSpace c = false := by
      intro c mem
      obtain ⟨d, token, rfl⟩ := List.exists_cons_of_ne_nil token_ne
      cases mem
      by_contra space
      have := space_not_token (eq_true_of_ne_false space)
      rw [run _ List.mem_cons_self] at this
      cases this
    rw [matchBearer, if_pos begins]
    refine Option.bind_eq_some_iff.mpr ⟨_, read, ?_⟩
    dsimp only
    rw [List.drop_left, spanLength_append blank stop', List.drop_length_add_append, List.drop_left,
      spanLength_append run stop, if_pos ⟨List.length_pos_iff.mpr gap_ne, List.length_pos_iff.mpr token_ne⟩]

/-- The parts of a match of `SECRET`. -/
structure SecretParts (s key gap : List Char) (sign : Char) (space value rest : List Char) : Prop where
  text : s = key ++ (gap ++ sign :: (space ++ (value ++ rest)))
  key : ∃ word ∈ secretWords, Spells word key
  gap : ∀ c ∈ gap, isSpace c = true
  sign : sign = ':' ∨ sign = '='
  space : ∀ c ∈ space, isSpace c = true
  value_ne : value ≠ []
  value : ∀ c ∈ value, isValueChar c = true
  stop : ∀ c ∈ rest.head?, isValueChar c = false

/-- Of the keywords one at most begins a text. -/
theorem findSome_literal {key rest word : List Char} (mem : word ∈ secretWords) (spelled : Spells word key) :
    (secretWords.findSome? fun w => literal w (key ++ rest)) = some key.length := by
  have apart : ∀ v ∈ secretWords, ∀ w ∈ secretWords, v <+: w → v = w := by decide
  have here : literal word (key ++ rest) = some key.length := literal_eq_some.mpr ⟨key, rest, rfl, spelled, rfl⟩
  cases found : secretWords.findSome? fun w => literal w (key ++ rest) with
  | none => exact absurd here (by rw [List.findSome?_eq_none_iff.mp found word mem]; exact nofun)
  | some n =>
    obtain ⟨v, held, read⟩ := List.exists_of_findSome?_eq_some found
    obtain ⟨front, back, eq, spelled', rfl⟩ := literal_eq_some.mp read
    have hv : v ∈ patternWords := List.mem_cons_of_mem _ held
    have hw : word ∈ patternWords := List.mem_cons_of_mem _ mem
    rcases List.append_eq_append_iff.mp eq with ⟨more, rfl, -⟩ | ⟨more, rfl, -⟩
    · obtain ⟨x, y, rfl, first, -⟩ := spelled'.split
      obtain rfl := spells_unique hv hw (List.subset_append_left x y) (List.Subset.refl _) first spelled
      rw [← spelled'.length_eq, ← spelled.length_eq, ← apart x mem (x ++ y) held (List.prefix_append x y)]
    · obtain ⟨x, y, rfl, first, -⟩ := spelled.split
      obtain rfl := spells_unique hv hw (List.Subset.refl _) (List.subset_append_left x y) spelled' first
      rw [← spelled'.length_eq, ← spelled.length_eq, ← apart v held (v ++ y) mem (List.prefix_append v y)]

theorem drop_sign (key gap : List Char) (sign : Char) (tail : List Char) :
    (key ++ (gap ++ sign :: tail)).drop (key.length + gap.length + 1) = tail := by
  have parts : key ++ (gap ++ sign :: tail) = (key ++ (gap ++ [sign])) ++ tail := by simp
  rw [parts]
  exact List.drop_left' (by simp only [List.length_append, List.length_singleton]; omega)

theorem drop_space (key gap : List Char) (sign : Char) (space tail : List Char) :
    (key ++ (gap ++ sign :: (space ++ tail))).drop (key.length + gap.length + 1 + space.length) = tail := by
  rw [← List.drop_drop, drop_sign, List.drop_left]

theorem matchSecret_eq_some : matchSecret rt before s = some (replacement, n) ↔
    atWordStart rt.isAlnum before = true ∧ ∃ key gap sign space value rest,
      SecretParts s key gap sign space value rest ∧ replacement = key ++ "=[REDACTED]".toList ∧
      n = key.length + gap.length + 1 + space.length + value.length := by
  constructor
  · intro h
    rw [matchSecret] at h
    split at h
    · rename_i begins
      obtain ⟨k, read, h⟩ := Option.bind_eq_some_iff.mp h
      obtain ⟨word, mem, read⟩ := List.exists_of_findSome?_eq_some read
      obtain ⟨key, back, rfl, spelled, rfl⟩ := literal_eq_some.mp read
      rw [List.drop_left] at h
      obtain ⟨gap, after, rfl, blank, -, length⟩ := spanLength_parts isSpace back
      dsimp only at h
      rw [length, List.drop_length_add_append, List.drop_left] at h
      obtain ⟨sign, head, h⟩ := Option.bind_eq_some_iff.mp h
      obtain ⟨tail, rfl⟩ := List.head?_eq_some_iff.mp head
      rw [drop_sign] at h
      obtain ⟨space, back, rfl, blank', -, length'⟩ := spanLength_parts isSpace tail
      rw [length', drop_space] at h
      obtain ⟨value, rest, rfl, run, stop, length''⟩ := spanLength_parts isValueChar back
      have found : spanLength (fun c => !isSpace c && c != ',' && c != ';') (value ++ rest) = value.length := length''
      rw [found] at h
      split at h
      · rename_i both
        rw [List.take_left] at h
        cases h
        exact ⟨begins, key, gap, sign, space, value, rest, ⟨rfl, ⟨word, mem, spelled⟩, blank, both.1, blank',
          List.length_pos_iff.mp both.2, run, stop⟩, rfl, rfl⟩
      · cases h
    · cases h
  · rintro ⟨begins, key, gap, sign, space, value, rest, parts, rfl, rfl⟩
    obtain ⟨rfl, ⟨word, mem, spelled⟩, blank, signed, blank', value_ne, run, stop⟩ := parts
    have read : (secretWords.findSome? fun w => literal w (key ++ (gap ++ sign :: (space ++ (value ++ rest))))) =
        some key.length := findSome_literal mem spelled
    have not_space : isSpace sign = false := by
      rcases signed with rfl | rfl <;> decide
    have stop' : ∀ c ∈ (sign :: (space ++ (value ++ rest))).head?, isSpace c = false := by
      rintro c ⟨⟩
      exact not_space
    have stop'' : ∀ c ∈ (value ++ rest).head?, isSpace c = false := by
      intro c mem
      obtain ⟨d, value, rfl⟩ := List.exists_cons_of_ne_nil value_ne
      cases mem
      have kept := run _ List.mem_cons_self
      simp only [isValueChar, Bool.and_eq_true, Bool.not_eq_true'] at kept
      exact kept.1.1
    have found : spanLength (fun c => !isSpace c && c != ',' && c != ';') (value ++ rest) = value.length :=
      spanLength_append run stop
    rw [matchSecret, if_pos begins]
    refine Option.bind_eq_some_iff.mpr ⟨_, read, ?_⟩
    dsimp only
    rw [List.drop_left, spanLength_append blank stop', List.drop_length_add_append, List.drop_left]
    refine Option.bind_eq_some_iff.mpr ⟨sign, rfl, ?_⟩
    rw [drop_sign, spanLength_append blank' stop'', drop_space, found,
      if_pos ⟨signed, List.length_pos_iff.mpr value_ne⟩, List.take_left]

theorem BearerParts.found {word gap token rest : List Char} (parts : BearerParts s word gap token rest)
    (begins : atWordStart rt.isAlnum before = true) : Found (matchBearer rt) isTokenChar before s redactedBearer
      (word.length + gap.length + token.length) (word ++ gap) token rest where
  text := by rw [parts.text, List.append_assoc]
  nonempty := parts.token_ne
  all := parts.token
  stop := parts.stop
  length := by rw [List.length_append]
  again run rest nonempty all stop := matchBearer_eq_some.mpr ⟨begins, rfl, word, gap, run, rest,
    ⟨by rw [List.append_assoc], parts.word, parts.gap_ne, parts.gap, nonempty, all, stop⟩, by rw [List.length_append]⟩

theorem SecretParts.found {key gap space value rest : List Char} {sign : Char}
    (parts : SecretParts s key gap sign space value rest) (begins : atWordStart rt.isAlnum before = true) :
    Found (matchSecret rt) isValueChar before s (key ++ "=[REDACTED]".toList)
      (key.length + gap.length + 1 + space.length + value.length) (key ++ (gap ++ sign :: space)) value rest where
  text := by rw [parts.text]; simp
  nonempty := parts.value_ne
  all := parts.value
  stop := parts.stop
  length := by simp only [List.length_append, List.length_cons]; omega
  again run rest nonempty all stop := matchSecret_eq_some.mpr ⟨begins, key, gap, sign, space, run, rest,
    ⟨by simp, parts.key, parts.gap, parts.sign, parts.space, nonempty, all, stop⟩, rfl,
    by simp only [List.length_append, List.length_cons]; omega⟩

theorem bearer_endsInRun : EndsInRun (matchBearer rt) isTokenChar := by
  intro before s replacement n hit
  obtain ⟨begins, rfl, word, gap, token, rest, parts, rfl⟩ := matchBearer_eq_some.mp hit
  exact ⟨_, _, _, parts.found begins⟩

theorem secret_endsInRun : EndsInRun (matchSecret rt) isValueChar := by
  intro before s replacement n hit
  obtain ⟨begins, key, gap, sign, space, value, rest, parts, rfl, rfl⟩ := matchSecret_eq_some.mp hit
  exact ⟨_, _, _, parts.found begins⟩

theorem bearer_runsOver {w key : List Char} (hw : w ∈ patternWords) (spelled : Spells w key) (nonempty : key ≠ []) :
    RunsOver (matchBearer rt) isTokenChar key := by
  intro before text tail replacement n some_of hit
  obtain ⟨begins, rfl, word, gap, token, rest, parts, rfl⟩ := matchBearer_eq_some.mp hit
  obtain ⟨c, key, rfl⟩ := List.exists_cons_of_ne_nil nonempty
  have kinds := (spelled.letters hw c List.mem_cons_self).kinds
  rcases Spells.straddle List.mem_cons_self hw some_of parts.text parts.word spelled with
    ⟨behind, rfl, eq⟩ | ⟨other, -⟩
  · obtain ⟨between, rfl, eq'⟩ := run_in_front eq.symm parts.gap kinds.1
    exact ⟨word ++ gap, between, token, rest, by rw [List.append_assoc], eq', parts.found begins⟩
  · exact absurd rfl other

theorem secret_runsOver {w key : List Char} (hw : w ∈ patternWords) (spelled : Spells w key) (nonempty : key ≠ []) :
    RunsOver (matchSecret rt) isValueChar key := by
  intro before text tail replacement n some_of hit
  obtain ⟨begins, word, gap, sign, space, value, rest, parts, rfl, rfl⟩ := matchSecret_eq_some.mp hit
  obtain ⟨v, mem, earlier⟩ := parts.key
  obtain ⟨c, key, rfl⟩ := List.exists_cons_of_ne_nil nonempty
  have kinds := (spelled.letters hw c List.mem_cons_self).kinds
  have signed : ∀ d, sign = d → IsLetter d → False := by
    rintro d rfl letter
    have := letter.kinds
    rcases parts.sign with rfl | rfl
    · exact this.2.1 rfl
    · exact this.2.2.1 rfl
  rcases Spells.straddle (List.mem_cons_of_mem _ mem) hw some_of parts.text earlier spelled with
    ⟨behind, rfl, eq⟩ | ⟨-, d, more, eq, letter⟩
  · obtain ⟨between, rfl, eq'⟩ := run_in_front eq.symm parts.gap kinds.1
    cases between with
    | nil =>
      obtain ⟨eq, -⟩ := List.cons.inj eq'
      exact absurd (spelled.letters hw c List.mem_cons_self) (signed c eq)
    | cons d between =>
      obtain ⟨same, behind⟩ := List.cons.inj eq'
      subst same
      obtain ⟨between, rfl, eq''⟩ := run_in_front behind.symm parts.space kinds.1
      exact ⟨word ++ (gap ++ sign :: space), between, value, rest, by simp, eq'', parts.found begins⟩
  · exfalso
    cases gap with
    | nil =>
      obtain ⟨eq, -⟩ := List.cons.inj eq
      exact signed d eq letter
    | cons e gap =>
      obtain ⟨rfl, -⟩ := List.cons.inj eq
      have blank := parts.gap e List.mem_cons_self
      rw [letter.kinds.1] at blank
      cases blank

/-! ### A second pass -/

theorem Spells.cons_of_ne_nil {word text : List Char} (spelled : Spells word text) (some_of : word ≠ []) :
    ∃ c tail, text = c :: tail := by
  cases spelled with
  | nil => exact absurd rfl some_of
  | cons _ _ => exact ⟨_, _, rfl⟩

theorem patternWords_ne_nil {word : List Char} (mem : word ∈ patternWords) : word ≠ [] := by
  have all : (patternWords.all fun word => decide (word ≠ [])) = true := by decide
  exact of_decide_eq_true (List.all_eq_true.mp all word mem)

/-- A match begins with a letter. -/
theorem begins_with_letter {word front back : List Char} (mem : word ∈ patternWords) (spelled : Spells word front)
    {c : Char} {tail : List Char} (text : c :: tail = front ++ back) : IsLetter c := by
  obtain ⟨d, more, rfl⟩ := spelled.cons_of_ne_nil (patternWords_ne_nil mem)
  obtain ⟨rfl, -⟩ := List.cons.inj text
  exact spelled.letters mem _ List.mem_cons_self

theorem matchBearer_not_letter {c : Char} (other : ¬ IsLetter c) (before : Option Char) (tail : List Char) :
    matchBearer rt before (c :: tail) = none := by
  by_contra found
  obtain ⟨⟨replacement, n⟩, hit⟩ := Option.ne_none_iff_exists'.mp found
  obtain ⟨-, -, word, gap, token, rest, parts, -⟩ := matchBearer_eq_some.mp hit
  exact other (begins_with_letter List.mem_cons_self parts.word parts.text)

theorem matchSecret_not_letter {c : Char} (other : ¬ IsLetter c) (before : Option Char) (tail : List Char) :
    matchSecret rt before (c :: tail) = none := by
  by_contra found
  obtain ⟨⟨replacement, n⟩, hit⟩ := Option.ne_none_iff_exists'.mp found
  obtain ⟨-, key, gap, sign, space, value, rest, parts, -, -⟩ := matchSecret_eq_some.mp hit
  obtain ⟨word, mem, spelled⟩ := parts.key
  exact other (begins_with_letter (List.mem_cons_of_mem _ mem) spelled parts.text)

/-- `BEARER` is not found in front of what is not its first letter. -/
theorem matchBearer_not_first {c : Char} (other : sameLetter 'b' c = false) (before : Option Char) (tail : List Char) :
    matchBearer rt before (c :: tail) = none := by
  by_contra found
  obtain ⟨⟨replacement, n⟩, hit⟩ := Option.ne_none_iff_exists'.mp found
  obtain ⟨-, -, word, gap, token, rest, parts, -⟩ := matchBearer_eq_some.mp hit
  obtain ⟨text, spelled, -⟩ := parts
  obtain ⟨d, more, same, -, rfl⟩ := List.forall₂_cons_left_iff.mp spelled
  obtain ⟨rfl, -⟩ := List.cons.inj text
  have first : sameLetter 'b' c = true := same
  rw [other] at first
  cases first

theorem quiet_of_not_first {text : List Char} (others : ∀ c ∈ text, sameLetter 'b' c = false) (before : Option Char)
    (rest : List Char) : Quiet (matchBearer rt) before text rest := by
  induction text generalizing before with
  | nil => trivial
  | cons c text ih =>
    exact ⟨matchBearer_not_first (others c List.mem_cons_self) before _,
      ih (fun d mem => others d (List.mem_cons_of_mem _ mem)) (some c)⟩

/-- The mark of `BEARER` is left by `BEARER`: no token follows its word. -/
theorem redactedBearer_quiet (before : Option Char) (rest : List Char) :
    Quiet (matchBearer rt) before redactedBearer rest := by
  have tail : ∀ c ∈ "earer [REDACTED]".toList, sameLetter 'b' c = false :=
    fun c mem => by simpa using List.all_eq_true.mp (by decide : ("earer [REDACTED]".toList.all
      fun c => !sameLetter 'b' c) = true) c mem
  refine ⟨?_, quiet_of_not_first tail (some 'B') rest⟩
  by_contra found
  obtain ⟨⟨replacement, n⟩, hit⟩ := Option.ne_none_iff_exists'.mp found
  rw [matchBearer] at hit
  split at hit
  · cases hit
  · cases hit

/-- A keyword holds no first letter of `BEARER`. -/
theorem key_not_first {word key : List Char} (mem : word ∈ secretWords) (spelled : Spells word key) :
    ∀ c ∈ key, sameLetter 'b' c = false := by
  intro c inside
  by_contra first
  obtain ⟨i, lt, rfl⟩ := List.getElem_of_mem inside
  have within : i < word.length := spelled.length_eq ▸ lt
  have same : sameLetter word[i] key[i] = true := spelled.get within lt
  have letter := letter_unique List.mem_cons_self (List.mem_cons_of_mem _ mem) (List.mem_cons_self (a := 'b'))
    (List.getElem_mem within) (eq_true_of_ne_false first) same
  have none_of : (secretWords.all fun word => word.all fun l => decide ('b' ≠ l)) = true := by decide
  exact of_decide_eq_true (List.all_eq_true.mp (List.all_eq_true.mp none_of word mem) _ (List.getElem_mem within)) letter

/-- The mark of `SECRET` is left by `BEARER`. -/
theorem redactedSecret_quiet {word key : List Char} (mem : word ∈ secretWords) (spelled : Spells word key)
    (before : Option Char) (rest : List Char) :
    Quiet (matchBearer rt) before (key ++ "=[REDACTED]".toList) rest := by
  refine quiet_of_not_first (fun c inside => ?_) before rest
  rcases List.mem_append.mp inside with inside | inside
  · exact key_not_first mem spelled c inside
  · simpa using List.all_eq_true.mp (by decide : ("=[REDACTED]".toList.all
      fun c => !sameLetter 'b' c) = true) c inside

theorem bearer_cuts : Cuts (matchBearer rt) (matchBearer rt) isTokenChar := by
  intro before text replacement n hit
  obtain ⟨-, rfl, word, gap, token, rest, parts, rfl⟩ := matchBearer_eq_some.mp hit
  obtain ⟨c, more, rfl⟩ := parts.word.cons_of_ne_nil (by decide)
  refine ⟨c :: more ++ (gap ++ token), rest, ?_⟩
  exact {
    text := by rw [parts.text]; simp
    length := by simp only [List.length_append]; omega
    begins := ⟨c, more ++ (gap ++ token), rfl, (parts.word.letters List.mem_cons_self c List.mem_cons_self).kinds.2.2.2.1⟩
    mark := ⟨'B', "earer".toList, " [REDACTED]".toList, rfl, by decide,
      bearer_runsOver (w := bearerWord) List.mem_cons_self (by simp [Spells, bearerWord]; decide) (List.cons_ne_nil _ _)⟩
    stop := parts.stop
    behind := by
      rintro d tail rfl before tail'
      have other : ¬ IsLetter d := fun letter => by
        have kept := letter.kinds.2.2.2.1
        rw [parts.stop d rfl] at kept
        cases kept
      exact ⟨matchBearer_not_letter other before tail', matchBearer_not_letter other before tail'⟩ }

/-- A match of `SECRET` is a cut for a matcher whose matches run over the keywords in a narrower class. -/
theorem secret_cuts {m' : Matcher} {p : Char → Bool} (letters : ∀ c, IsLetter c → p c = true)
    (narrower : ∀ c, isValueChar c = false → p c = false)
    (across : ∀ {w key}, w ∈ patternWords → Spells w key → key ≠ [] → RunsOver m' p key)
    (others : ∀ c, ¬ IsLetter c → ∀ before tail, m' before (c :: tail) = none) : Cuts (matchSecret rt) m' p := by
  intro before text replacement n hit
  obtain ⟨-, key, gap, sign, space, value, rest, parts, rfl, rfl⟩ := matchSecret_eq_some.mp hit
  obtain ⟨word, mem, spelled⟩ := parts.key
  have mem' : word ∈ patternWords := List.mem_cons_of_mem _ mem
  have across' := across mem' spelled
  obtain ⟨c, more, rfl⟩ := spelled.cons_of_ne_nil (patternWords_ne_nil mem')
  have letter := spelled.letters mem' c List.mem_cons_self
  refine ⟨c :: more ++ (gap ++ sign :: (space ++ value)), rest, ?_⟩
  exact {
    text := by rw [parts.text]; simp
    length := by simp only [List.length_append, List.length_cons]; omega
    begins := ⟨c, _, rfl, letters c letter⟩
    mark := ⟨c, more, _, rfl, letters c letter, across' (List.cons_ne_nil _ _)⟩
    stop := fun d mem => narrower d (parts.stop d mem)
    behind := by
      rintro d tail rfl before tail'
      have other : ¬ IsLetter d := fun letter => by
        have kept := letter.kinds.2.2.2.2
        rw [parts.stop d rfl] at kept
        cases kept
      exact ⟨matchSecret_not_letter other before tail', others d other before tail'⟩ }

theorem not_token_of_not_value {c : Char} (h : isValueChar c = false) : isTokenChar c = false := by
  simp only [isValueChar, Bool.and_eq_false_iff, Bool.not_eq_false', bne_eq_false_iff_eq] at h
  rcases h with (space | rfl) | rfl
  · exact space_not_token space
  · decide
  · decide

theorem secret_cuts_secret : Cuts (matchSecret rt) (matchSecret rt) isValueChar :=
  secret_cuts (fun _ letter => letter.kinds.2.2.2.2) (fun _ h => h) secret_runsOver
    fun _ other => matchSecret_not_letter other

theorem secret_cuts_bearer : Cuts (matchSecret rt) (matchBearer rt) isTokenChar :=
  secret_cuts (fun _ letter => letter.kinds.2.2.2.1) (fun _ => not_token_of_not_value) bearer_runsOver
    fun _ other => matchBearer_not_letter other

/-- Without a sign that something follows, `SECRET` finds nothing. -/
theorem secret_quiet {text : List Char} (unsigned : ∀ front sign c back, text = front ++ sign :: c :: back →
    sign ≠ ':' ∧ sign ≠ '=') (before : Option Char) : Quiet (matchSecret rt) before text [] := by
  induction text generalizing before with
  | nil => trivial
  | cons c text ih =>
    refine ⟨?_, ih (fun front sign d back eq => unsigned (c :: front) sign d back (by rw [eq]; rfl)) (some c)⟩
    by_contra found
    obtain ⟨⟨replacement, n⟩, hit⟩ := Option.ne_none_iff_exists'.mp found
    obtain ⟨-, key, gap, sign, space, value, rest, parts, -, -⟩ := matchSecret_eq_some.mp hit
    obtain ⟨d, back, follows⟩ : ∃ d back, space ++ (value ++ rest) = d :: back :=
      List.exists_cons_of_ne_nil (by simp [parts.value_ne])
    have eq := parts.text
    rw [follows, List.append_nil] at eq
    have signed := unsigned (key ++ gap) sign d back (by rw [eq]; simp)
    rcases parts.sign with h | h
    · exact signed.1 h
    · exact signed.2 h

theorem secret_lasting : Lasting (matchSecret rt) isValueChar where
  again before text replacement n hit rest stop := by
    obtain ⟨begins, key, gap, sign, space, value, rest', parts, rfl, rfl⟩ := matchSecret_eq_some.mp hit
    refine matchSecret_eq_some.mpr ⟨begins, key, [], '=', [], "[REDACTED]".toList, rest,
      ⟨by simp, parts.key, by simp, .inr rfl, by simp, by decide, List.all_eq_true.mp (by decide), stop⟩, rfl, ?_⟩
    simp
  begun before text replacement n hit k := by
    obtain ⟨begins, key, gap, sign, space, value, rest', parts, rfl, rfl⟩ := matchSecret_eq_some.mp hit
    obtain ⟨word, mem, spelled⟩ := parts.key
    have letters := spelled.letters (List.mem_cons_of_mem _ mem)
    by_cases short : k ≤ key.length + 1
    · have quiet : Quiet (matchSecret rt) before ((key ++ "=[REDACTED]".toList).take k) [] := by
        refine secret_quiet (fun front sign c back eq => ?_) before
        have length := congrArg List.length eq
        have within : front.length < key.length := by
          simp only [List.length_take, List.length_append, List.length_cons] at length
          omega
        have below : front.length < k := by
          simp only [List.length_take, List.length_append, List.length_cons] at length
          omega
        have here : key[front.length] = sign := by
          have at_ := congrArg (·[front.length]?) eq
          simp only [List.getElem?_take, List.getElem?_append_right (Nat.le_refl _), Nat.sub_self,
            List.getElem?_cons_zero] at at_
          rw [if_pos below, List.getElem?_append_left within, List.getElem?_eq_getElem within] at at_
          exact Option.some.inj at_
        have kinds := (letters key[front.length] (List.getElem_mem within)).kinds
        rw [here] at kinds
        exact ⟨kinds.2.1, kinds.2.2.1⟩
      rw [quiet.subst_eq, List.take_take, Nat.min_self]
    · obtain ⟨j, rfl⟩ : ∃ j, k = key.length + (j + 2) := ⟨k - key.length - 2, by omega⟩
      have cut : (key ++ "=[REDACTED]".toList).take (key.length + (j + 2)) =
          key ++ '=' :: "[REDACTED]".toList.take (j + 1) := by
        rw [List.take_length_add_append]
        rfl
      have some_of : "[REDACTED]".toList.take (j + 1) ≠ [] := List.cons_ne_nil _ _
      have all : ∀ c ∈ "[REDACTED]".toList.take (j + 1), isValueChar c = true :=
        fun c inside => List.all_eq_true.mp (by decide) c (List.mem_of_mem_take inside)
      generalize "[REDACTED]".toList.take (j + 1) = value at cut some_of all
      have found : matchSecret rt before (key ++ '=' :: value ++ []) =
          some (key ++ "=[REDACTED]".toList, (key ++ '=' :: value).length) :=
        matchSecret_eq_some.mpr ⟨begins, key, [], '=', [], value, [], ⟨by simp, ⟨word, mem, spelled⟩, by simp, .inr rfl,
          by simp, some_of, all, by simp⟩, rfl, by simp only [List.length_append, List.length_cons, List.length_nil]; omega⟩
      have whole := subst_cut (by simp) found
      rw [List.append_nil, PyText.subst, List.append_nil] at whole
      rw [cut, whole, cut]

/-! ### Redacted texts -/

theorem bearer_quiet (text : List Char) (before : Option Char) :
    Quiet (matchBearer rt) before (subst (matchBearer rt) before 0 text) [] := by
  refine quiet_subst bearer_cuts (fun before text replacement n hit b rest => ?_) text before before
    (leaves_self _ _ _) (.inl rfl)
  obtain ⟨-, rfl, -⟩ := matchBearer_eq_some.mp hit
  exact redactedBearer_quiet b rest

theorem bearer_quiet_secret {text : List Char} {before : Option Char} (quiet : Quiet (matchBearer rt) before text []) :
    Quiet (matchBearer rt) before (subst (matchSecret rt) before 0 text) [] := by
  refine quiet_subst secret_cuts_bearer (fun before text replacement n hit b rest => ?_) text before before
    (quiet.leaves 0) (.inl rfl)
  obtain ⟨-, key, gap, sign, space, value, rest', parts, rfl, -⟩ := matchSecret_eq_some.mp hit
  obtain ⟨word, mem, spelled⟩ := parts.key
  exact redactedSecret_quiet mem spelled b rest

theorem sanitizeChars_again (rt : Runtime) (cs : List Char) :
    sanitizeChars rt (sanitizeChars rt cs) = sanitizeChars rt cs := by
  have once : Quiet (matchBearer rt) none _ [] := bearer_quiet_secret (bearer_quiet cs none)
  have kept := (once.take bearer_endsInRun 1000).subst_eq
  have cuts : Cuts (matchSecret rt) (matchSecret rt) isValueChar := secret_cuts_secret
  have again := subst_again cuts secret_endsInRun secret_lasting
    (subst (matchBearer rt) none 0 cs) none none 1000 (.inl rfl)
  rw [sanitizeChars, sanitizeChars, kept, again]

/-- A redacted text holds nothing more to redact, although the second pass edits what the first one left, and the
truncation may cut a mark. -/
theorem sanitize_sanitize (rt : Runtime) (value : String) : sanitize rt (sanitize rt value) = sanitize rt value := by
  rw [sanitize, sanitize, String.toList_ofList, sanitizeChars_again]

/-- No token follows a word in a text without white space. -/
theorem bearer_quiet_solid {text : List Char} (solid : ∀ c ∈ text, isSpace c = false) (before : Option Char) :
    Quiet (matchBearer rt) before text [] := by
  induction text generalizing before with
  | nil => trivial
  | cons c text ih =>
    refine ⟨?_, ih (fun d mem => solid d (List.mem_cons_of_mem _ mem)) (some c)⟩
    by_contra found
    obtain ⟨⟨replacement, n⟩, hit⟩ := Option.ne_none_iff_exists'.mp found
    obtain ⟨-, -, word, gap, token, rest, parts, -⟩ := matchBearer_eq_some.mp hit
    obtain ⟨g, gap, rfl⟩ := List.exists_cons_of_ne_nil parts.gap_ne
    have inside : g ∈ c :: (text ++ []) := by
      rw [parts.text]
      simp
    rw [List.append_nil] at inside
    have blank := parts.gap g List.mem_cons_self
    rw [solid g inside] at blank
    cases blank

/-- A name of the code's own is left as it is. -/
theorem sanitize_name {name : String} (solid : ∀ c ∈ name.toList, isSpace c = false)
    (unsigned : ∀ c ∈ name.toList, c ≠ ':' ∧ c ≠ '=') (short : name.toList.length ≤ 1000) :
    sanitize rt name = name := by
  have quiet : Quiet (matchSecret rt) none name.toList [] :=
    secret_quiet (fun front sign c back eq => unsigned sign (by rw [eq]; simp)) none
  rw [sanitize, sanitizeChars, (bearer_quiet_solid solid none).subst_eq, quiet.subst_eq, List.take_of_length_le short,
    String.ofList_toList]

/-! ### Two texts that differ in a secret -/

theorem not_letter_of_not_value {c : Char} (h : isValueChar c = false) : ¬ IsLetter c := by
  intro letter
  have kept := letter.kinds.2.2.2.2
  rw [h] at kept
  cases kept

theorem not_letter_of_not_token {c : Char} (h : isTokenChar c = false) : ¬ IsLetter c := by
  intro letter
  have kept := letter.kinds.2.2.2.1
  rw [h] at kept
  cases kept

/-- What does not begin with a letter is redacted alike behind anything. -/
theorem subst_behind {m : Matcher} (others : ∀ c, ¬ IsLetter c → ∀ before tail, m before (c :: tail) = none)
    {after : List Char} (stop : ∀ c ∈ after.head?, ¬ IsLetter c) (before before' : Option Char) :
    subst m before 0 after = subst m before' 0 after := by
  cases after with
  | nil => rfl
  | cons c after =>
    have never := others c (stop c rfl)
    exact subst_before (fun before => never before after) before before'

theorem word_ne_nil {w word : List Char} (mem : w ∈ patternWords) (spelled : Spells w word) : word ≠ [] := by
  obtain ⟨c, tail, rfl⟩ := spelled.cons_of_ne_nil (patternWords_ne_nil mem)
  exact List.cons_ne_nil _ _

/-- A substitution that takes the part in both texts, or redacts it by itself to the same, leaves the same. -/
theorem subst_alike {m : Matcher} {p : Char → Bool} (ends : EndsInRun m p) {w key : List Char} (mem : w ∈ patternWords)
    (spelled : Spells w key) (across : RunsOver m p key)
    (others : ∀ c, ¬ IsLetter c → ∀ before tail, m before (c :: tail) = none) {front more value value' after : List Char}
    (stop : ∀ c ∈ after.head?, p c = false ∧ ¬ IsLetter c)
    (whole : TakenWhole m front (key ++ more ++ value) after) (whole' : TakenWhole m front (key ++ more ++ value') after)
    (alone : taken m none 0 front (key ++ more ++ value ++ after) = 0 →
      subst m (lastOf none front) 0 (key ++ more ++ value ++ after) =
        subst m (lastOf none front) 0 (key ++ more ++ value' ++ after)) :
    subst m none 0 (front ++ (key ++ more ++ value ++ after)) =
      subst m none 0 (front ++ (key ++ more ++ value' ++ after)) := by
  obtain ⟨emits, takes⟩ := taken_alike ends across (word_ne_nil mem spelled) (fun c h => (stop c h).1) whole whole'
  rw [subst_append none 0 front, subst_append none 0 front (key ++ more ++ value' ++ after), emits]
  refine congrArg _ ?_
  rcases takes with ⟨first, second⟩ | ⟨first, second⟩
  · rw [second, first]
    exact alone first
  · rw [first, second, subst_skip _ _ 0 _ (Nat.add_zero _).symm, subst_skip _ _ 0 _ (Nat.add_zero _).symm]
    exact subst_behind others (fun c h => (stop c h).2) _ _

/-- The parts of a bearer token in a text: the word at a word's start, white space, the token and what follows it. -/
structure BearerSecret (rt : Runtime) (front word gap token after : List Char) : Prop where
  start : atWordStart rt.isAlnum (lastOf none front) = true
  parts : BearerParts (word ++ gap ++ token ++ after) word gap token after
  whole : TakenWhole (matchBearer rt) front (word ++ gap ++ token) after

/-- A redacted text tells nothing of a bearer token, unless a match that begins in front of its word takes a part of
it. -/
theorem bearer_hidden {front word gap token token' after : List Char} (secret : BearerSecret rt front word gap token after)
    (secret' : BearerSecret rt front word gap token' after) :
    sanitize rt (String.ofList (front ++ (word ++ gap ++ token ++ after))) =
      sanitize rt (String.ofList (front ++ (word ++ gap ++ token' ++ after))) := by
  have mem : bearerWord ∈ patternWords := List.mem_cons_self
  have spelled := secret.parts.word
  have nonempty := word_ne_nil mem spelled
  have others : ∀ c ∈ after.head?, isTokenChar c = false ∧ ¬ IsLetter c :=
    fun c h => ⟨secret.parts.stop c h, not_letter_of_not_token (secret.parts.stop c h)⟩
  have alone : ∀ token, BearerSecret rt front word gap token after →
      subst (matchBearer rt) (lastOf none front) 0 (word ++ gap ++ token ++ after) =
        redactedBearer ++ subst (matchBearer rt) none 0 after := by
    intro token secret
    have found := matchBearer_eq_some.mpr ⟨secret.start, rfl, word, gap, token, after, secret.parts, rfl⟩
    rw [subst_cut (by simp [nonempty]) (by simpa only [List.length_append] using found)]
    exact congrArg _ (subst_behind (fun _ => matchBearer_not_letter) (fun c h => (others c h).2) _ _)
  have same := subst_alike bearer_endsInRun mem spelled (bearer_runsOver mem spelled nonempty)
    (fun _ => matchBearer_not_letter) others secret.whole secret'.whole
    fun _ => (alone token secret).trans (alone token' secret').symm
  rw [sanitize, sanitize, String.toList_ofList, String.toList_ofList, sanitizeChars, sanitizeChars, same]

theorem token_secret {token : List Char} (mem : token = ['b'] ∨ token = ['d', 'e']) :
    BearerSecret Runtime.ascii "use ".toList "Bearer".toList [' '] token [';'] where
  start := by decide
  parts := {
    text := by simp
    word := by simp [Spells, bearerWord]; decide
    gap_ne := by simp
    gap := by simp; decide
    token_ne := by rcases mem with rfl | rfl <;> simp
    token := by rcases mem with rfl | rfl <;> simp <;> decide
    stop := by simp; decide }
  whole := by rcases mem with rfl | rfl <;> decide

theorem token_hidden :
    sanitize Runtime.ascii (String.ofList ("use ".toList ++ ("Bearer".toList ++ [' '] ++ ['b'] ++ [';']))) =
      sanitize Runtime.ascii (String.ofList ("use ".toList ++ ("Bearer".toList ++ [' '] ++ ['d', 'e'] ++ [';']))) :=
  bearer_hidden (token_secret (.inl rfl)) (token_secret (.inr rfl))

/-- The parts of a secret in a text: a keyword at a word's start, a sign with white space around it, the value and what
follows it. The value does not end in the word of a bearer token, whose token would be what follows it. -/
structure KeywordSecret (rt : Runtime) (front key gap : List Char) (sign : Char) (space value after : List Char) :
    Prop where
  start : atWordStart rt.isAlnum (lastOf none front) = true
  parts : SecretParts (key ++ (gap ++ sign :: space) ++ value ++ after) key gap sign space value after
  other : ∀ x y, value = x ++ y → ¬ Spells bearerWord y
  whole : TakenWhole (matchBearer rt) front (key ++ (gap ++ sign :: space) ++ value) after
  whole' : taken (matchBearer rt) none 0 front (key ++ (gap ++ sign :: space) ++ value ++ after) = 0 →
    TakenWhole (matchSecret rt) (emitted (matchBearer rt) none 0 front (key ++ (gap ++ sign :: space) ++ value ++ after))
      (key ++ (gap ++ sign :: space) ++ value) (subst (matchBearer rt) none 0 after)

theorem not_first_of_not_letter {c : Char} (other : ¬ IsLetter c) : sameLetter 'b' c = false := by
  by_contra first
  exact other ⟨bearerWord, List.mem_cons_self, 'b', by decide, eq_true_of_ne_false first⟩

theorem not_letter_of_space {c : Char} (space : isSpace c = true) : ¬ IsLetter c := by
  intro letter
  have kind := letter.kinds.1
  rw [space] at kind
  cases kind

/-- No bearer token begins in a value that does not end in its word. -/
theorem value_quiet {value after : List Char} (chars : ∀ c ∈ value, isValueChar c = true)
    (stop : ∀ c ∈ after.head?, isValueChar c = false) (other : ∀ x y, value = x ++ y → ¬ Spells bearerWord y)
    (before : Option Char) : Quiet (matchBearer rt) before value after := by
  induction value generalizing before with
  | nil => trivial
  | cons c value ih =>
    refine ⟨?_, ih (fun d mem => chars d (List.mem_cons_of_mem _ mem))
      (fun x y eq => other (c :: x) y (by rw [eq]; rfl)) (some c)⟩
    by_contra found
    obtain ⟨⟨replacement, n⟩, hit⟩ := Option.ne_none_iff_exists'.mp found
    obtain ⟨-, -, word, gap, token, rest, parts, -⟩ := matchBearer_eq_some.mp hit
    obtain ⟨g, gap, rfl⟩ := List.exists_cons_of_ne_nil parts.gap_ne
    have blank := parts.gap g List.mem_cons_self
    have eq : (c :: value) ++ after = word ++ (g :: (gap ++ (token ++ rest))) := parts.text
    rcases List.append_eq_append_iff.mp eq with ⟨more, rfl, behind⟩ | ⟨more, whole, behind⟩
    · cases more with
      | nil =>
        rw [List.append_nil] at parts
        exact other [] (c :: value) rfl parts.word
      | cons d more =>
        refine not_letter_of_not_value (stop d ?_) (parts.word.letters List.mem_cons_self d (by simp))
        rw [behind]
        rfl
    · cases more with
      | nil =>
        rw [List.append_nil] at whole
        exact other [] (c :: value) rfl (whole ▸ parts.word)
      | cons d more =>
        obtain ⟨rfl, -⟩ := List.cons.inj behind
        have kept := chars g (by rw [whole]; simp)
        simp [isValueChar, blank] at kept

/-- No bearer token begins in a keyword secret. -/
theorem KeywordSecret.quiet {front key gap space value after : List Char} {sign : Char}
    (secret : KeywordSecret rt front key gap sign space value after) (before : Option Char) :
    Quiet (matchBearer rt) before (key ++ (gap ++ sign :: space) ++ value) after := by
  obtain ⟨-, parts, other, -, -⟩ := secret
  obtain ⟨word, mem, spelled⟩ := parts.key
  have between : ∀ c ∈ gap ++ sign :: space, ¬ IsLetter c := by
    intro c inside
    rcases List.mem_append.mp inside with inside | inside
    · exact not_letter_of_space (parts.gap c inside)
    · rcases List.mem_cons.mp inside with rfl | inside
      · intro letter
        rcases parts.sign with rfl | rfl
        · exact letter.kinds.2.1 rfl
        · exact letter.kinds.2.2.1 rfl
      · exact not_letter_of_space (parts.space c inside)
  refine Quiet.append (Quiet.append ?_ ?_) (value_quiet parts.value parts.stop other _)
  · exact quiet_of_not_first (key_not_first mem spelled) before _
  · exact quiet_of_not_first (fun c inside => not_first_of_not_letter (between c inside)) _ _

section Keyword

variable {front key gap space value value' after : List Char} {sign : Char}

/-- What the first pass leaves of a text in which it has not taken the secret. -/
theorem KeywordSecret.first_pass (secret : KeywordSecret rt front key gap sign space value after)
    (free : taken (matchBearer rt) none 0 front (key ++ (gap ++ sign :: space) ++ value ++ after) = 0) :
    subst (matchBearer rt) none 0 (front ++ (key ++ (gap ++ sign :: space) ++ value ++ after)) =
      emitted (matchBearer rt) none 0 front (key ++ (gap ++ sign :: space) ++ value ++ after) ++
        (key ++ (gap ++ sign :: space) ++ value ++ subst (matchBearer rt) none 0 after) := by
  have behind := subst_behind (m := matchBearer rt) (fun _ => matchBearer_not_letter)
    (fun c h => not_letter_of_not_value (secret.parts.stop c h))
    (lastOf (lastOf none front) (key ++ (gap ++ sign :: space) ++ value)) none
  rw [subst_append none 0 front, free, (secret.quiet _).subst, behind]

/-- What the second pass leaves of a secret in front of which it has taken nothing. -/
theorem KeywordSecret.second_pass (secret : KeywordSecret rt front key gap sign space value after) {back : List Char}
    (stop : ∀ c ∈ back.head?, isValueChar c = false) {before : Option Char}
    (start : atWordStart rt.isAlnum before = true) :
    subst (matchSecret rt) before 0 (key ++ (gap ++ sign :: space) ++ value ++ back) =
      key ++ "=[REDACTED]".toList ++ subst (matchSecret rt) none 0 back := by
  have parts := secret.parts
  have found := matchSecret_eq_some.mpr ⟨start, key, gap, sign, space, value, back,
    ⟨rfl, parts.key, parts.gap, parts.sign, parts.space, parts.value_ne, parts.value, stop⟩, rfl, rfl⟩
  have whole : key ++ (gap ++ sign :: (space ++ (value ++ back))) = key ++ (gap ++ sign :: space) ++ value ++ back := by
    simp
  have length : key.length + gap.length + 1 + space.length + value.length =
      (key ++ (gap ++ sign :: space) ++ value).length := by
    simp only [List.length_append, List.length_cons]
    omega
  rw [whole, length] at found
  rw [subst_cut (by simp) found]
  exact congrArg _ (subst_behind (fun _ => matchSecret_not_letter) (fun c h => not_letter_of_not_value (stop c h)) _ _)

/-- A redacted text tells nothing of the value of a secret, unless a match of either pattern that begins in front of its
keyword takes a part of it. -/
theorem secret_hidden (secret : KeywordSecret rt front key gap sign space value after)
    (secret' : KeywordSecret rt front key gap sign space value' after) :
    sanitize rt (String.ofList (front ++ (key ++ (gap ++ sign :: space) ++ value ++ after))) =
      sanitize rt (String.ofList (front ++ (key ++ (gap ++ sign :: space) ++ value' ++ after))) := by
  obtain ⟨word, mem, spelled⟩ := secret.parts.key
  have mem' : word ∈ patternWords := List.mem_cons_of_mem _ mem
  have nonempty := word_ne_nil mem' spelled
  have stop := secret.parts.stop
  have bearer : RunsOver (matchBearer rt) isTokenChar key := bearer_runsOver mem' spelled nonempty
  obtain ⟨emits, takes⟩ := taken_alike bearer_endsInRun bearer nonempty (fun c h => not_token_of_not_value (stop c h))
    secret.whole secret'.whole
  rw [sanitize, sanitize, String.toList_ofList, String.toList_ofList, sanitizeChars, sanitizeChars]
  refine congrArg String.ofList ?_
  rcases takes with ⟨free, free'⟩ | ⟨first, second⟩
  · have head : (subst (matchBearer rt) none 0 after).head? = after.head? := head?_subst fun c tail eq =>
      matchBearer_not_letter (not_letter_of_not_value (stop c (by rw [eq]; rfl)))
    have stop' : ∀ c ∈ (subst (matchBearer rt) none 0 after).head?, isValueChar c = false := by
      rw [head]
      exact stop
    have begins : ∀ c ∈ key.head?, isTokenChar c = true := fun c h =>
      (spelled.letters mem' c (List.mem_of_mem_head? h)).kinds.2.2.2.1
    have start : atWordStart rt.isAlnum (lastOf none (emitted (matchBearer rt) none 0 front
        (key ++ (gap ++ sign :: space) ++ value ++ after))) = true := by
      simp only [List.append_assoc key] at free ⊢
      rw [lastOf_front bearer begins nonempty free]
      exact secret.start
    have whole := secret.whole' free
    have whole' := secret'.whole' free'
    rw [← emits] at whole'
    rw [secret.first_pass free, secret'.first_pass free', ← emits]
    refine congrArg (·.take 1000) (subst_alike secret_endsInRun mem' spelled (secret_runsOver mem' spelled nonempty)
      (fun _ => matchSecret_not_letter) (fun c h => ⟨stop' c h, not_letter_of_not_value (stop' c h)⟩) whole whole' fun _ => ?_)
    rw [secret.second_pass stop' start, secret'.second_pass stop' start]
  · have behind := fun before => subst_behind (m := matchBearer rt) (fun _ => matchBearer_not_letter)
      (fun c h => not_letter_of_not_value (stop c h)) before none
    rw [subst_append none 0 front, subst_append none 0 front (key ++ (gap ++ sign :: space) ++ value' ++ after), emits,
      first, second, subst_skip _ _ 0 _ (Nat.add_zero _).symm, subst_skip _ _ 0 _ (Nat.add_zero _).symm,
      behind (lastOf _ (key ++ (gap ++ sign :: space) ++ value)),
      behind (lastOf _ (key ++ (gap ++ sign :: space) ++ value'))]

end Keyword

/-- A password behind a bearer token. -/
theorem password_secret {value : List Char} (mem : value = ['b'] ∨ value = ['d', 'e']) :
    KeywordSecret Runtime.ascii "Bearer a ".toList "password".toList [] ':' [' '] value [',', ' ', 'c'] where
  start := by decide
  parts := {
    text := by simp
    key := ⟨"password".toList, by decide, by simp [Spells]; decide⟩
    gap := by simp
    sign := .inl rfl
    space := by simp; decide
    value_ne := by rcases mem with rfl | rfl <;> simp
    value := by rcases mem with rfl | rfl <;> simp <;> decide
    stop := by simp; decide }
  other x y eq spelled := by
    have long : 6 = y.length := spelled.length_eq
    have short : value.length ≤ 2 := by rcases mem with rfl | rfl <;> decide
    rw [eq, List.length_append] at short
    omega
  whole := by rcases mem with rfl | rfl <;> decide
  whole' := by rcases mem with rfl | rfl <;> decide

/-- Behind a bearer token, the length of a password does not show. -/
theorem password_hidden :
    sanitize Runtime.ascii (String.ofList ("Bearer a ".toList ++ ("password".toList ++ ([] ++ ':' :: [' ']) ++ ['b'] ++
        [',', ' ', 'c']))) =
      sanitize Runtime.ascii (String.ofList ("Bearer a ".toList ++ ("password".toList ++ ([] ++ ':' :: [' ']) ++ ['d', 'e'] ++
        [',', ' ', 'c']))) :=
  secret_hidden (password_secret (.inl rfl)) (password_secret (.inr rfl))

end WorkerPool
