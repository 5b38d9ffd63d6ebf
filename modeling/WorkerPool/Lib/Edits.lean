import Mathlib
import WorkerPool.Lib.Search

/-!
# Editing a sequence in several places

Occurrences of a pattern, overlapping or not, and the substitution of spans: one after the other from the last to
the first, which is all of them at once if they do not overlap.
-/

namespace Search

variable {α : Type} [DecidableEq α]

/-! ### Occurrences -/

/-- The pattern stands at a place. -/
def Occurs (pattern s : List α) (n : Nat) : Prop := pattern <+: s.drop n

instance (pattern s : List α) (n : Nat) : Decidable (Occurs pattern s n) :=
  inferInstanceAs (Decidable (pattern <+: s.drop n))

/-- `s.count(pattern)` behind `skip` items, of a pattern that is not empty: the search goes on behind each
occurrence. -/
def count (pattern : List α) : Nat → List α → Nat
  | _, [] => 0
  | skip + 1, _ :: rest => count pattern skip rest
  | 0, a :: rest =>
    if pattern.isPrefixOf (a :: rest) then count pattern (pattern.length - 1) rest + 1 else count pattern 0 rest

/-- Two occurrences of the pattern overlap. -/
def Overlaps (pattern s : List α) : Prop :=
  ∃ m n, m < n ∧ n < m + pattern.length ∧ Occurs pattern s m ∧ Occurs pattern s n

omit [DecidableEq α] in
theorem not_occurs_nil {pattern : List α} (nonempty : pattern ≠ []) (n : Nat) : ¬ Occurs pattern [] n := by
  rw [Occurs, List.drop_nil]
  exact fun stands => nonempty (List.prefix_nil.mp stands)

omit [DecidableEq α] in
theorem occurs_zero {pattern s : List α} : Occurs pattern s 0 ↔ pattern <+: s := Iff.rfl

omit [DecidableEq α] in
theorem occurs_succ {pattern rest : List α} {a : α} {n : Nat} :
    Occurs pattern (a :: rest) (n + 1) ↔ Occurs pattern rest n := Iff.rfl

omit [DecidableEq α] in
theorem occurs_drop {pattern s : List α} {k n : Nat} : Occurs pattern (s.drop k) n ↔ Occurs pattern s (k + n) := by
  rw [Occurs, Occurs, List.drop_drop]

omit [DecidableEq α] in
theorem Occurs.le_length {pattern s : List α} {n : Nat} (nonempty : pattern ≠ []) (h : Occurs pattern s n) :
    n + pattern.length ≤ s.length := by
  have within := h.length_le
  have some_of : 0 < pattern.length := List.length_pos_iff.mpr nonempty
  rw [List.length_drop] at within
  omega

theorem count_skip (pattern : List α) (skip : Nat) (s : List α) :
    count pattern skip s = count pattern 0 (s.drop skip) := by
  induction s generalizing skip with
  | nil => rw [List.drop_nil, count, count]
  | cons a rest ih =>
    cases skip with
    | zero => rfl
    | succ skip => exact ih skip

theorem count_eq_zero {pattern s : List α} (nonempty : pattern ≠ []) :
    count pattern 0 s = 0 ↔ ∀ n, ¬ Occurs pattern s n := by
  induction s with
  | nil => exact ⟨fun _ => not_occurs_nil nonempty, fun _ => rfl⟩
  | cons a rest ih =>
    rw [count]
    by_cases here : pattern.isPrefixOf (a :: rest) = true
    · rw [if_pos here]
      exact ⟨fun none => absurd none (Nat.succ_ne_zero _),
        fun none => absurd (List.isPrefixOf_iff_prefix.mp here) (none 0)⟩
    · rw [if_neg here, ih]
      constructor
      · intro none n
        cases n with
        | zero => exact fun stands => here (List.isPrefixOf_iff_prefix.mpr stands)
        | succ n => exact none n
      · exact fun none n => none (n + 1)

/-- The place that `find` finds is the first. -/
theorem find_eq_some_iff {pattern s : List α} (nonempty : pattern ≠ []) {n : Nat} :
    find pattern s = some n ↔ Occurs pattern s n ∧ ∀ m < n, ¬ Occurs pattern s m := by
  induction s generalizing n with
  | nil =>
    rw [find, if_neg nonempty]
    refine ⟨fun found => ?_, fun stands => absurd stands.1 (not_occurs_nil nonempty n)⟩
    cases found
  | cons a rest ih =>
    rw [find]
    by_cases here : pattern.isPrefixOf (a :: rest) = true
    · have stands : Occurs pattern (a :: rest) 0 := List.isPrefixOf_iff_prefix.mp here
      rw [if_pos here, Option.some_inj]
      constructor
      · rintro rfl
        exact ⟨stands, fun m before => absurd before (Nat.not_lt_zero m)⟩
      · rintro ⟨-, first⟩
        by_contra other
        exact first 0 (Nat.pos_of_ne_zero (Ne.symm other)) stands
    · have not_here : ¬ Occurs pattern (a :: rest) 0 := fun stands => here (List.isPrefixOf_iff_prefix.mpr stands)
      rw [if_neg here, Option.map_eq_some_iff]
      cases n with
      | zero =>
        refine ⟨?_, fun stands => absurd stands.1 not_here⟩
        rintro ⟨m, -, eq⟩
        exact absurd eq (Nat.succ_ne_zero m)
      | succ n =>
        constructor
        · rintro ⟨m, found, eq⟩
          obtain rfl := Nat.succ.inj eq
          obtain ⟨stands, first⟩ := ih.mp found
          refine ⟨stands, fun m before => ?_⟩
          cases m with
          | zero => exact not_here
          | succ m => exact first m (Nat.lt_of_succ_lt_succ before)
        · rintro ⟨stands, first⟩
          exact ⟨n, ih.mpr ⟨stands, fun m before => first (m + 1) (Nat.succ_lt_succ before)⟩, rfl⟩

/-- What is counted once stands nowhere behind its first occurrence. -/
theorem count_eq_one {pattern s : List α} (nonempty : pattern ≠ []) :
    count pattern 0 s = 1 ↔ ∃ n, find pattern s = some n ∧ ∀ m, Occurs pattern s m → m < n + pattern.length := by
  have some_of : 0 < pattern.length := List.length_pos_iff.mpr nonempty
  induction s with
  | nil =>
    rw [find, if_neg nonempty]
    refine ⟨fun one => absurd one (by decide : (0 : Nat) ≠ 1), ?_⟩
    rintro ⟨n, found, -⟩
    cases found
  | cons a rest ih =>
    rw [count, find]
    by_cases here : pattern.isPrefixOf (a :: rest) = true
    · rw [if_pos here, if_pos here, count_skip, Nat.add_eq_right, count_eq_zero nonempty]
      constructor
      · refine fun none => ⟨0, rfl, fun m stands => ?_⟩
        by_contra behind
        apply none (m - pattern.length)
        rw [occurs_drop, ← occurs_succ (a := a)]
        rwa [show pattern.length - 1 + (m - pattern.length) + 1 = m by omega]
      · rintro ⟨n, eq, within⟩ m stands
        cases eq
        have := within (pattern.length - 1 + m + 1) (occurs_succ.mpr (occurs_drop.mp stands))
        omega
    · have not_here : ¬ Occurs pattern (a :: rest) 0 := fun stands => here (List.isPrefixOf_iff_prefix.mpr stands)
      rw [if_neg here, if_neg here]
      refine ih.trans ⟨?_, ?_⟩
      · rintro ⟨n, found, within⟩
        refine ⟨n + 1, by rw [found]; rfl, fun m stands => ?_⟩
        cases m with
        | zero => exact absurd stands not_here
        | succ m =>
          have := within m stands
          omega
      · rintro ⟨n, found, within⟩
        obtain ⟨k, later, rfl⟩ := Option.map_eq_some_iff.mp found
        refine ⟨k, later, fun m stands => ?_⟩
        have := within (m + 1) stands
        omega

/-- What is counted once stands at one place only if it does not overlap itself. -/
theorem unique_iff_not_overlaps {pattern s : List α} (nonempty : pattern ≠ []) (once : count pattern 0 s = 1) :
    (∃! n, Occurs pattern s n) ↔ ¬ Overlaps pattern s := by
  obtain ⟨first, found, within⟩ := (count_eq_one nonempty).mp once
  obtain ⟨stands, least⟩ := (find_eq_some_iff nonempty).mp found
  constructor
  · rintro ⟨n, -, only⟩ ⟨m, k, lt, -, at_m, at_k⟩
    have := only m at_m
    have := only k at_k
    omega
  · refine fun apart => ⟨first, stands, fun m at_m => ?_⟩
    by_contra other
    have : ¬ m < first := fun before => least m before at_m
    exact apart ⟨first, m, by omega, within m at_m, stands, at_m⟩

/-! ### Spans -/

/-- A span with the text to put in its place. -/
structure Span (α : Type) where
  start : Nat
  stop : Nat
  new : List α
  deriving DecidableEq

omit [DecidableEq α] in
theorem Span.key_injective :
    Function.Injective fun s : Span α => toLex (s.start, toLex (s.stop, s.new)) := by
  rintro ⟨a, b, c⟩ ⟨a', b', c'⟩ equal
  simp only [EmbeddingLike.apply_eq_iff_eq, Prod.mk.injEq] at equal
  obtain ⟨rfl, rfl, rfl⟩ := equal
  rfl

/-- The order of tuples. -/
instance {β : Type} [LinearOrder β] : LinearOrder (Span β) := LinearOrder.lift' _ Span.key_injective

/-- `s[:start] + new + s[stop:]`. -/
def splice (span : Span α) (s : List α) : List α := s.take span.start ++ (span.new ++ s.drop span.stop)

/-- The span holds a place. -/
def Span.Holds (span : Span α) (n : Nat) : Prop := span.start ≤ n ∧ n < span.stop

instance (span : Span α) (n : Nat) : Decidable (span.Holds n) := inferInstanceAs (Decidable (_ ∧ _))

/-- All spans are substituted at once in a text that begins at the offset. -/
def simultaneous (spans : List (Span α)) : Nat → List α → List α
  | _, [] => []
  | n, a :: rest =>
    (spans.filter fun span => span.start = n).flatMap Span.new ++
      ((if ∃ span ∈ spans, span.Holds n then [] else [a]) ++ simultaneous spans (n + 1) rest)

/-- One span ends before the other begins. -/
def Span.Before (a b : Span α) : Prop := a.stop ≤ b.start

instance (a b : Span α) : Decidable (a.Before b) := inferInstanceAs (Decidable (_ ≤ _))

/-- The span is not empty and ends in a text of some length. -/
structure Span.Within (length : Nat) (span : Span α) : Prop where
  start_lt : span.start < span.stop
  stop_le : span.stop ≤ length

omit [DecidableEq α]

/-- In front of the first span nothing is changed. -/
theorem simultaneous_skip {spans : List (Span α)} {n : Nat} (k : Nat) {s : List α}
    (later : ∀ span ∈ spans, n + k ≤ span.start) :
    simultaneous spans n s = s.take k ++ simultaneous spans (n + k) (s.drop k) := by
  induction k generalizing n s with
  | zero => rfl
  | succ k ih =>
    cases s with
    | nil => rw [List.take_nil, List.drop_nil, simultaneous, simultaneous, List.nil_append]
    | cons a rest =>
      have none_here : (spans.filter fun span => span.start = n) = [] := by
        refine List.filter_eq_nil_iff.mpr fun span mem => ?_
        have := later span mem
        simp only [decide_eq_true_eq]
        omega
      have not_held : ¬ ∃ span ∈ spans, span.Holds n := by
        rintro ⟨span, mem, held⟩
        have := later span mem
        have := held.1
        omega
      rw [simultaneous, none_here, if_neg not_held, ih fun span mem => by have := later span mem; omega,
        List.take_succ_cons, List.drop_succ_cons, show n + 1 + k = n + (k + 1) by omega]
      rfl

/-- The rest of the first span is left out. -/
theorem simultaneous_inside {span : Span α} {spans : List (Span α)} {n : Nat} (k : Nat) {s : List α}
    (behind : span.start < n) (ends : n + k = span.stop) (later : ∀ b ∈ spans, span.Before b) :
    simultaneous (span :: spans) n s = simultaneous (span :: spans) (n + k) (s.drop k) := by
  induction k generalizing n s with
  | zero => rfl
  | succ k ih =>
    cases s with
    | nil => rw [List.drop_nil, simultaneous, simultaneous]
    | cons a rest =>
      have none_here : ((span :: spans).filter fun span => span.start = n) = [] := by
        refine List.filter_eq_nil_iff.mpr fun b mem => ?_
        simp only [decide_eq_true_eq]
        rcases List.mem_cons.mp mem with rfl | mem
        · omega
        · have : span.stop ≤ b.start := later b mem
          omega
      have held : ∃ b ∈ span :: spans, b.Holds n := ⟨span, List.mem_cons_self, by omega, by omega⟩
      rw [simultaneous, none_here, if_pos held, ih (by omega) (by omega), List.drop_succ_cons,
        show n + 1 + k = n + (k + 1) by omega]
      rfl

/-- Behind a span it has no effect. -/
theorem simultaneous_behind {span : Span α} {spans : List (Span α)} {n : Nat} {s : List α}
    (behind : span.stop ≤ n) (some_of : span.start < span.stop) :
    simultaneous (span :: spans) n s = simultaneous spans n s := by
  induction s generalizing n with
  | nil => rfl
  | cons a rest ih =>
    have not_held : ¬ span.Holds n := fun held => absurd held.2 (Nat.not_lt.mpr behind)
    have not_here : ¬ span.start = n := by omega
    rw [simultaneous, simultaneous, ih (Nat.le_succ_of_le behind)]
    simp only [List.filter_cons, not_here, decide_false, Bool.false_eq_true, if_false, List.exists_mem_cons_iff,
      not_held, false_or]

/-- The first span, from its beginning. -/
theorem simultaneous_span {span : Span α} {spans : List (Span α)} {s : List α} (some_of : span.start < span.stop)
    (within : span.stop ≤ span.start + s.length) (later : ∀ b ∈ spans, span.Before b) :
    simultaneous (span :: spans) span.start s =
      span.new ++ simultaneous spans span.stop (s.drop (span.stop - span.start)) := by
  cases s with
  | nil =>
    rw [List.length_nil] at within
    omega
  | cons a rest =>
    have only : (spans.filter fun b => b.start = span.start) = [] := by
      refine List.filter_eq_nil_iff.mpr fun b mem => ?_
      have : span.stop ≤ b.start := later b mem
      simp only [decide_eq_true_eq]
      omega
    have held : ∃ b ∈ span :: spans, b.Holds span.start := ⟨span, List.mem_cons_self, Nat.le_refl _, some_of⟩
    obtain ⟨k, eq⟩ : ∃ k, span.stop = span.start + 1 + k := ⟨span.stop - span.start - 1, by omega⟩
    rw [simultaneous, List.filter_cons, if_pos (by simp), only, if_pos held,
      simultaneous_inside k (Nat.lt_succ_self _) eq.symm later, ← eq, simultaneous_behind (Nat.le_refl _) some_of,
      show span.stop - span.start = k + 1 by omega]
    simp

/-- The order of spans that begin at different places has no effect. -/
theorem simultaneous_perm {spans spans' : List (Span α)} (same : spans.Perm spans')
    (apart : spans.Pairwise fun a b => a.start ≠ b.start) (n : Nat) (s : List α) :
    simultaneous spans n s = simultaneous spans' n s := by
  induction s generalizing n with
  | nil => rfl
  | cons a rest ih =>
    have held : (∃ span ∈ spans, span.Holds n) ↔ ∃ span ∈ spans', span.Holds n := by
      simp only [same.mem_iff]
    have here : (spans.filter fun span => span.start = n) = spans'.filter fun span => span.start = n := by
      have perm := same.filter fun span => span.start = n
      cases eq : spans.filter fun span => span.start = n with
      | nil =>
        rw [eq] at perm
        exact perm.nil_eq
      | cons x more =>
        cases more with
        | nil =>
          rw [eq] at perm
          exact (List.perm_singleton.mp perm.symm).symm
        | cons y more =>
          have different := apart.sublist (List.filter_sublist (p := fun span : Span α => span.start = n))
          have mem : ∀ b ∈ x :: y :: more, b.start = n := fun b mem => by
            rw [← eq] at mem
            exact of_decide_eq_true (List.mem_filter.mp mem).2
          rw [eq] at different
          have starts := mem y (List.mem_cons_of_mem _ List.mem_cons_self)
          exact absurd ((mem x List.mem_cons_self).trans starts.symm)
            ((List.pairwise_cons.mp different).1 y List.mem_cons_self)
    rw [simultaneous, simultaneous, here, ih]
    simp only [held]

/-- From the last span to the first, one after the other. -/
theorem foldr_splice {spans : List (Span α)} {s : List α} (n : Nat) (within : ∀ span ∈ spans, span.Within s.length)
    (ordered : spans.Pairwise Span.Before) (later : ∀ span ∈ spans, n ≤ span.start) :
    spans.foldr splice s = s.take n ++ simultaneous spans n (s.drop n) := by
  induction spans generalizing n with
  | nil =>
    have unchanged : ∀ n (s : List α), simultaneous [] n s = s := by
      intro n s
      induction s generalizing n with
      | nil => rfl
      | cons a rest ih => simp [simultaneous, ih]
    rw [List.foldr_nil, unchanged, List.take_append_drop]
  | cons span spans ih =>
    obtain ⟨first, ordered⟩ := List.pairwise_cons.mp ordered
    obtain ⟨within_first, within⟩ := List.forall_mem_cons.mp within
    have from_stop := ih span.stop within ordered first
    have from_n : n ≤ span.start := later span List.mem_cons_self
    have bounds := within_first.start_lt
    have ends := within_first.stop_le
    have length : (s.take span.stop).length = span.stop := List.length_take_of_le ends
    have all_later : ∀ b ∈ span :: spans, n + (span.start - n) ≤ b.start := by
      intro b mem
      rcases List.mem_cons.mp mem with rfl | mem
      · omega
      · have : span.stop ≤ b.start := first b mem
        omega
    have gap : s.take n ++ (s.drop n).take (span.start - n) = s.take span.start := by
      rw [← List.take_add, show n + (span.start - n) = span.start by omega]
    have spliced : splice span (spans.foldr splice s) =
        s.take span.start ++ (span.new ++ simultaneous spans span.stop (s.drop span.stop)) := by
      rw [from_stop, splice, List.take_append_of_le_length (by omega), List.take_take, Nat.min_eq_left (by omega),
        List.drop_append_of_le_length (by omega), List.drop_eq_nil_of_le (by omega), List.nil_append]
    have at_once : simultaneous (span :: spans) n (s.drop n) = (s.drop n).take (span.start - n) ++
        (span.new ++ simultaneous spans span.stop (s.drop span.stop)) := by
      rw [simultaneous_skip (span.start - n) all_later, List.drop_drop,
        show n + (span.start - n) = span.start by omega,
        simultaneous_span bounds (by rw [List.length_drop]; omega) first, List.drop_drop,
        show span.start + (span.stop - span.start) = span.stop by omega]
    rw [List.foldr_cons, spliced, at_once, ← gap, List.append_assoc]

end Search
