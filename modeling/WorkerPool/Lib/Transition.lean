import Mathlib

/-!
# Labelled transition systems

Reachability, invariants, stability along a run, and the restriction of a
system to the steps that meet a condition.
-/

namespace Transition

structure System (σ α : Type) where
  init : σ → Prop
  step : σ → α → σ → Prop

namespace System

variable {σ α : Type} (S : System σ α)

/-- Any number of steps, from any state. -/
inductive Steps : σ → σ → Prop
  | refl (s : σ) : Steps s s
  | tail {s t u : σ} {a : α} : Steps s t → S.step t a u → Steps s u

def Reachable (s : σ) : Prop := ∃ i, S.init i ∧ S.Steps i s

/-- The same system, only taking the steps that meet `good`. -/
def restrict (good : σ → α → σ → Prop) : System σ α where
  init := S.init
  step s a t := S.step s a t ∧ good s a t

variable {S}

theorem Steps.single {s t : σ} {a : α} (h : S.step s a t) : S.Steps s t :=
  .tail (.refl s) h

theorem Steps.trans {s t u : σ} (h : S.Steps s t) (h' : S.Steps t u) : S.Steps s u := by
  induction h' with
  | refl => exact h
  | tail _ st ih => exact .tail ih st

/-- A property each step preserves holds along the whole run. -/
theorem Steps.preserves {P : σ → Prop}
    (step : ∀ s a t, P s → S.step s a t → P t)
    {s t : σ} (h : S.Steps s t) (start : P s) : P t := by
  induction h with
  | refl => exact start
  | tail _ st ih => exact step _ _ _ ih st

theorem Reachable.init {s : σ} (h : S.init s) : S.Reachable s := ⟨s, h, .refl s⟩

theorem Reachable.steps {s t : σ} (h : S.Reachable s) (h' : S.Steps s t) : S.Reachable t := by
  obtain ⟨i, hi, hs⟩ := h
  exact ⟨i, hi, hs.trans h'⟩

theorem Reachable.step {s t : σ} {a : α} (h : S.Reachable s) (st : S.step s a t) :
    S.Reachable t :=
  h.steps (.single st)

/-- The invariant rule: initial states satisfy it and each step preserves it. -/
theorem Reachable.invariant {P : σ → Prop} (init : ∀ s, S.init s → P s)
    (step : ∀ s a t, P s → S.step s a t → P t) {s : σ} (h : S.Reachable s) : P s := by
  obtain ⟨i, hi, hs⟩ := h
  exact hs.preserves step (init i hi)

/-- The invariant rule with an invariant already known to help. -/
theorem Reachable.strengthen {P Q : σ → Prop} (known : ∀ s, S.Reachable s → Q s)
    (init : ∀ s, S.init s → P s)
    (step : ∀ s a t, Q s → P s → S.step s a t → P t) {s : σ} (h : S.Reachable s) : P s := by
  have both : S.Reachable s ∧ P s := by
    refine h.invariant (P := fun s => S.Reachable s ∧ P s) ?_ ?_
    · intro i hi
      exact ⟨.init hi, init i hi⟩
    · rintro s a t ⟨hr, hp⟩ st
      exact ⟨hr.step st, step s a t (known s hr) hp st⟩
  exact both.2

theorem Steps.of_restrict {good : σ → α → σ → Prop} {s t : σ}
    (h : (S.restrict good).Steps s t) : S.Steps s t := by
  induction h with
  | refl => exact .refl _
  | tail _ st ih => exact .tail ih st.1

/-- A condition that every step of a run meets restricts nothing. -/
theorem Steps.restrict {good : σ → α → σ → Prop} {s t : σ} (h : S.Steps s t)
    (met : ∀ u a v, S.Steps s u → S.step u a v → good u a v) : (S.restrict good).Steps s t := by
  induction h with
  | refl => exact .refl _
  | tail before st ih => exact .tail ih ⟨st, met _ _ _ before st⟩

theorem Steps.restrict_both {p q : σ → α → σ → Prop} {s t : σ}
    (h : (S.restrict fun u a v => p u a v ∧ q u a v).Steps s t) :
    ((S.restrict p).restrict q).Steps s t := by
  induction h with
  | refl => exact .refl _
  | tail _ st ih => exact ih.tail ⟨⟨st.1, st.2.1⟩, st.2.2⟩

theorem Reachable.of_restrict {good : σ → α → σ → Prop} {s : σ}
    (h : (S.restrict good).Reachable s) : S.Reachable s := by
  obtain ⟨i, hi, hs⟩ := h
  exact ⟨i, hi, hs.of_restrict⟩

/-- A condition that every reachable step meets restricts nothing. -/
theorem Reachable.restrict {good : σ → α → σ → Prop}
    (met : ∀ s a t, (S.restrict good).Reachable s → S.step s a t → good s a t) {s : σ}
    (h : S.Reachable s) : (S.restrict good).Reachable s := by
  have start : ∀ s, S.init s → (S.restrict good).Reachable s := fun s first => .init first
  have step : ∀ s a t, (S.restrict good).Reachable s → S.step s a t →
      (S.restrict good).Reachable t := fun s a t reach st => reach.step ⟨st, met s a t reach st⟩
  exact h.invariant start step

end System

end Transition
