import Mathlib

/-!
# Transaction bodies that may raise, and their rollback

A body runs against a state, may raise, and keeps whatever it wrote before the
raise. Undoing those writes is the business of `atomically` alone, so that a
statement about a rejected transaction is a statement about the rollback.
-/

namespace Transaction

/-- A raise returns the state reached so far, partial writes included. -/
def Tx (σ ε α : Type) := σ → Except ε α × σ

namespace Tx

variable {σ ε α β ρ : Type}

protected def pure (a : α) : Tx σ ε α := fun s => (.ok a, s)

protected def bind (m : Tx σ ε α) (k : α → Tx σ ε β) : Tx σ ε β := fun s =>
  match m s with
  | (.ok a, s') => k a s'
  | (.error e, s') => (.error e, s')

instance : Monad (Tx σ ε) where
  pure := Tx.pure
  bind := Tx.bind

def raise (e : ε) : Tx σ ε α := fun s => (.error e, s)

def read (f : σ → α) : Tx σ ε α := fun s => (.ok (f s), s)

def write (f : σ → σ) : Tx σ ε Unit := fun s => (.ok (), f s)

def require (c : Prop) [Decidable c] (e : ε) : Tx σ ε Unit :=
  if c then pure () else raise e

def unwrap (o : Option α) (e : ε) : Tx σ ε α :=
  match o with
  | some a => pure a
  | none => raise e

/-- A loop over the rows already fetched, threading an accumulator. -/
def forEach : List ρ → β → (β → ρ → Tx σ ε β) → Tx σ ε β
  | [], acc, _ => pure acc
  | r :: rest, acc, f => do
    let acc ← f acc r
    forEach rest acc f

/-- Commit on a normal return, restore the state of the beginning on a raise. -/
def atomically (m : Tx σ ε α) : Tx σ ε α := fun s =>
  match m s with
  | (.ok a, s') => (.ok a, s')
  | (.error e, _) => (.error e, s)

/-- The body returns normally from `s` with `a`, leaving `s'`. -/
def Yields (m : Tx σ ε α) (s : σ) (a : α) (s' : σ) : Prop := m s = (.ok a, s')

/-- The body raises `e` from `s`, having reached `s'`. -/
def Fails (m : Tx σ ε α) (s : σ) (e : ε) (s' : σ) : Prop := m s = (.error e, s')

/-- A normal return whose result and state pass a test. -/
def test (m : Tx σ ε α) (s : σ) (p : α → σ → Bool) : Bool :=
  match m s with
  | (.ok a, s') => p a s'
  | (.error _, _) => false

theorem test_iff {m : Tx σ ε α} {s : σ} {p : α → σ → Bool} :
    m.test s p = true ↔ ∃ a s', m.Yields s a s' ∧ p a s' = true := by
  unfold test Yields
  cases h : m s with
  | mk result s' =>
    cases result with
    | ok a =>
      constructor
      · intro passed
        exact ⟨a, s', rfl, passed⟩
      · rintro ⟨_, _, ⟨⟩, passed⟩
        exact passed
    | error e =>
      constructor
      · intro failed
        cases failed
      · rintro ⟨_, _, ⟨⟩, -⟩

@[simp] theorem pure_yields {a b : α} {s s' : σ} :
    (pure a : Tx σ ε α).Yields s b s' ↔ b = a ∧ s' = s := by
  constructor
  · intro h
    cases h
    exact ⟨rfl, rfl⟩
  · rintro ⟨rfl, rfl⟩
    rfl

@[simp] theorem raise_yields {e : ε} {a : α} {s s' : σ} :
    ¬ (raise e : Tx σ ε α).Yields s a s' := by
  intro h
  cases h

@[simp] theorem read_yields {f : σ → α} {a : α} {s s' : σ} :
    (read f : Tx σ ε α).Yields s a s' ↔ a = f s ∧ s' = s := by
  constructor
  · intro h
    cases h
    exact ⟨rfl, rfl⟩
  · rintro ⟨rfl, rfl⟩
    rfl

@[simp] theorem write_yields {f : σ → σ} {u : Unit} {s s' : σ} :
    (write f : Tx σ ε Unit).Yields s u s' ↔ s' = f s := by
  constructor
  · intro h
    cases h
    rfl
  · rintro rfl
    rfl

/-- A sequence returns exactly when both parts do: this peels a body apart. -/
@[simp] theorem bind_yields {m : Tx σ ε α} {k : α → Tx σ ε β} {s s' : σ} {b : β} :
    (m >>= k).Yields s b s' ↔ ∃ a t, m.Yields s a t ∧ (k a).Yields t b s' := by
  change Tx.bind m k s = _ ↔ _
  unfold Tx.bind
  cases h : m s with
  | mk result t =>
    cases result with
    | ok a =>
      constructor
      · intro hk
        exact ⟨a, t, h, hk⟩
      · rintro ⟨a', t', hm, hk⟩
        cases h.symm.trans hm
        exact hk
    | error e =>
      constructor
      · intro hk
        cases hk
      · rintro ⟨a', t', hm, -⟩
        cases h.symm.trans hm

@[simp] theorem require_yields {c : Prop} [Decidable c] {e : ε} {u : Unit} {s s' : σ} :
    (require c e : Tx σ ε Unit).Yields s u s' ↔ c ∧ s' = s := by
  by_cases h : c
  · simp [require, h]
  · simp [require, h]

@[simp] theorem unwrap_yields {o : Option α} {e : ε} {a : α} {s s' : σ} :
    (unwrap o e : Tx σ ε α).Yields s a s' ↔ o = some a ∧ s' = s := by
  cases o with
  | none => simp [unwrap]
  | some b => simp [unwrap, eq_comm]

@[simp] theorem atomically_yields {m : Tx σ ε α} {s s' : σ} {a : α} :
    (atomically m).Yields s a s' ↔ m.Yields s a s' := by
  unfold Yields atomically
  cases h : m s with
  | mk result t => cases result <;> simp

@[simp] theorem pure_fails {a : α} {e : ε} {s s' : σ} :
    ¬ (pure a : Tx σ ε α).Fails s e s' := by
  intro h
  cases h

@[simp] theorem raise_fails {e f : ε} {s s' : σ} :
    (raise e : Tx σ ε α).Fails s f s' ↔ f = e ∧ s' = s := by
  constructor
  · intro h
    cases h
    exact ⟨rfl, rfl⟩
  · rintro ⟨rfl, rfl⟩
    rfl

@[simp] theorem read_fails {f : σ → α} {e : ε} {s s' : σ} :
    ¬ (read f : Tx σ ε α).Fails s e s' := by
  intro h
  cases h

/-- A sequence fails where its first part does, or where the second does after it. -/
@[simp] theorem write_fails {f : σ → σ} {e : ε} {s s' : σ} :
    ¬ (write f : Tx σ ε Unit).Fails s e s' := by
  intro h
  cases congrArg Prod.fst h

@[simp] theorem bind_fails {m : Tx σ ε α} {k : α → Tx σ ε β} {s s' : σ} {e : ε} :
    (m >>= k).Fails s e s' ↔ m.Fails s e s' ∨ ∃ a t, m.Yields s a t ∧ (k a).Fails t e s' := by
  change Tx.bind m k s = _ ↔ _
  unfold Tx.bind
  cases h : m s with
  | mk result t =>
    cases result with
    | ok a =>
      constructor
      · intro hk
        exact Or.inr ⟨a, t, h, hk⟩
      · rintro (hm | ⟨a', t', hm, hk⟩)
        · cases h.symm.trans hm
        · cases h.symm.trans hm
          exact hk
    | error f =>
      constructor
      · intro hk
        cases hk
        exact Or.inl h
      · rintro (hm | ⟨a', t', hm, -⟩)
        · cases h.symm.trans hm
          rfl
        · cases h.symm.trans hm

@[simp] theorem require_fails {c : Prop} [Decidable c] {e f : ε} {s s' : σ} :
    (require c e : Tx σ ε Unit).Fails s f s' ↔ ¬ c ∧ f = e ∧ s' = s := by
  by_cases h : c
  · simp [require, h]
  · simp [require, h]

@[simp] theorem unwrap_fails {o : Option α} {e f : ε} {s s' : σ} :
    (unwrap o e : Tx σ ε α).Fails s f s' ↔ o = none ∧ f = e ∧ s' = s := by
  cases o with
  | none => simp [unwrap]
  | some b => simp [unwrap]

/-- Whatever a rejected transaction wrote is undone. -/
@[simp] theorem atomically_fails {m : Tx σ ε α} {s s' : σ} {e : ε} :
    (atomically m).Fails s e s' ↔ s' = s ∧ ∃ t, m.Fails s e t := by
  unfold Fails atomically
  cases h : m s with
  | mk result t =>
    cases result with
    | ok a => simp
    | error f => simp [eq_comm, and_comm]

/-- Every run of a body either returns or raises. -/
theorem yields_or_fails (m : Tx σ ε α) (s : σ) :
    (∃ a s', m.Yields s a s') ∨ ∃ e s', m.Fails s e s' := by
  unfold Yields Fails
  cases h : m s with
  | mk result t =>
    cases result with
    | ok a => exact Or.inl ⟨a, t, rfl⟩
    | error e => exact Or.inr ⟨e, t, rfl⟩

theorem forEach_nil_yields {f : β → ρ → Tx σ ε β} {acc acc' : β} {s s' : σ} :
    (forEach [] acc f).Yields s acc' s' ↔ acc' = acc ∧ s' = s := by
  rw [forEach, pure_yields]

theorem forEach_cons_yields {f : β → ρ → Tx σ ε β} {r : ρ} {rest : List ρ} {acc acc' : β}
    {s s' : σ} : (forEach (r :: rest) acc f).Yields s acc' s' ↔
      ∃ mid t, (f acc r).Yields s mid t ∧ (forEach rest mid f).Yields t acc' s' := by
  rw [forEach, bind_yields]

/-- The loop rule: an assertion over the rows still to come and the accumulator
is carried from the first row to the end. -/
theorem forEach_yields {motive : List ρ → β → σ → Prop} {f : β → ρ → Tx σ ε β}
    (step : ∀ r rest acc s acc' s', motive (r :: rest) acc s →
      (f acc r).Yields s acc' s' → motive rest acc' s')
    {rows : List ρ} {acc acc' : β} {s s' : σ} (start : motive rows acc s)
    (h : (forEach rows acc f).Yields s acc' s') : motive [] acc' s' := by
  induction rows generalizing acc s with
  | nil =>
    obtain ⟨rfl, rfl⟩ := forEach_nil_yields.mp h
    exact start
  | cons r rest ih =>
    obtain ⟨mid, t, hr, hrest⟩ := forEach_cons_yields.mp h
    exact ih (step r rest acc s mid t start hr) hrest

/-- From `s` the body returns only as `post` allows, and raises only with `s` intact. -/
structure Atomic (m : Tx σ ε α) (s : σ) (post : α → σ → Prop) : Prop where
  returns : ∀ {a s'}, m.Yields s a s' → post a s'
  raises : ∀ {e s'}, m.Fails s e s' → s' = s

theorem Atomic.atomically {m : Tx σ ε α} {s : σ} {post : α → σ → Prop}
    (h : ∀ a s', m.Yields s a s' → post a s') : (Tx.atomically m).Atomic s post where
  returns := fun hy => h _ _ (atomically_yields.mp hy)
  raises := fun hf => (atomically_fails.mp hf).1

theorem Atomic.require {c : Prop} [Decidable c] {e : ε} {s : σ} :
    (Tx.require c e : Tx σ ε Unit).Atomic s fun _ s' => c ∧ s' = s where
  returns := require_yields.mp
  raises := fun hf => (require_fails.mp hf).2.2

theorem Atomic.unwrap {o : Option α} {e : ε} {s : σ} :
    (Tx.unwrap o e : Tx σ ε α).Atomic s fun a s' => o = some a ∧ s' = s where
  returns := unwrap_yields.mp
  raises := fun hf => (unwrap_fails.mp hf).2.2

theorem Atomic.read {f : σ → α} {s : σ} :
    (Tx.read f : Tx σ ε α).Atomic s fun a s' => a = f s ∧ s' = s where
  returns := read_yields.mp
  raises := fun hf => absurd hf read_fails

theorem Atomic.write {f : σ → σ} {s : σ} {post : Unit → σ → Prop} (h : post () (f s)) :
    (Tx.write f : Tx σ ε Unit).Atomic s post where
  returns := fun hy => by
    obtain rfl := write_yields.mp hy
    exact h
  raises := fun hf => absurd hf write_fails

theorem Atomic.pure {a : α} {s : σ} {post : α → σ → Prop} (h : post a s) :
    (Pure.pure a : Tx σ ε α).Atomic s post where
  returns := fun hy => by
    obtain ⟨rfl, rfl⟩ := pure_yields.mp hy
    exact h
  raises := fun hf => absurd hf pure_fails

theorem Atomic.mono {m : Tx σ ε α} {s : σ} {post post' : α → σ → Prop} (h : m.Atomic s post)
    (weaker : ∀ a s', post a s' → post' a s') : m.Atomic s post' :=
  ⟨fun hy => weaker _ _ (h.returns hy), h.raises⟩

/-- A check that leaves the state alone, then the rest from the same state. -/
theorem Atomic.after_check {m : Tx σ ε α} {k : α → Tx σ ε β} {s : σ} {info : α → Prop}
    {post : β → σ → Prop} (check : m.Atomic s fun a s' => info a ∧ s' = s)
    (rest : ∀ a, info a → (k a).Atomic s post) : (m >>= k).Atomic s post where
  returns := fun hy => by
    obtain ⟨a, t, hm, hk⟩ := bind_yields.mp hy
    obtain ⟨known, rfl⟩ := check.returns hm
    exact (rest a known).returns hk
  raises := fun hf => by
    rcases bind_fails.mp hf with hm | ⟨a, t, hm, hk⟩
    · exact check.raises hm
    · obtain ⟨known, rfl⟩ := check.returns hm
      exact (rest a known).raises hk

/-- A part that may write, then a rest that can only return. -/
theorem Atomic.then_total {m : Tx σ ε α} {k : α → Tx σ ε β} {s : σ} {post : α → σ → Prop}
    {post' : β → σ → Prop} (h : m.Atomic s post)
    (rest : ∀ a s', post a s' → ∃ b, (k a).Yields s' b s' ∧ post' b s') :
    (m >>= k).Atomic s post' where
  returns := fun hy => by
    obtain ⟨a, t, hm, hk⟩ := bind_yields.mp hy
    obtain ⟨b, hb, holds⟩ := rest a t (h.returns hm)
    cases hb.symm.trans hk
    exact holds
  raises := fun hf => by
    rcases bind_fails.mp hf with hm | ⟨a, t, hm, hk⟩
    · exact h.raises hm
    · obtain ⟨b, hb, -⟩ := rest a t (h.returns hm)
      cases hb.symm.trans hk

/-- A value made of the result changes nothing else. -/
theorem Atomic.map {m : Tx σ ε α} {f : α → β} {s : σ} {post : β → σ → Prop}
    (h : m.Atomic s fun a s' => post (f a) s') : (m >>= fun a => Pure.pure (f a)).Atomic s post :=
  h.then_total fun a _ holds => ⟨f a, pure_yields.mpr ⟨rfl, rfl⟩, holds⟩

/-- Wherever the body stops, returning or raising, `R` relates the state to the first one. -/
def Within (R : σ → σ → Prop) (m : Tx σ ε α) : Prop := ∀ s, R s (m s).2

section Within

variable {R : σ → σ → Prop} {m k : Tx σ ε α}

theorem Within.write {f : σ → σ} (h : ∀ s, R s (f s)) : (Tx.write f : Tx σ ε Unit).Within R := h

theorem Within.ite {c : Prop} [Decidable c] (hm : m.Within R) (hk : k.Within R) :
    (if c then m else k).Within R := by
  split
  · exact hm
  · exact hk

theorem Within.yields (hm : m.Within R) {s s' : σ} {a : α} (h : m.Yields s a s') : R s s' := by
  have stop : (m s).2 = s' := congrArg Prod.snd h
  exact stop ▸ hm s

theorem Within.fails (hm : m.Within R) {s s' : σ} {e : ε} (h : m.Fails s e s') : R s s' := by
  have stop : (m s).2 = s' := congrArg Prod.snd h
  exact stop ▸ hm s

theorem Within.bind [IsTrans σ R] {m : Tx σ ε α} {k : α → Tx σ ε β} (hm : m.Within R)
    (hk : ∀ a, (k a).Within R) : (m >>= k).Within R := by
  intro s
  have first := hm s
  change R s (Tx.bind m k s).2
  unfold Tx.bind
  cases h : m s with
  | mk result t =>
    rw [h] at first
    cases result with
    | ok a => exact IsTrans.trans _ _ _ first (hk a t)
    | error e => exact first

theorem Within.mono {R' : σ → σ → Prop} (hm : m.Within R) (weaker : ∀ s s', R s s' → R' s s') :
    m.Within R' := fun s => weaker _ _ (hm s)

variable [Std.Refl R]

/-- A body that raises before it has written anything. -/
theorem Within.of_atomic {m : Tx σ ε α} (h : ∀ s, m.Atomic s fun _ s' => R s s') : m.Within R := by
  intro s
  rcases yields_or_fails m s with ⟨a, s', returned⟩ | ⟨e, s', raised⟩
  · have stop : (m s).2 = s' := congrArg Prod.snd returned
    exact stop ▸ (h s).returns returned
  · have stop : (m s).2 = s' := congrArg Prod.snd raised
    rw [stop, (h s).raises raised]
    exact Std.Refl.refl s

/-- A body that only reads. -/
theorem Within.of_reads (hm : m.Within Eq) : m.Within R := fun s => hm s ▸ Std.Refl.refl s

theorem Within.pure (a : α) : (Pure.pure a : Tx σ ε α).Within R := fun _ => Std.Refl.refl _

theorem Within.raise (e : ε) : (Tx.raise e : Tx σ ε α).Within R := fun _ => Std.Refl.refl _

theorem Within.read (f : σ → α) : (Tx.read f : Tx σ ε α).Within R := fun _ => Std.Refl.refl _

theorem Within.require (c : Prop) [Decidable c] (e : ε) :
    (Tx.require c e : Tx σ ε Unit).Within R := .ite (.pure ()) (.raise e)

theorem Within.unwrap (o : Option α) (e : ε) : (Tx.unwrap o e : Tx σ ε α).Within R := by
  cases o with
  | none => exact .raise e
  | some a => exact .pure a

/-- A body that depends on a value may use where the value comes from. -/
theorem Within.unwrap_bind {o : Option α} {e : ε} {k : α → Tx σ ε β}
    (hk : ∀ a, o = some a → (k a).Within R) : (Tx.unwrap o e >>= k).Within R := by
  cases o with
  | none => exact fun _ => Std.Refl.refl _
  | some a => exact hk a rfl

theorem Within.atomically (hm : m.Within R) : (Tx.atomically m).Within R := by
  intro s
  have body := hm s
  unfold Tx.atomically
  cases h : m s with
  | mk result t =>
    rw [h] at body
    cases result with
    | ok a => exact body
    | error e => exact Std.Refl.refl s

theorem Within.forEach [IsTrans σ R] {rows : List ρ} {acc : β} {f : β → ρ → Tx σ ε β}
    (hf : ∀ acc r, (f acc r).Within R) : (Tx.forEach rows acc f).Within R := by
  induction rows generalizing acc with
  | nil => exact .pure acc
  | cons r rest ih => exact (hf acc r).bind fun _ => ih

end Within

end Tx

/-- A refusal that did not happen. -/
theorem refuse_eq_ok {ε α : Type} {c : Prop} [Decidable c] {e : ε} {x : Except ε α} {a : α} :
    (if c then .error e else x) = .ok a ↔ ¬ c ∧ x = .ok a := by
  by_cases h : c
  · simp [h]
  · simp [h]

end Transaction
