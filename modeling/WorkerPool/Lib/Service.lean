import WorkerPool.Lib.Threads

/-!
# Programs over a service

A service answers a request in one of several ways, and may change its state whatever it
answers. Calls are in flight at once over one service. A call assures its outcome where it
holds whatever the answers, as long as the state changes in between as it relies on.
-/

namespace Service

open Transition Threads

/-- The answers to a request in a state, each with the state behind it. -/
abbrev Answers (σ ε Q : Type) (R : Q → Type) : Type := (q : Q) → σ → Except ε (R q) → σ → Prop

variable {σ ε Q : Type} {R : Q → Type} {α β ι κ : Type}

section System

variable (init : σ → Prop) (answers : Answers σ ε Q R) (body : ι → Program ε Q R α)
  (around : σ → κ → σ → Prop)

inductive Step : World σ ε Q R α ι → Label ι κ → World σ ε Q R α ι → Prop
  | call {w} (op : ι) : Step w (.call op) { w with threads := w.threads ++ [⟨op, [], body op⟩] }
  | run {w place th q k r s} (found : w.threads[place]? = some th) (next : th.rest = .ask q k)
      (answer : answers q w.shared r s) :
      Step w (.run place) ⟨s, w.threads.set place ⟨th.op, q :: th.asked, k r⟩⟩
  | leave {w} (place : Nat) : Step w (.leave place) { w with threads := w.threads.eraseIdx place }
  | around {w e s} (change : around w.shared e s) : Step w (.around e) { w with shared := s }

def system : System (World σ ε Q R α ι) (Label ι κ) where
  init w := init w.shared ∧ w.threads = []
  step := Step answers body around

end System

/-- As long as the others change the state within `rely`, each change that an answer makes is
within `guarantee`, and the outcome, until it is used, is one that `post` permits. -/
def Assures (answers : Answers σ ε Q R) (rely guarantee : σ → σ → Prop)
    (post : Except ε α → σ → Prop) : Program ε Q R α → σ → Prop
  | .done a, s => ∀ t, rely s t → post (.ok a) t
  | .raise e, s => ∀ t, rely s t → post (.error e) t
  | .ask q k, s => ∀ t, rely s t → ∀ r u, answers q t r u →
      guarantee t u ∧ Assures answers rely guarantee post (k r) u

section Assures

variable {answers : Answers σ ε Q R} {rely guarantee : σ → σ → Prop} {s t : σ}

theorem Assures.stable [IsTrans σ rely] {post : Except ε α → σ → Prop} {p : Program ε Q R α}
    (h : Assures answers rely guarantee post p s) (others : rely s t) :
    Assures answers rely guarantee post p t := by
  cases p with
  | done a => exact fun u next => h u (IsTrans.trans _ _ _ others next)
  | raise e => exact fun u next => h u (IsTrans.trans _ _ _ others next)
  | ask q k => exact fun u next => h u (IsTrans.trans _ _ _ others next)

theorem Assures.mono {post post' : Except ε α → σ → Prop} {p : Program ε Q R α}
    (h : Assures answers rely guarantee post p s) (weaker : ∀ r t, post r t → post' r t) :
    Assures answers rely guarantee post' p s := by
  induction p generalizing s with
  | done a => exact fun t others => weaker _ _ (h t others)
  | raise e => exact fun t others => weaker _ _ (h t others)
  | ask q k ih =>
    exact fun t others r u answer => ⟨(h t others r u answer).1, ih _ (h t others r u answer).2⟩

theorem Assures.bind [Std.Refl rely] {post : Except ε β → σ → Prop} {p : Program ε Q R α}
    {k : α → Program ε Q R β}
    (h : Assures answers rely guarantee (fun r t =>
      match r with
      | .ok a => Assures answers rely guarantee post (k a) t
      | .error e => ∀ u, rely t u → post (.error e) u) p s) :
    Assures answers rely guarantee post (p >>= k) s := by
  induction p generalizing s with
  | done a => exact h s (Std.Refl.refl s)
  | raise e => exact fun t others => h s (Std.Refl.refl s) t others
  | ask q rest ih =>
    exact fun t others r u answer => ⟨(h t others r u answer).1, ih _ (h t others r u answer).2⟩

theorem Assures.handle [Std.Refl rely] {post : Except ε α → σ → Prop} {p : Program ε Q R α}
    {handler : ε → Program ε Q R α}
    (h : Assures answers rely guarantee (fun r t =>
      match r with
      | .ok a => ∀ u, rely t u → post (.ok a) u
      | .error e => Assures answers rely guarantee post (handler e) t) p s) :
    Assures answers rely guarantee post (p.handle handler) s := by
  induction p generalizing s with
  | done a => exact fun t others => h s (Std.Refl.refl s) t others
  | raise e => exact h s (Std.Refl.refl s)
  | ask q rest ih =>
    exact fun t others r u answer => ⟨(h t others r u answer).1, ih _ (h t others r u answer).2⟩

theorem Assures.request {q : Q} {post : Except ε (R q) → σ → Prop}
    (h : ∀ t, rely s t → ∀ r u, answers q t r u →
      guarantee t u ∧ ∀ v, rely u v → post r v) :
    Assures answers rely guarantee post (Program.request q) s := by
  intro t others r u answer
  obtain ⟨change, after⟩ := h t others r u answer
  cases r with
  | ok a => exact ⟨change, after⟩
  | error e => exact ⟨change, after⟩

theorem Assures.ofExcept {x : Except ε α} {post : Except ε α → σ → Prop}
    (h : ∀ t, rely s t → post x t) :
    Assures answers rely guarantee post (Program.ofExcept x) s := by
  cases x with
  | ok a => exact h
  | error e => exact h

theorem Assures.need {c : Prop} [Decidable c] {e : ε} {post : Except ε Unit → σ → Prop}
    (holds : c → ∀ t, rely s t → post (.ok ()) t)
    (fails : ¬ c → ∀ t, rely s t → post (.error e) t) :
    Assures answers rely guarantee post (Program.need c e : Program ε Q R Unit) s := by
  unfold Program.need
  split
  · rename_i h
    exact holds h
  · rename_i h
    exact fails h

/-- Every change is within the guarantee where each answer is. -/
theorem Assures.of_within {p : Program ε Q R α} (within : ∀ q t r u, answers q t r u → guarantee t u) :
    Assures answers rely guarantee (fun _ _ => True) p s := by
  induction p generalizing s with
  | done a => exact fun _ _ => trivial
  | raise e => exact fun _ _ => trivial
  | ask q k ih => exact fun t _ r u answer => ⟨within q t r u answer, ih _⟩

end Assures

section Calls

variable {init : σ → Prop} {answers : Answers σ ε Q R} {body : ι → Program ε Q R α}
  {around : σ → κ → σ → Prop} {rely guarantee : σ → σ → Prop}
  {post : ι → Except ε α → σ → Prop}

variable [Std.Refl rely] [IsTrans σ rely]

/-- What each call assures, from whatever state it begins in, every call in flight assures from
where it is; and the shared state changes only as the calls rely on. -/
theorem assured (bodies : ∀ op s, Assures answers rely guarantee (post op) (body op) s)
    (shared : ∀ s t, guarantee s t → rely s t) (others : ∀ s e t, around s e t → rely s t)
    {w w' : World σ ε Q R α ι} (steps : (system init answers body around).Steps w w')
    (h : ∀ th ∈ w.threads, Assures answers rely guarantee (post th.op) th.rest w.shared) :
    (∀ th ∈ w'.threads, Assures answers rely guarantee (post th.op) th.rest w'.shared) ∧
      rely w.shared w'.shared := by
  induction steps with
  | refl => exact ⟨h, Std.Refl.refl _⟩
  | tail _ step ih =>
    obtain ⟨holds, before⟩ := ih
    cases step with
    | call op =>
      refine ⟨fun th inside => ?_, before⟩
      rcases List.mem_append.mp inside with old | new
      · exact holds th old
      · rw [List.mem_singleton.mp new]
        exact bodies op _
    | @run place mine q k r s found next answer =>
      have here := holds mine (List.mem_of_getElem? found)
      rw [next] at here
      obtain ⟨change, after⟩ := here _ (Std.Refl.refl _) r s answer
      refine ⟨fun th inside => ?_, IsTrans.trans _ _ _ before (shared _ _ change)⟩
      rcases List.mem_or_eq_of_mem_set inside with old | rfl
      · exact (holds th old).stable (shared _ _ change)
      · exact after
    | leave place => exact ⟨fun th inside => holds th (List.mem_of_mem_eraseIdx inside), before⟩
    | around change =>
      have grows := others _ _ _ change
      exact ⟨fun th inside => (holds th inside).stable grows, IsTrans.trans _ _ _ before grows⟩

end Calls

end Service
