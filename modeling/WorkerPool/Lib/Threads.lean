import WorkerPool.Lib.Program
import WorkerPool.Lib.Transition

/-!
# Threads that share a state

Calls in flight at once over one state. A thread makes one request at a time, and may be
interrupted by every other thread and by the surroundings in between.
-/

namespace Threads

open Transition

/-- A call, the requests it has made so far (the last one first) and what is left of it. -/
structure Thread (ε Q : Type) (R : Q → Type) (α ι : Type) where
  op : ι
  asked : List Q
  rest : Program ε Q R α

structure World (σ ε Q : Type) (R : Q → Type) (α ι : Type) where
  shared : σ
  threads : List (Thread ε Q R α ι)

/-- A call begins; the thread at a place makes its next request, or is gone, whether it has
returned, has raised or has been killed; or the surroundings take a step. -/
inductive Label (ι κ : Type) where
  | call (op : ι)
  | run (place : Nat)
  | leave (place : Nat)
  | around (e : κ)

variable {σ ε Q : Type} {R : Q → Type} {α ι κ : Type}

section System

variable (init : σ → Prop) (exec : (q : Q) → σ → Except ε (R q) × σ) (body : ι → Program ε Q R α)
  (around : σ → κ → σ → Prop)

inductive Step : World σ ε Q R α ι → Label ι κ → World σ ε Q R α ι → Prop
  | call {w} (op : ι) : Step w (.call op) { w with threads := w.threads ++ [⟨op, [], body op⟩] }
  | run {w place th q k} (found : w.threads[place]? = some th) (next : th.rest = .ask q k) :
      Step w (.run place) ⟨(exec q w.shared).2,
        w.threads.set place ⟨th.op, q :: th.asked, k (exec q w.shared).1⟩⟩
  | leave {w} (place : Nat) : Step w (.leave place) { w with threads := w.threads.eraseIdx place }
  | around {w e s} (change : around w.shared e s) : Step w (.around e) { w with shared := s }

def system : System (World σ ε Q R α ι) (Label ι κ) where
  init w := init w.shared ∧ w.threads = []
  step := Step exec body around

end System

/-- The step is that a thread makes the request. -/
def World.Asks (w : World σ ε Q R α ι) (l : Label ι κ) (q : Q) : Prop :=
  ∃ place th k, l = .run place ∧ w.threads[place]? = some th ∧ th.rest = .ask q k

/-! ### Runs that can be evaluated -/

section Evaluated

variable {good : World σ ε Q R α ι → Label ι κ → World σ ε Q R α ι → Prop}

/-- The thread at a place makes its next request, if it has one. -/
def World.run (exec : (q : Q) → σ → Except ε (R q) × σ) (w : World σ ε Q R α ι) (place : Nat) :
    World σ ε Q R α ι :=
  match w.threads[place]? with
  | some ⟨op, asked, .ask q k⟩ => ⟨(exec q w.shared).2,
      w.threads.set place ⟨op, q :: asked, k (exec q w.shared).1⟩⟩
  | _ => w

/-- The request that the thread at a place makes next. -/
def World.next (w : World σ ε Q R α ι) (place : Nat) : Option Q :=
  match w.threads[place]? with
  | some ⟨_, _, .ask q _⟩ => some q
  | _ => none

/-- The threads at these places make their requests in turn. -/
def World.runs (exec : (q : Q) → σ → Except ε (R q) × σ) (w : World σ ε Q R α ι) :
    List Nat → World σ ε Q R α ι
  | [] => w
  | place :: rest => World.runs exec (w.run exec place) rest

/-- Some calls begin over a state. -/
def World.begin (body : ι → Program ε Q R α) (s : σ) (ops : List ι) : World σ ε Q R α ι :=
  ⟨s, ops.map fun op => ⟨op, [], body op⟩⟩

variable (init : σ → Prop) (exec : (q : Q) → σ → Except ε (R q) × σ) (body : ι → Program ε Q R α)
  (around : σ → κ → σ → Prop)

theorem asks_run_iff {w : World σ ε Q R α ι} {place : Nat} {q : Q} :
    w.Asks (.run place : Label ι κ) q ↔ w.next place = some q := by
  unfold World.next
  constructor
  · rintro ⟨_, ⟨op, asked, rest⟩, k, ⟨⟩, found, next⟩
    cases next
    rw [found]
  · intro h
    split at h
    · rename_i op asked q' k found
      cases h
      exact ⟨place, _, k, rfl, found, rfl⟩
    · cases h

theorem step_next {w : World σ ε Q R α ι} {place : Nat} {q : Q} (h : w.next place = some q) :
    (system init exec body around).step w (.run place) (w.run exec place) := by
  have asks : w.Asks (.run place : Label ι κ) q := asks_run_iff.mpr h
  obtain ⟨_, ⟨op, asked, rest⟩, k, ⟨⟩, found, next⟩ := asks
  cases next
  unfold World.run
  rw [found]
  exact .run found rfl

theorem length_run (w : World σ ε Q R α ι) (place : Nat) :
    (w.run exec place).threads.length = w.threads.length := by
  unfold World.run
  split
  · exact List.length_set
  · rfl

theorem length_runs (w : World σ ε Q R α ι) (places : List Nat) :
    (w.runs exec places).threads.length = w.threads.length := by
  induction places generalizing w with
  | nil => rfl
  | cons place rest ih => exact (ih _).trans (length_run exec w place)

theorem steps_run {w : World σ ε Q R α ι} {place : Nat}
    (allowed : ∀ w', good w (.run place) w') :
    ((system init exec body around).restrict good).Steps w (w.run exec place) := by
  unfold World.run
  split
  · rename_i op asked q k found
    exact .single ⟨.run found rfl, allowed _⟩
  · exact .refl w

theorem steps_runs (w : World σ ε Q R α ι) (places : List Nat)
    (allowed : ∀ u place u', u.threads.length = w.threads.length → good u (.run place) u') :
    ((system init exec body around).restrict good).Steps w (w.runs exec places) := by
  induction places generalizing w with
  | nil => exact .refl w
  | cons place rest ih =>
    refine .trans (steps_run init exec body around fun w' => allowed w place w' rfl) (ih _ ?_)
    intro u at_ u' same
    exact allowed u at_ u' (same.trans (length_run exec w place))

theorem steps_begin (s : σ) (ops : List ι)
    (allowed : ∀ u op u', good u (.call op) u') (before : List (Thread ε Q R α ι)) :
    ((system init exec body around).restrict good).Steps ⟨s, before⟩
      ⟨s, before ++ (World.begin body s ops).threads⟩ := by
  induction ops generalizing before with
  | nil =>
    rw [World.begin, List.map_nil, List.append_nil]
    exact .refl _
  | cons op rest ih =>
    have first : ((system init exec body around).restrict good).Steps ⟨s, before⟩
        ⟨s, before ++ [⟨op, [], body op⟩]⟩ := .single ⟨.call op, allowed _ _ _⟩
    have others := ih (before ++ [⟨op, [], body op⟩])
    rw [List.append_assoc] at others
    exact first.trans others

theorem steps_on (w : World σ ε Q R α ι) (places : List Nat) :
    (system init exec body around).Steps w (w.runs exec places) := by
  have ran : ((system init exec body around).restrict fun _ _ _ => True).Steps w
      (w.runs exec places) := steps_runs _ _ _ _ w places fun _ _ _ _ => trivial
  exact ran.of_restrict

/-- Each request in turn passes a test on the state in which it is made. -/
def World.allows (exec : (q : Q) → σ → Except ε (R q) × σ) (ok : Q → σ → Bool)
    (w : World σ ε Q R α ι) : List Nat → Bool
  | [] => true
  | place :: rest => ((w.next place).all fun q => ok q w.shared) &&
      World.allows exec ok (w.run exec place) rest

theorem steps_allowed {ok : Q → σ → Bool} {w : World σ ε Q R α ι} {places : List Nat}
    (sound : ∀ u place u', (∀ q, u.next place = some q → ok q u.shared = true) →
      good u (.run place) u') (h : w.allows exec ok places = true) :
    ((system init exec body around).restrict good).Steps w (w.runs exec places) := by
  induction places generalizing w with
  | nil => exact .refl w
  | cons place rest ih =>
    obtain ⟨first, later⟩ := Bool.and_eq_true_iff.mp h
    refine .trans (steps_run init exec body around fun w' => sound w place w' fun q next => ?_)
      (ih later)
    rw [next] at first
    exact first

theorem ops_run (w : World σ ε Q R α ι) (place : Nat) :
    (w.run exec place).threads.map Thread.op = w.threads.map Thread.op := by
  unfold World.run
  split
  · rename_i op asked q k found
    refine List.ext_getElem? fun i => ?_
    rw [List.getElem?_map, List.getElem?_map]
    by_cases same : place = i
    · subst same
      rw [List.getElem?_set_self (List.getElem?_eq_some_iff.mp found).1, found]
      rfl
    · rw [List.getElem?_set_ne same]
  · rfl

theorem ops_runs (w : World σ ε Q R α ι) (places : List Nat) :
    (w.runs exec places).threads.map Thread.op = w.threads.map Thread.op := by
  induction places generalizing w with
  | nil => rfl
  | cons place rest ih => exact (ih _).trans (ops_run exec w place)

/-- What the call at a place has returned. -/
def World.returned (w : World σ ε Q R α ι) (place : Nat) : Option α :=
  match w.threads[place]? with
  | some ⟨_, _, .done a⟩ => some a
  | _ => none

theorem returned_thread {s : σ} {ops : List ι} {places : List Nat} {place : Nat} {a : α} {op : ι}
    (called : ops[place]? = some op)
    (h : ((World.begin body s ops).runs exec places).returned place = some a) :
    ∃ th ∈ ((World.begin body s ops).runs exec places).threads, th.op = op ∧ th.rest = .done a := by
  unfold World.returned at h
  split at h
  · rename_i op' asked a' found
    cases h
    refine ⟨_, List.mem_of_getElem? found, ?_, rfl⟩
    have begun : ((World.begin body s ops).threads.map Thread.op)[place]? = some op := by
      simp [World.begin, called]
    rw [← ops_runs exec (World.begin body s ops) places, List.getElem?_map, found] at begun
    exact Option.some.inj begun
  · cases h

/-- Calls begin together and make their requests in some order. -/
theorem steps_together (s : σ) (ops : List ι) (places : List Nat) :
    (system init exec body around).Steps ⟨s, []⟩ ((World.begin body s ops).runs exec places) := by
  have begun : ((system init exec body around).restrict fun _ _ _ => True).Steps ⟨s, []⟩
      (World.begin body s ops) := steps_begin _ _ _ _ s ops (fun _ _ _ => trivial) []
  exact begun.of_restrict.trans (steps_on init exec body around _ places)

/-- The state after the first requests of a call that nobody interrupts. -/
def alone (exec : (q : Q) → σ → Except ε (R q) × σ) (body : ι → Program ε Q R α) (requests : Nat)
    (s : σ) (op : ι) : σ :=
  ((World.begin body s [op]).runs exec (List.replicate requests 0)).shared

theorem steps_alone {s : σ} {op : ι} {requests : Nat}
    (called : ∀ u op u', good u (.call op) u') (left : ∀ u place u', good u (.leave place) u')
    (allowed : ∀ u place u', u.threads.length = 1 → good u (.run place) u') :
    ((system init exec body around).restrict good).Steps ⟨s, []⟩
      ⟨alone exec body requests s op, []⟩ := by
  have begun := steps_begin init exec body around s [op] called []
  have ran := steps_runs init exec body around (World.begin body s [op])
    (List.replicate requests 0) fun u place u' same => allowed u place u' same
  refine (begun.trans ran).trans (.single ⟨?_, left _ 0 _⟩)
  have last : ((World.begin body s [op]).runs exec (List.replicate requests 0)).threads.eraseIdx 0 =
      [] := by
    refine List.eq_nil_of_length_eq_zero ?_
    rw [List.length_eraseIdx, length_runs exec]
    rfl
  have step : Step exec body around ((World.begin body s [op]).runs exec (List.replicate requests 0))
      (.leave 0) _ := .leave 0
  rw [last] at step
  exact step

end Evaluated

section Only

variable {init : σ → Prop} {exec : (q : Q) → σ → Except ε (R q) × σ} {body : ι → Program ε Q R α}
  {around : σ → κ → σ → Prop} {permitted : Q → Prop}

/-- Where each body makes permitted requests only, every thread goes on with such. -/
theorem only_permitted {w : World σ ε Q R α ι} (bodies : ∀ op, (body op).Only permitted)
    (h : (system init exec body around).Reachable w) : ∀ th ∈ w.threads, th.rest.Only permitted := by
  refine h.invariant (P := fun w => ∀ th ∈ w.threads, th.rest.Only permitted) ?_ ?_
  · rintro w ⟨-, started⟩ th hth
    rw [started] at hth
    cases hth
  · intro w l w' holds step
    cases step with
    | call op =>
      intro th hth
      rcases List.mem_append.mp hth with old | new
      · exact holds th old
      · rw [List.mem_singleton.mp new]
        exact bodies op
    | run found next =>
      intro th hth
      rcases List.mem_or_eq_of_mem_set hth with old | rfl
      · exact holds th old
      · have mine := holds _ (List.mem_of_getElem? found)
        rw [next] at mine
        exact mine.ask.2 _
    | leave place => exact fun th hth => holds th (List.mem_of_mem_eraseIdx hth)
    | around change => exact holds

theorem asks_permitted {w : World σ ε Q R α ι} {l : Label ι κ} {q : Q}
    (bodies : ∀ op, (body op).Only permitted) (h : (system init exec body around).Reachable w)
    (asks : w.Asks l q) : permitted q := by
  obtain ⟨place, th, k, -, found, next⟩ := asks
  have mine := only_permitted bodies h th (List.mem_of_getElem? found)
  rw [next] at mine
  exact mine.ask.1

/-- A step leaves the shared state alone, answers the request that it makes, or is one of the
surroundings. -/
theorem Step.shared {w w' : World σ ε Q R α ι} {l : Label ι κ} (step : Step exec body around w l w') :
    w'.shared = w.shared ∨ (∃ q, w.Asks l q ∧ w'.shared = (exec q w.shared).2) ∨
      ∃ e, around w.shared e w'.shared := by
  cases step with
  | call op => exact .inl rfl
  | run found next => exact .inr (.inl ⟨_, ⟨_, _, _, rfl, found, next⟩, rfl⟩)
  | leave place => exact .inl rfl
  | around change => exact .inr (.inr ⟨_, change⟩)

end Only

/-- The same steps, where each request that is made has the same answer. -/
theorem Step.congr {exec exec' : (q : Q) → σ → Except ε (R q) × σ} {body : ι → Program ε Q R α}
    {around : σ → κ → σ → Prop} {w w' : World σ ε Q R α ι} {l : Label ι κ}
    (step : Step exec body around w l w')
    (same : ∀ q, w.Asks l q → exec' q w.shared = exec q w.shared) : Step exec' body around w l w' := by
  cases step with
  | call op => exact .call op
  | @run place th q k found next =>
    rw [← same q ⟨place, th, k, rfl, found, next⟩]
    exact .run found next
  | leave place => exact .leave place
  | around change => exact .around change

section Sound

variable {init : σ → Prop} {exec : (q : Q) → σ → Except ε (R q) × σ} {body : ι → Program ε Q R α}
  {around : σ → κ → σ → Prop} {rely guarantee : ι → σ → σ → Prop}
  {post : ι → Except ε α → σ → Prop}
  {good : World σ ε Q R α ι → Label ι κ → World σ ε Q R α ι → Prop}

/-- A thread that has made no request is at its beginning; one under way secures its outcome
from where it is. -/
structure Thread.Secured (exec : (q : Q) → σ → Except ε (R q) × σ) (body : ι → Program ε Q R α)
    (rely guarantee : ι → σ → σ → Prop) (post : ι → Except ε α → σ → Prop)
    (th : Thread ε Q R α ι) (s : σ) : Prop where
  fresh : th.asked = [] → th.rest = body th.op
  begun : th.asked ≠ [] →
    th.rest.Secures exec (rely th.op) (guarantee th.op) (post th.op) s

/-- What the steps of a restricted system give each thread: the change that another thread
makes by its request, and each change of the surroundings, is one that a thread under way
relies on. -/
structure Respected (exec : (q : Q) → σ → Except ε (R q) × σ)
    (rely guarantee : ι → σ → σ → Prop)
    (good : World σ ε Q R α ι → Label ι κ → World σ ε Q R α ι → Prop)
    (around : σ → κ → σ → Prop) : Prop where
  others : ∀ w place w' mine q k, good w (.run place) w' → w.threads[place]? = some mine →
    mine.rest = .ask q k → guarantee mine.op w.shared (exec q w.shared).2 →
    ∀ other th, other ≠ place → w.threads[other]? = some th → th.asked ≠ [] →
      rely th.op w.shared (exec q w.shared).2
  surroundings : ∀ w e t, good w (.around e) { w with shared := t } → around w.shared e t →
    ∀ op, rely op w.shared t

/-- Each body secures its outcome, whatever the state it begins in. -/
def Bodies (exec : (q : Q) → σ → Except ε (R q) × σ) (body : ι → Program ε Q R α)
    (rely guarantee : ι → σ → σ → Prop) (post : ι → Except ε α → σ → Prop) : Prop :=
  ∀ op s, (body op).Secures exec (rely op) (guarantee op) (post op) s

/-- The request of a secured thread is within its guarantee, and leaves it secured. -/
theorem Thread.Secured.run [∀ op, Std.Refl (rely op)] {th : Thread ε Q R α ι} {s : σ} {q : Q} {k}
    (begins : (body th.op).Secures exec (rely th.op) (guarantee th.op) (post th.op) s)
    (h : th.Secured exec body rely guarantee post s) (next : th.rest = .ask q k) :
    guarantee th.op s (exec q s).2 ∧
      (k (exec q s).1).Secures exec (rely th.op) (guarantee th.op) (post th.op) (exec q s).2 := by
  have secured : th.rest.Secures exec (rely th.op) (guarantee th.op) (post th.op) s := by
    by_cases fresh : th.asked = []
    · rw [h.fresh fresh]
      exact begins
    · exact h.begun fresh
  rw [next] at secured
  exact secured s (Std.Refl.refl s)

variable [∀ op, IsTrans σ (rely op)]

theorem Thread.Secured.stable {th : Thread ε Q R α ι} {s t : σ}
    (h : th.Secured exec body rely guarantee post s) (others : th.asked ≠ [] → rely th.op s t) :
    th.Secured exec body rely guarantee post t :=
  ⟨h.fresh, fun begun => (h.begun begun).stable (others begun)⟩

variable [∀ op, Std.Refl (rely op)]

/-- Each step keeps every thread secured. -/
theorem Step.secured {w w' : World σ ε Q R α ι} {l : Label ι κ}
    (begins : ∀ op, (body op).Secures exec (rely op) (guarantee op) (post op) w.shared)
    (respected : Respected exec rely guarantee good around)
    (h : ∀ th ∈ w.threads, th.Secured exec body rely guarantee post w.shared)
    (step : Step exec body around w l w') (allowed : good w l w') :
    ∀ th ∈ w'.threads, th.Secured exec body rely guarantee post w'.shared := by
  cases step with
  | call op =>
    intro th hth
    rcases List.mem_append.mp hth with old | new
    · exact h th old
    · rw [List.mem_singleton.mp new]
      exact ⟨fun _ => rfl, fun begun => absurd rfl begun⟩
  | @run place mine q k found next =>
    have secured := h mine (List.mem_of_getElem? found)
    obtain ⟨change, after⟩ := secured.run (begins mine.op) next
    intro th hth
    obtain ⟨other, here⟩ := List.mem_iff_getElem?.mp hth
    by_cases same : place = other
    · subst same
      rw [List.getElem?_set_self (List.getElem?_eq_some_iff.mp found).1] at here
      rw [← Option.some.inj here]
      exact ⟨nofun, fun _ => after⟩
    · rw [List.getElem?_set_ne same] at here
      exact (h th (List.mem_of_getElem? here)).stable fun begun =>
        respected.others w place _ mine q k allowed found next change other th (Ne.symm same) here begun
  | leave place =>
    exact fun th hth => h th (List.mem_of_mem_eraseIdx hth)
  | around change =>
    exact fun th hth => (h th hth).stable fun _ =>
      respected.surroundings _ _ _ allowed change th.op

/-- In every state that the restricted system reaches, every thread is secured. -/
theorem secured {w : World σ ε Q R α ι} (bodies : Bodies exec body rely guarantee post)
    (respected : Respected exec rely guarantee good around)
    (h : ((system init exec body around).restrict good).Reachable w) :
    ∀ th ∈ w.threads, th.Secured exec body rely guarantee post w.shared := by
  refine h.invariant (P := fun w => ∀ th ∈ w.threads,
    th.Secured exec body rely guarantee post w.shared) ?_ ?_
  · rintro w ⟨-, none_yet⟩ th hth
    rw [none_yet] at hth
    cases hth
  · rintro w l w' holds ⟨step, allowed⟩
    exact step.secured (fun op => bodies op w.shared) respected holds allowed

/-- Threads that are secured stay so, as long as each call begins where it can be. -/
theorem secured_since {w w' : World σ ε Q R α ι}
    (begins : ∀ u l v, good u l v →
      ∀ op, (body op).Secures exec (rely op) (guarantee op) (post op) u.shared)
    (respected : Respected exec rely guarantee good around)
    (h : ∀ th ∈ w.threads, th.Secured exec body rely guarantee post w.shared)
    (steps : ((system init exec body around).restrict good).Steps w w') :
    ∀ th ∈ w'.threads, th.Secured exec body rely guarantee post w'.shared := by
  refine steps.preserves (P := fun w => ∀ th ∈ w.threads,
    th.Secured exec body rely guarantee post w.shared) ?_ h
  rintro u l v holds ⟨step, allowed⟩
  exact step.secured (begins u l v allowed) respected holds allowed

/-- What a step of the restricted system does to the shared state: nothing, what one thread
guarantees, or what the surroundings do. -/
theorem changes {w w' : World σ ε Q R α ι} {l : Label ι κ}
    (bodies : Bodies exec body rely guarantee post)
    (respected : Respected exec rely guarantee good around)
    (h : ((system init exec body around).restrict good).Reachable w)
    (step : ((system init exec body around).restrict good).step w l w') :
    w'.shared = w.shared ∨ (∃ op, guarantee op w.shared w'.shared) ∨
      ∃ e, around w.shared e w'.shared := by
  have holds := secured bodies respected h
  cases step.1 with
  | call op => exact .inl rfl
  | run found next =>
    have mine := holds _ (List.mem_of_getElem? found)
    exact .inr (.inl ⟨_, (mine.run (bodies _ _) next).1⟩)
  | leave place => exact .inl rfl
  | around change => exact .inr (.inr ⟨_, change⟩)

end Sound

end Threads
