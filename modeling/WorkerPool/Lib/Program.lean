import Mathlib

/-!
# Programs that make requests

A program makes requests of its surroundings one after the other. Each request is
answered with a reply or with an exception, and the rest of the program depends on the
answer. A program is judged without its surroundings: by the order of its requests, over
all answers, or by what it relies on from those who share its state.
-/

/-- `ε` are the exceptions, `Q` the requests, `R q` the replies to the request `q`. -/
inductive Program (ε Q : Type) (R : Q → Type) (α : Type)
  | done (a : α)
  | raise (e : ε)
  | ask (q : Q) (k : Except ε (R q) → Program ε Q R α)

namespace Program

variable {ε Q : Type} {R : Q → Type} {α β : Type}

protected def bind : Program ε Q R α → (α → Program ε Q R β) → Program ε Q R β
  | done a, k => k a
  | raise e, _ => raise e
  | ask q rest, k => ask q fun r => (rest r).bind k

instance : Monad (Program ε Q R) where
  pure := done
  bind := Program.bind

/-- One request, whose exception is raised. -/
def request (q : Q) : Program ε Q R (R q) :=
  ask q fun
    | .ok r => done r
    | .error e => raise e

/-- `try … except`: the handler sees every exception and may raise it again. -/
def handle : Program ε Q R α → (ε → Program ε Q R α) → Program ε Q R α
  | done a, _ => done a
  | raise e, h => h e
  | ask q k, h => ask q fun r => (k r).handle h

/-- `try … finally`: the last part runs whatever the outcome, and may raise in its place. -/
def andFinally : Program ε Q R α → Program ε Q R Unit → Program ε Q R α
  | done a, last => last.bind fun _ => done a
  | raise e, last => last.bind fun _ => raise e
  | ask q k, last => ask q fun r => (k r).andFinally last

def need (c : Prop) [Decidable c] (e : ε) : Program ε Q R Unit :=
  if c then done () else raise e

def ofExcept : Except ε α → Program ε Q R α
  | .ok a => done a
  | .error e => raise e

def unwrap (o : Option α) (e : ε) : Program ε Q R α :=
  match o with
  | some a => done a
  | none => raise e

instance : MonadLift (Except ε) (Program ε Q R) where
  monadLift := ofExcept

/-! ### The order of requests -/

/-- A request with its answer. -/
abbrev Event (ε Q : Type) (R : Q → Type) : Type := (q : Q) × Except ε (R q)

/-- The events of a run, up to any moment of it, the last one first. -/
inductive Runs : Program ε Q R α → List (Event ε Q R) → Program ε Q R α → Prop
  | start (p : Program ε Q R α) : Runs p [] p
  | step {p : Program ε Q R α} {past : List (Event ε Q R)} {q : Q} {k} :
      Runs p past (ask q k) → (r : Except ε (R q)) → Runs p (⟨q, r⟩ :: past) (k r)

/-- Where the past of the run is `past`, each further request is one that `allowed` permits
after its past, and the outcome is one that `post` permits. -/
def Orderly (allowed : List (Event ε Q R) → Q → Prop)
    (post : List (Event ε Q R) → Except ε α → Prop) :
    Program ε Q R α → List (Event ε Q R) → Prop
  | done a, past => post past (.ok a)
  | raise e, past => post past (.error e)
  | ask q k, past => allowed past q ∧ ∀ r, Orderly allowed post (k r) (⟨q, r⟩ :: past)

section Orderly

variable {allowed : List (Event ε Q R) → Q → Prop} {past : List (Event ε Q R)}

theorem Orderly.mono {post post' : List (Event ε Q R) → Except ε α → Prop}
    {p : Program ε Q R α} (h : p.Orderly allowed post past)
    (weaker : ∀ past r, post past r → post' past r) : p.Orderly allowed post' past := by
  induction p generalizing past with
  | done a => exact weaker _ _ h
  | raise e => exact weaker _ _ h
  | ask q k ih => exact ⟨h.1, fun r => ih r (h.2 r)⟩

@[simp] theorem orderly_pure {post : List (Event ε Q R) → Except ε α → Prop} {a : α} :
    (pure a : Program ε Q R α).Orderly allowed post past ↔ post past (.ok a) := Iff.rfl

@[simp] theorem orderly_raise {post : List (Event ε Q R) → Except ε α → Prop} {e : ε} :
    (raise e : Program ε Q R α).Orderly allowed post past ↔ post past (.error e) := Iff.rfl

theorem orderly_bind {post : List (Event ε Q R) → Except ε β → Prop} {p : Program ε Q R α}
    {k : α → Program ε Q R β} :
    (p >>= k).Orderly allowed post past ↔ p.Orderly allowed (fun past r =>
      match r with
      | .ok a => (k a).Orderly allowed post past
      | .error e => post past (.error e)) past := by
  induction p generalizing past with
  | done a => rfl
  | raise e => rfl
  | ask q rest ih =>
    exact and_congr Iff.rfl (forall_congr' fun r => ih r)

theorem orderly_handle {post : List (Event ε Q R) → Except ε α → Prop} {p : Program ε Q R α}
    {h : ε → Program ε Q R α} :
    (p.handle h).Orderly allowed post past ↔ p.Orderly allowed (fun past r =>
      match r with
      | .ok a => post past (.ok a)
      | .error e => (h e).Orderly allowed post past) past := by
  induction p generalizing past with
  | done a => rfl
  | raise e => rfl
  | ask q rest ih =>
    exact and_congr Iff.rfl (forall_congr' fun r => ih r)

theorem orderly_request {post : List (Event ε Q R) → Except ε (R q) → Prop} :
    (request q : Program ε Q R (R q)).Orderly allowed post past ↔
      allowed past q ∧ ∀ r, post (⟨q, r⟩ :: past) r := by
  refine and_congr Iff.rfl (forall_congr' fun r => ?_)
  cases r <;> rfl

theorem orderly_need {post : List (Event ε Q R) → Except ε Unit → Prop} {c : Prop} [Decidable c]
    {e : ε} : (need c e : Program ε Q R Unit).Orderly allowed post past ↔
      (c → post past (.ok ())) ∧ (¬ c → post past (.error e)) := by
  unfold need
  split
  · rename_i h
    exact ⟨fun holds => ⟨fun _ => holds, fun no => absurd h no⟩, fun both => both.1 h⟩
  · rename_i h
    exact ⟨fun fails => ⟨fun yes => absurd yes h, fun _ => fails⟩, fun both => both.2 h⟩

theorem orderly_ofExcept {post : List (Event ε Q R) → Except ε α → Prop} {x : Except ε α} :
    (ofExcept x : Program ε Q R α).Orderly allowed post past ↔ post past x := by
  cases x <;> rfl

@[simp] theorem orderly_lift {post : List (Event ε Q R) → Except ε α → Prop} {x : Except ε α} :
    (liftM x : Program ε Q R α).Orderly allowed post past ↔ post past x := orderly_ofExcept

theorem Orderly.congr {post post' : List (Event ε Q R) → Except ε α → Prop}
    {p : Program ε Q R α} (same : ∀ past r, post past r ↔ post' past r) :
    p.Orderly allowed post past ↔ p.Orderly allowed post' past :=
  ⟨fun h => h.mono fun past r => (same past r).mp, fun h => h.mono fun past r => (same past r).mpr⟩

/-- The outcome is the first one, unless the last part raises. -/
theorem orderly_andFinally {post : List (Event ε Q R) → Except ε α → Prop} {p : Program ε Q R α}
    {last : Program ε Q R Unit} :
    (p.andFinally last).Orderly allowed post past ↔ p.Orderly allowed (fun past r =>
      last.Orderly allowed (fun past done => post past (done.bind fun _ => r)) past) past := by
  induction p generalizing past with
  | done a =>
    refine (orderly_bind (p := last)).trans (Orderly.congr fun past r => ?_)
    cases r <;> rfl
  | raise e =>
    refine (orderly_bind (p := last)).trans (Orderly.congr fun past r => ?_)
    cases r <;> rfl
  | ask q rest ih =>
    exact and_congr Iff.rfl (forall_congr' fun r => ih r)

/-- Along every run of an orderly program each request was permitted after its past. -/
theorem Orderly.runs {post : List (Event ε Q R) → Except ε α → Prop} {p p' : Program ε Q R α}
    (h : p.Orderly allowed post []) (run : Runs p past p') :
    p'.Orderly allowed post past ∧
      ∀ later q r earlier, past = later ++ ⟨q, r⟩ :: earlier → allowed earlier q := by
  induction run with
  | start => exact ⟨h, fun later q r earlier split => by cases later <;> cases split⟩
  | @step past q k _ r ih =>
    obtain ⟨rest, before⟩ := ih
    refine ⟨rest.2 r, fun later q' r' earlier split => ?_⟩
    cases later with
    | nil =>
      cases split
      exact rest.1
    | cons e later =>
      obtain ⟨-, split⟩ := List.cons.inj split
      exact before later q' r' earlier split

/-- A wider permission. -/
theorem Orderly.allow {allowed' : List (Event ε Q R) → Q → Prop} {post : List (Event ε Q R) → Except ε α → Prop}
    {p : Program ε Q R α} (h : p.Orderly allowed post past)
    (wider : ∀ past q, allowed past q → allowed' past q) : p.Orderly allowed' post past := by
  induction p generalizing past with
  | done a => exact h
  | raise e => exact h
  | ask q k ih => exact ⟨wider _ _ h.1, fun r => ih r (h.2 r)⟩

/-- A part, and what follows it. -/
theorem Orderly.bind {m : List (Event ε Q R) → Except ε α → Prop} {post : List (Event ε Q R) → Except ε β → Prop}
    {p : Program ε Q R α} {k : α → Program ε Q R β} (first : p.Orderly allowed m past)
    (returns : ∀ past a, m past (.ok a) → (k a).Orderly allowed post past)
    (raises : ∀ past e, m past (.error e) → post past (.error e)) : (p >>= k).Orderly allowed post past := by
  refine orderly_bind.mpr (first.mono fun past r holds => ?_)
  cases r with
  | ok a => exact returns past a holds
  | error e => exact raises past e holds

theorem Orderly.handle {m post : List (Event ε Q R) → Except ε α → Prop} {p : Program ε Q R α}
    {h : ε → Program ε Q R α} (first : p.Orderly allowed m past)
    (returns : ∀ past a, m past (.ok a) → post past (.ok a))
    (handler : ∀ past e, m past (.error e) → (h e).Orderly allowed post past) :
    (p.handle h).Orderly allowed post past := by
  refine orderly_handle.mpr (first.mono fun past r holds => ?_)
  cases r with
  | ok a => exact returns past a holds
  | error e => exact handler past e holds

theorem Orderly.request {q : Q} {post : List (Event ε Q R) → Except ε (R q) → Prop} (here : allowed past q)
    (answered : ∀ r, post (⟨q, r⟩ :: past) r) : (request q : Program ε Q R (R q)).Orderly allowed post past :=
  orderly_request.mpr ⟨here, answered⟩

/-- A request, and what follows it. -/
theorem Orderly.request_bind {q : Q} {post : List (Event ε Q R) → Except ε β → Prop} {k : R q → Program ε Q R β}
    (here : allowed past q) (returns : ∀ r, (k r).Orderly allowed post (⟨q, .ok r⟩ :: past))
    (raises : ∀ e, post (⟨q, .error e⟩ :: past) (.error e)) :
    ((Program.request q : Program ε Q R (R q)) >>= k).Orderly allowed post past := by
  refine orderly_bind.mpr (.request here fun r => ?_)
  cases r with
  | ok r => exact returns r
  | error e => exact raises e

theorem Orderly.ite {post : List (Event ε Q R) → Except ε α → Prop} {c : Prop} [Decidable c] {p p' : Program ε Q R α}
    (holds : c → p.Orderly allowed post past) (fails : ¬ c → p'.Orderly allowed post past) :
    (if c then p else p').Orderly allowed post past := by
  split
  · rename_i h
    exact holds h
  · rename_i h
    exact fails h

/-- A computation that makes no request, and what follows it. -/
theorem Orderly.lift_bind {x : Except ε α} {post : List (Event ε Q R) → Except ε β → Prop} {k : α → Program ε Q R β}
    (returns : ∀ a, x = .ok a → (k a).Orderly allowed post past) (raises : ∀ e, post past (.error e)) :
    ((liftM x : Program ε Q R α) >>= k).Orderly allowed post past := by
  cases x with
  | ok a => exact returns a rfl
  | error e => exact raises e

end Orderly

/-- Every request of the program, whatever the answers, is a permitted one. -/
def Only (permitted : Q → Prop) (p : Program ε Q R α) : Prop :=
  ∀ past, p.Orderly (fun _ q => permitted q) (fun _ _ => True) past

section Only

variable {permitted : Q → Prop}

/-- A permission that looks at no past holds after every past. -/
theorem Only.of_orderly {p : Program ε Q R α} {past : List (Event ε Q R)}
    (h : p.Orderly (fun _ q => permitted q) (fun _ _ => True) past) : p.Only permitted := by
  induction p generalizing past with
  | done a => exact fun _ => trivial
  | raise e => exact fun _ => trivial
  | ask q k ih => exact fun past' => ⟨h.1, fun r => ih r (h.2 r) _⟩

theorem Only.ask {q : Q} {k : Except ε (R q) → Program ε Q R α}
    (h : (Program.ask q k).Only permitted) : permitted q ∧ ∀ r, (k r).Only permitted :=
  ⟨(h []).1, fun r => .of_orderly ((h []).2 r)⟩

theorem Only.pure (a : α) : (pure a : Program ε Q R α).Only permitted := fun _ => trivial

theorem Only.raise (e : ε) : (raise e : Program ε Q R α).Only permitted := fun _ => trivial

theorem Only.request {q : Q} (h : permitted q) :
    (request q : Program ε Q R (R q)).Only permitted :=
  fun _ => orderly_request.mpr ⟨h, fun _ => trivial⟩

theorem Only.need (c : Prop) [Decidable c] (e : ε) :
    (need c e : Program ε Q R Unit).Only permitted :=
  fun _ => orderly_need.mpr ⟨fun _ => trivial, fun _ => trivial⟩

theorem Only.bind {p : Program ε Q R α} {k : α → Program ε Q R β} (h : p.Only permitted)
    (rest : ∀ a, (k a).Only permitted) : (p >>= k).Only permitted := by
  refine fun past => orderly_bind.mpr ((h past).mono fun past' r _ => ?_)
  cases r with
  | ok a => exact rest a past'
  | error e => trivial

theorem Only.ofExcept (x : Except ε α) : (ofExcept x : Program ε Q R α).Only permitted :=
  fun _ => orderly_ofExcept.mpr trivial

theorem Only.handle {p : Program ε Q R α} {h : ε → Program ε Q R α} (first : p.Only permitted)
    (rest : ∀ e, (h e).Only permitted) : (p.handle h).Only permitted := by
  refine fun past => orderly_handle.mpr ((first past).mono fun past' r _ => ?_)
  cases r with
  | ok a => trivial
  | error e => exact rest e past'

theorem Only.unwrap {o : Option α} {e : ε} {k : α → Program ε Q R β}
    (rest : ∀ a, o = some a → (k a).Only permitted) :
    ((Program.unwrap o e : Program ε Q R α) >>= k).Only permitted := by
  cases o with
  | none => exact .raise e
  | some a => exact rest a rfl

/-- What is true of a past stays true where every permitted request keeps it. -/
theorem Only.kept {K : List (Event ε Q R) → Prop} {p : Program ε Q R α} {past : List (Event ε Q R)}
    (h : p.Only permitted) (grows : ∀ past q r, permitted q → K past → K (⟨q, r⟩ :: past)) (start : K past) :
    p.Orderly (fun past q => permitted q ∧ K past) (fun past _ => K past) past := by
  induction p generalizing past with
  | done a => exact start
  | raise e => exact start
  | ask q k ih =>
    obtain ⟨here, later⟩ := h.ask
    exact ⟨⟨here, start⟩, fun r => ih r (later r) (grows past q r here start)⟩

end Only

/-! ### Running alone -/

/-- The program over a state that nobody else changes, where `exec` answers a request. -/
def eval {σ : Type} (exec : (q : Q) → σ → Except ε (R q) × σ) :
    Program ε Q R α → σ → Except ε α × σ
  | done a, s => (.ok a, s)
  | raise e, s => (.error e, s)
  | ask q k, s => eval exec (k (exec q s).1) (exec q s).2

section Eval

variable {σ : Type} {exec : (q : Q) → σ → Except ε (R q) × σ} {s : σ}

theorem eval_bind {p : Program ε Q R α} {k : α → Program ε Q R β} :
    (p >>= k).eval exec s = match p.eval exec s with
      | (.ok a, t) => (k a).eval exec t
      | (.error e, t) => (.error e, t) := by
  induction p generalizing s with
  | done a => rfl
  | raise e => rfl
  | ask q rest ih => exact ih _

theorem eval_handle {p : Program ε Q R α} {h : ε → Program ε Q R α} :
    (p.handle h).eval exec s = match p.eval exec s with
      | (.ok a, t) => (.ok a, t)
      | (.error e, t) => (h e).eval exec t := by
  induction p generalizing s with
  | done a => rfl
  | raise e => rfl
  | ask q rest ih => exact ih _

theorem eval_request {q : Q} : (request q : Program ε Q R (R q)).eval exec s = exec q s := by
  unfold request
  rw [eval]
  cases h : exec q s with
  | mk r t => cases r <;> rfl

/-- Alone, the program returns. -/
def Returns (exec : (q : Q) → σ → Except ε (R q) × σ) (p : Program ε Q R α) (s : σ) (a : α) (t : σ) :
    Prop := p.eval exec s = (.ok a, t)

theorem returns_bind {p : Program ε Q R α} {k : α → Program ε Q R β} {b : β} {u : σ} :
    (p >>= k).Returns exec s b u ↔ ∃ a t, p.Returns exec s a t ∧ (k a).Returns exec t b u := by
  unfold Returns
  rw [eval_bind]
  cases h : p.eval exec s with
  | mk r t =>
    cases r with
    | ok a =>
      constructor
      · exact fun rest => ⟨a, t, rfl, rest⟩
      · rintro ⟨_, _, same, rest⟩
        cases same
        exact rest
    | error e =>
      constructor
      · exact fun raised => nomatch raised
      · exact fun ⟨_, _, same, _⟩ => nomatch same

theorem returns_pure {a b : α} {t : σ} :
    (pure a : Program ε Q R α).Returns exec s b t ↔ b = a ∧ t = s := by
  constructor
  · intro h
    cases h
    exact ⟨rfl, rfl⟩
  · rintro ⟨rfl, rfl⟩
    rfl

theorem returns_raise {e : ε} {a : α} {t : σ} :
    ¬ (raise e : Program ε Q R α).Returns exec s a t := fun h => nomatch h

theorem returns_request {q : Q} {r : R q} {t : σ} :
    (request q : Program ε Q R (R q)).Returns exec s r t ↔ exec q s = (.ok r, t) := by
  rw [Returns, eval_request]

theorem returns_need {c : Prop} [Decidable c] {e : ε} {u : Unit} {t : σ} :
    (need c e : Program ε Q R Unit).Returns exec s u t ↔ c ∧ t = s := by
  unfold need
  split
  · rename_i h
    exact ⟨fun returned => ⟨h, (returns_pure.mp returned).2⟩, fun both => returns_pure.mpr ⟨rfl, both.2⟩⟩
  · rename_i h
    exact ⟨fun returned => (returns_raise returned).elim, fun both => absurd both.1 h⟩

theorem returns_lift {x : Except ε α} {a : α} {t : σ} :
    (liftM x : Program ε Q R α).Returns exec s a t ↔ x = .ok a ∧ t = s := by
  cases x with
  | ok b =>
    refine returns_pure.trans (and_congr ?_ Iff.rfl)
    exact ⟨fun same => same ▸ rfl, fun same => (Except.ok.inj same).symm⟩
  | error e => exact ⟨fun raised => (returns_raise raised).elim, fun both => nomatch both.1⟩

end Eval

/-! ### Playing against answers -/

/-- Each request is answered by what was asked and answered before it, and is then part of it. -/
def logged (answer : List (Event ε Q R) → (q : Q) → Except ε (R q)) (q : Q)
    (past : List (Event ε Q R)) : Except ε (R q) × List (Event ε Q R) :=
  (answer past q, ⟨q, answer past q⟩ :: past)

section Logged

variable {answer : List (Event ε Q R) → (q : Q) → Except ε (R q)} {past : List (Event ε Q R)}

/-- What an orderly program promises of every run holds of this one. -/
theorem Orderly.outcome {allowed : List (Event ε Q R) → Q → Prop}
    {post : List (Event ε Q R) → Except ε α → Prop} {p : Program ε Q R α}
    (h : p.Orderly allowed post past) :
    post (p.eval (logged answer) past).2 (p.eval (logged answer) past).1 := by
  induction p generalizing past with
  | done a => exact h
  | raise e => exact h
  | ask q k ih => exact ih _ (h.2 (answer past q))

/-- The past is kept, and every later request was permitted. -/
theorem Only.later {permitted : Q → Prop} {p : Program ε Q R α} (h : p.Only permitted) :
    ∃ later, (p.eval (logged answer) past).2 = later ++ past ∧ ∀ e ∈ later, permitted e.1 := by
  induction p generalizing past with
  | done a => exact ⟨[], rfl, fun _ nobody => nomatch nobody⟩
  | raise e => exact ⟨[], rfl, fun _ nobody => nomatch nobody⟩
  | ask q k ih =>
    obtain ⟨first, rest⟩ := h.ask
    obtain ⟨later, grown, each⟩ := @ih (answer past q) (⟨q, answer past q⟩ :: past) (rest _)
    refine ⟨later ++ [⟨q, answer past q⟩], grown.trans (List.append_cons _ _ _), fun e inside => ?_⟩
    rcases List.mem_append.mp inside with early | last
    · exact each e early
    · rw [List.mem_singleton.mp last]
      exact first

end Logged

/-! ### Sharing a state -/

/-- A program that others interrupt between its requests, where `exec` answers a request. As
long as the others change the state within `rely`, each of its own changes is within
`guarantee` and its outcome, until it is used, is one that `post` permits. -/
def Secures {σ : Type} (exec : (q : Q) → σ → Except ε (R q) × σ) (rely guarantee : σ → σ → Prop)
    (post : Except ε α → σ → Prop) : Program ε Q R α → σ → Prop
  | done a, s => ∀ t, rely s t → post (.ok a) t
  | raise e, s => ∀ t, rely s t → post (.error e) t
  | ask q k, s => ∀ t, rely s t → guarantee t (exec q t).2 ∧
      Secures exec rely guarantee post (k (exec q t).1) (exec q t).2

section Secures

variable {σ : Type} {exec : (q : Q) → σ → Except ε (R q) × σ} {rely guarantee : σ → σ → Prop}
  {s t : σ}

/-- What a program secures, it secures whatever the others do meanwhile. -/
theorem Secures.stable [IsTrans σ rely] {post : Except ε α → σ → Prop} {p : Program ε Q R α}
    (h : p.Secures exec rely guarantee post s) (others : rely s t) :
    p.Secures exec rely guarantee post t := by
  cases p with
  | done a => exact fun u next => h u (IsTrans.trans _ _ _ others next)
  | raise e => exact fun u next => h u (IsTrans.trans _ _ _ others next)
  | ask q k => exact fun u next => h u (IsTrans.trans _ _ _ others next)

theorem Secures.mono {post post' : Except ε α → σ → Prop} {p : Program ε Q R α}
    (h : p.Secures exec rely guarantee post s) (weaker : ∀ r t, post r t → post' r t) :
    p.Secures exec rely guarantee post' s := by
  induction p generalizing s with
  | done a => exact fun t others => weaker _ _ (h t others)
  | raise e => exact fun t others => weaker _ _ (h t others)
  | ask q k ih => exact fun t others => ⟨(h t others).1, ih _ (h t others).2⟩

theorem Secures.bind [Std.Refl rely] [IsTrans σ rely] {post : Except ε β → σ → Prop}
    {p : Program ε Q R α} {k : α → Program ε Q R β}
    (h : p.Secures exec rely guarantee (fun r t =>
      match r with
      | .ok a => (k a).Secures exec rely guarantee post t
      | .error e => post (.error e) t) s) :
    (p >>= k).Secures exec rely guarantee post s := by
  induction p generalizing s with
  | done a => exact h s (Std.Refl.refl s)
  | raise e => exact h
  | ask q rest ih => exact fun t others => ⟨(h t others).1, ih _ (h t others).2⟩

theorem Secures.request {q : Q} {post : Except ε (R q) → σ → Prop}
    (h : ∀ t, rely s t → guarantee t (exec q t).2 ∧
      ∀ u, rely (exec q t).2 u → post (exec q t).1 u) :
    (request q : Program ε Q R (R q)).Secures exec rely guarantee post s := by
  refine fun t others => ⟨(h t others).1, ?_⟩
  have after := (h t others).2
  revert after
  cases (exec q t).1 with
  | ok r => exact fun after u next => after u next
  | error e => exact fun after u next => after u next

theorem Secures.ofExcept {x : Except ε α} {post : Except ε α → σ → Prop}
    (h : ∀ t, rely s t → post x t) :
    (ofExcept x : Program ε Q R α).Secures exec rely guarantee post s := by
  cases x with
  | ok a => exact h
  | error e => exact h

theorem Secures.need {c : Prop} [Decidable c] {e : ε} {post : Except ε Unit → σ → Prop}
    (holds : c → ∀ t, rely s t → post (.ok ()) t) (fails : ¬ c → ∀ t, rely s t → post (.error e) t) :
    (need c e : Program ε Q R Unit).Secures exec rely guarantee post s := by
  unfold Program.need
  split
  · rename_i h
    exact holds h
  · rename_i h
    exact fails h

theorem Orderly.secures {permitted : Q → Prop} {p : Program ε Q R α} {past : List (Event ε Q R)}
    (h : p.Orderly (fun _ q => permitted q) (fun _ _ => True) past)
    (within : ∀ q, permitted q → ∀ t, guarantee t (exec q t).2) :
    p.Secures exec rely guarantee (fun _ _ => True) s := by
  induction p generalizing past s with
  | done a => exact fun _ _ => trivial
  | raise e => exact fun _ _ => trivial
  | ask q k ih => exact fun t _ => ⟨within q h.1 t, ih _ (h.2 _)⟩

theorem Secures.of_within {p : Program ε Q R α} (within : ∀ q t, guarantee t (exec q t).2) :
    p.Secures exec rely guarantee (fun _ _ => True) s := by
  induction p generalizing s with
  | done a => exact fun _ _ => trivial
  | raise e => exact fun _ _ => trivial
  | ask q k ih => exact fun t _ => ⟨within q t, ih _⟩

/-- A program whose requests are each within the guarantee keeps to it, whatever the others
do. -/
theorem Only.secures {permitted : Q → Prop} {p : Program ε Q R α} (h : p.Only permitted)
    (within : ∀ q, permitted q → ∀ t, guarantee t (exec q t).2) :
    p.Secures exec rely guarantee (fun _ _ => True) s := (h []).secures within

end Secures

end Program
