import WorkerPool.Ledger

/-!
# Fencing

A lease that has ended is never accepted again, whoever presents it. Two facts carry
this: a token stays with the lease it was drawn for, and no token is drawn twice.
-/

namespace WorkerPool

open Transaction Transaction.Tx
open Transition.System (Reachable Steps)
open Relation (ReflTransGen)

/-- The calls made under a lease, with the credential each presents. -/
inductive Op.Presents : Op → Credential → Prop
  | renew {p correlationId seconds} : Presents (.renewLease p correlationId seconds) p
  | start {p correlationId} : Presents (.startTask p correlationId) p
  | submit {p sha correlationId} : Presents (.submitForValidation p sha correlationId) p
  | complete {p correlationId} : Presents (.completeTask p correlationId) p
  | fail {p correlationId reason} : Presents (.failTask p correlationId reason) p
  | block {p correlationId reason} : Presents (.blockTask p correlationId reason) p
  | checkpoint {a} : Presents (.recordCheckpoint a) a.credential

/-- The row holds this lease: its worker, token, generation and attempt. -/
structure Task.Holds (t : Task) (l : Lease) : Prop where
  worker : t.leasedBy = some l.workerId
  token : t.leaseToken = some l.leaseToken
  generation : t.leaseGeneration = l.leaseGeneration
  attempt : t.attemptId = some l.attemptId

def Db.Holds (db : Db) (l : Lease) : Prop := ∃ t ∈ (db.file l.taskId).task, t.Holds l

instance (t : Task) (l : Lease) : Decidable (t.Holds l) :=
  decidable_of_iff (t.leasedBy = some l.workerId ∧ t.leaseToken = some l.leaseToken ∧
      t.leaseGeneration = l.leaseGeneration ∧ t.attemptId = some l.attemptId)
    ⟨fun ⟨a, b, c, d⟩ => ⟨a, b, c, d⟩, fun ⟨a, b, c, d⟩ => ⟨a, b, c, d⟩⟩

instance (db : Db) (l : Lease) : Decidable (db.Holds l) :=
  inferInstanceAs (Decidable (∃ t ∈ (db.file l.taskId).task, t.Holds l))

/-- The credential is this lease, given with or without its fence. -/
structure Credential.Of (p : Credential) (l : Lease) : Prop where
  task : p.taskId = l.taskId
  worker : p.workerId = l.workerId
  token : p.leaseToken = l.leaseToken
  generation : ∀ g ∈ p.leaseGeneration, g = l.leaseGeneration
  attempt : ∀ a ∈ p.attemptId, a = l.attemptId

/-! ### Acceptance -/

/-- The credential that an act was performed under. -/
def Act.credential : Act → Option Credential
  | .renew p | .start p | .release (.caller p) _ | .checkpoint p _ => some p
  | _ => none

theorem Does.presented {f f' : TaskFile} {act : Act} {p : Credential} (h : Does f act f')
    (under : act.credential = some p) :
    ∃ t ∈ f.task, t.state.active = true ∧ t.Presented p := by
  cases h with
  | renew expires m current active presented =>
    cases under
    exact ⟨_, current, active, presented⟩
  | start m current leased presented =>
    cases under
    exact ⟨_, current, by rw [leased]; rfl, presented⟩
  | @release t cause e m stamp reason q current active fits ends recorded =>
    cases cause with
    | caller q =>
      cases under
      exact ⟨_, current, active, fits⟩
    | expiry => cases under
    | watchdog => cases under
  | checkpoint c m current active presented =>
    cases under
    exact ⟨_, current, active, presented⟩
  | enqueue => cases under
  | grant => cases under
  | reconcile => cases under
  | requeue => cases under

theorem Act.presented_of_atomic {m : Body Task} {db : Db} {p : Credential} {acts : Act → Prop}
    (h : m.Atomic db fun t db' =>
      (∃ act, acts act ∧ db.Acts p.taskId act db') ∧ (db'.file p.taskId).task = some t)
    (under : ∀ act, acts act → act.credential = some p) :
    m.Atomic db fun _ _ => ∃ t ∈ (db.file p.taskId).task, t.state.active = true ∧ t.Presented p :=
  h.mono fun _ _ ⟨⟨act, holds, acts⟩, _⟩ => acts.file.presented (under act holds)

/-- A call under a lease is accepted only where the row holds what it presents, and
leaves everything as it was where it is rejected. -/
theorem Op.Presents.atomic {rt : Runtime} {c : Call} {op : Op} {p : Credential} {db : Db}
    (h : op.Presents p) (owned : db.Owned) :
    (op.run rt c).Atomic db fun _ _ =>
      ∃ t ∈ (db.file p.taskId).task, t.state.active = true ∧ t.Presented p := by
  cases h with
  | renew => exact .map (Act.presented_of_atomic (renewLease_atomic owned) fun _ h => h ▸ rfl)
  | start => exact .map (Act.presented_of_atomic startTask_atomic fun _ h => h ▸ rfl)
  | submit =>
    exact .map (Act.presented_of_atomic (submitForValidation_atomic owned) fun _ h => h ▸ rfl)
  | complete => exact .map (Act.presented_of_atomic (completeTask_atomic owned) fun _ h => h ▸ rfl)
  | fail =>
    refine .map (Act.presented_of_atomic (failTask_atomic owned) ?_)
    rintro _ (rfl | rfl) <;> rfl
  | block =>
    refine .map (Act.presented_of_atomic (blockTask_atomic owned) ?_)
    rintro _ ⟨stated, rfl⟩
    rfl
  | checkpoint =>
    refine .map (recordCheckpoint_atomic.mono ?_)
    rintro r db' ⟨t, content, correlationId, -, found, active, presented, -⟩
    exact ⟨t, found, active, presented⟩

/-! ### Tokens -/

/-- Where a token is after an act: just granted, or still with the lease it was with. -/
theorem Does.token {f f' : TaskFile} {act : Act} (h : Does f act f') {t' : Task}
    (ht : t' ∈ f'.task) {token : String} (htoken : t'.leaseToken = some token) :
    (∃ g, act = .grant g ∧ g.leaseToken = token) ∨
      ∃ t ∈ f.task, t.leaseToken = some token ∧ t'.leasedBy = t.leasedBy ∧
        t'.leaseGeneration = t.leaseGeneration ∧ t'.attemptId = t.attemptId := by
  cases h with
  | enqueue absent admitted =>
    cases ht
    rw [admitted.token] at htoken
    cases htoken
  | grant current wanted free named validates =>
    cases ht
    exact .inl ⟨_, rfl, Option.some.inj htoken⟩
  | renew expires m current active presented =>
    cases ht
    exact .inr ⟨_, current, htoken, rfl, rfl, rfl⟩
  | start m current leased presented =>
    cases ht
    exact .inr ⟨_, current, htoken, rfl, rfl, rfl⟩
  | release m stamp reason q current active fits ends recorded =>
    cases ht
    cases htoken
  | checkpoint c m current =>
    cases ht
    exact .inr ⟨_, current, htoken, rfl, rfl, rfl⟩
  | reconcile r current => exact .inr ⟨t', ht, htoken, rfl, rfl, rfl⟩
  | requeue m current blocked settled =>
    cases ht
    exact .inr ⟨_, current, htoken, rfl, rfl, rfl⟩

/-- The value has been drawn by some call. -/
def Pool.Drawn (s : Pool) (hex : String) : Prop := ∃ u ∈ s.drawn, u.hex = hex

variable {rt : Runtime}

/-- A token granted by a call is one of its draws. -/
theorem Op.May.token_drawn {op : Op} {taskId : String} {g : Grant}
    (may : op.May rt taskId (.grant g)) : ∃ u ∈ op.uuids, u.hex = g.leaseToken := by
  cases may with
  | grant worker role drawn named => exact ⟨_, List.mem_cons_self, drawn.symm⟩

theorem step_drawn {s t : Pool} {l : Call × Op} (st : (pool rt).step s l t) {hex : String}
    (h : s.Drawn hex) : t.Drawn hex := by
  obtain ⟨-, rfl⟩ := st
  obtain ⟨u, hu, same⟩ := h
  exact ⟨u, List.mem_append_right _ hu, same⟩

/-- Every token in a row has been drawn. -/
theorem reachable_token_drawn {s : Pool} (h : (pool rt).Reachable s) (taskId : String) :
    ∀ t ∈ (s.db.file taskId).task, ∀ token ∈ t.leaseToken, s.Drawn token := by
  refine h.strengthen (P := fun s => ∀ t ∈ (s.db.file taskId).task, ∀ token ∈ t.leaseToken,
    s.Drawn token) (fun _ => reachable_owned) ?_ ?_
  · rintro _ rfl t ht
    cases ht
  · intro s l s' owned drawn st
    refine path_file (P := fun f => ∀ t ∈ f.task, ∀ token ∈ t.leaseToken, s'.Drawn token) ?_
      (step_moves owned st) fun t ht token htoken => step_drawn st (drawn t ht token htoken)
    intro f act f' may before does t' ht' token htoken
    rcases does.token ht' htoken with ⟨g, rfl, rfl⟩ | ⟨t, ht, kept, -⟩
    · obtain ⟨u, hu, same⟩ := may.token_drawn
      obtain ⟨-, rfl⟩ := st
      exact ⟨u, List.mem_append_left _ hu, same⟩
    · exact before t ht token kept

/-- Fresh draws: no act of a call grants a token drawn before it. -/
theorem Op.May.token_fresh {s : Pool} {op : Op} {taskId : String} {g : Grant}
    (may : op.May rt taskId (.grant g)) (fresh : op.Fresh s) : ¬ s.Drawn g.leaseToken := by
  rintro ⟨v, hv, same⟩
  obtain ⟨u, hu, drawn⟩ := may.token_drawn
  have one : u = v := by
    cases u
    cases v
    cases drawn.trans same.symm
    rfl
  exact fresh.2 u hu (one ▸ hv)

/-- Whatever an old token vouches for, it vouches for it after any further steps: `kept`
speaks of the columns of a lease alone. -/
theorem steps_token {s t : Pool} {taskId token : String} {P : Task → Prop}
    (kept : ∀ u u' : Task, u'.leasedBy = u.leasedBy → u'.leaseGeneration = u.leaseGeneration →
      u'.attemptId = u.attemptId → P u → P u')
    (reach : (pool rt).Reachable s) (steps : (pool rt).Steps s t) (drawn : s.Drawn token)
    (start : ∀ u ∈ (s.db.file taskId).task, u.leaseToken = some token → P u) :
    t.Drawn token ∧ ∀ u ∈ (t.db.file taskId).task, u.leaseToken = some token → P u := by
  have all : (pool rt).Reachable t ∧ t.Drawn token ∧
      ∀ u ∈ (t.db.file taskId).task, u.leaseToken = some token → P u := by
    refine steps.preserves (P := fun t => (pool rt).Reachable t ∧ t.Drawn token ∧
      ∀ u ∈ (t.db.file taskId).task, u.leaseToken = some token → P u) ?_ ⟨reach, drawn, start⟩
    rintro s l s' ⟨reach, drawn, holds⟩ st
    refine ⟨reach.step st, step_drawn st drawn, ?_⟩
    refine path_file (P := fun f => ∀ u ∈ f.task, u.leaseToken = some token → P u) ?_
      (step_moves (reachable_owned reach) st) holds
    intro f act f' may before does u' hu' htoken
    rcases does.token hu' htoken with ⟨g, rfl, rfl⟩ | ⟨u, hu, same, worker, generation, attempt⟩
    · exact absurd drawn (may.token_fresh st.1)
    · exact kept u u' worker generation attempt (before u hu same)
  exact all.2

/-! ### The fence -/

/-- The calls by which a worker gives its lease up. -/
inductive Op.Releases : Op → Credential → Prop
  | submit {p sha correlationId} : Releases (.submitForValidation p sha correlationId) p
  | complete {p correlationId} : Releases (.completeTask p correlationId) p
  | fail {p correlationId reason} : Releases (.failTask p correlationId reason) p
  | block {p correlationId reason} : Releases (.blockTask p correlationId reason) p

theorem Does.released_token {f f' : TaskFile} {cause : Cause} {e : Ending}
    (h : Does f (.release cause e) f') : ∀ t ∈ f'.task, t.leaseToken = none := by
  cases h with
  | release m stamp reason q current active fits ends recorded =>
    rintro _ ⟨⟩
    rfl

theorem Act.released_of_atomic {m : Body Task} {db : Db} {p : Credential} {acts : Act → Prop}
    (h : m.Atomic db fun t db' =>
      (∃ act, acts act ∧ db.Acts p.taskId act db') ∧ (db'.file p.taskId).task = some t)
    (release : ∀ act, acts act → ∃ e, act = .release (.caller p) e) :
    m.Atomic db fun _ db' => ∀ t ∈ (db'.file p.taskId).task, t.leaseToken = none := by
  refine h.mono ?_
  rintro _ db' ⟨⟨act, holds, acts⟩, -⟩
  obtain ⟨e, rfl⟩ := release act holds
  exact acts.file.released_token

theorem Op.Releases.atomic {c : Call} {op : Op} {p : Credential} {db : Db}
    (h : op.Releases p) (owned : db.Owned) :
    (op.run rt c).Atomic db fun _ db' =>
      ∀ t ∈ (db'.file p.taskId).task, t.leaseToken = none := by
  cases h with
  | submit =>
    exact .map (Act.released_of_atomic (submitForValidation_atomic owned) fun _ h => ⟨_, h⟩)
  | complete => exact .map (Act.released_of_atomic (completeTask_atomic owned) fun _ h => ⟨_, h⟩)
  | fail =>
    refine .map (Act.released_of_atomic (failTask_atomic owned) ?_)
    rintro _ (rfl | rfl) <;> exact ⟨_, rfl⟩
  | block =>
    refine .map (Act.released_of_atomic (blockTask_atomic owned) ?_)
    rintro _ ⟨stated, rfl⟩
    exact ⟨_, rfl⟩

/-- The fence of the pool. A lease has ended once the row that held it no longer does,
whether by the holder's release or by a recovery pass of some call. -/
structure Fencing (rt : Runtime) : Prop where
  released : ∀ {s : Pool} {c : Call} {op : Op} {p : Credential} {l : Lease} {r : Reply} {db' : Db},
    (pool rt).Reachable s → op.Releases p → p.Of l → (op.run rt c).Yields s.db r db' →
    ¬ db'.Holds l
  ended : ∀ {s₁ s₂ s₃ : Pool} {l : Lease}, (pool rt).Reachable s₁ → s₁.db.Holds l →
    (pool rt).Steps s₁ s₂ → ¬ s₂.db.Holds l → (pool rt).Steps s₂ s₃ →
    ∀ {c : Call} {op : Op} {p : Credential}, op.Presents p → p.Of l →
    ∃ e, (op.run rt c).Fails s₃.db e s₃.db
  unfenced : ∀ {s : Pool} {c : Call} {op : Op} {p : Credential} {t : Task},
    (pool rt).Reachable s → op.Presents p → t ∈ (s.db.file p.taskId).task →
    t.fencingRequired = true → p.leaseGeneration = none ∨ p.attemptId = none →
    ∃ e, (op.run rt c).Fails s.db e s.db
  single : ∀ {s : Pool} {c c' : Call} {op op' : Op} {p p' : Credential} {r r' : Reply}
    {db' db'' : Db}, (pool rt).Reachable s → op.Presents p → op'.Presents p' →
    p.taskId = p'.taskId → (op.run rt c).Yields s.db r db' → (op'.run rt c').Yields s.db r' db'' →
    ∃ l, s.db.Holds l ∧ p.Of l ∧ p'.Of l
  rejected : ∀ {s : Pool} {c : Call} {op : Op} {p : Credential} {e : PoolError} {db' : Db},
    (pool rt).Reachable s → op.Presents p → (op.run rt c).Fails s.db e db' → db' = s.db

/-- Where a call under a lease cannot be accepted, it is rejected and nothing changes. -/
theorem Op.Presents.rejected {c : Call} {op : Op} {p : Credential} {db : Db}
    (h : op.Presents p) (owned : db.Owned)
    (never : ¬ ∃ t ∈ (db.file p.taskId).task, t.state.active = true ∧ t.Presented p) :
    ∃ e, (op.run rt c).Fails db e db := by
  have atomic : (op.run rt c).Atomic db _ := h.atomic owned
  rcases yields_or_fails (op.run rt c) db with ⟨r, db', accepted⟩ | ⟨e, db', failed⟩
  · exact absurd (atomic.returns accepted) never
  · exact ⟨e, atomic.raises failed ▸ failed⟩

/-- The lease that a row holds when it accepts a credential. -/
theorem Task.Presented.of_row {t : Task} {p : Credential} {attempts : List Attempt}
    (h : t.Presented p) (ledger : Ledger t attempts) (named : t.taskId = p.taskId) :
    ∃ attemptId, t.attemptId = some attemptId ∧
      p.Of ⟨t.taskId, p.leaseToken, p.workerId, .builder, "", t.leaseGeneration, attemptId⟩ := by
  have leased := ledger.leased_of_worker (by simp [h.worker])
  obtain ⟨attemptId, hattempt⟩ := Option.ne_none_iff_exists'.mp leased.attempt
  refine ⟨attemptId, hattempt, named.symm, rfl, rfl, fun g hg => (h.generation g hg).symm, ?_⟩
  intro a ha
  exact (Option.some.inj (hattempt.symm.trans (h.attempt a ha))).symm

/-- No token of an ended lease stands in the row again. -/
theorem ended_token {s₁ s₂ s₃ : Pool} {l : Lease} (reach : (pool rt).Reachable s₁)
    (held : s₁.db.Holds l) (later : (pool rt).Steps s₁ s₂) (ended : ¬ s₂.db.Holds l)
    (after : (pool rt).Steps s₂ s₃) :
    ∀ t ∈ (s₃.db.file l.taskId).task, t.leaseToken ≠ some l.leaseToken := by
  obtain ⟨t, ht, holds⟩ := held
  have drawn := reachable_token_drawn reach l.taskId t ht l.leaseToken holds.token
  -- up to the end: where the token stands, the whole lease stands
  obtain ⟨drawn₂, vouched⟩ := steps_token
    (P := fun u => u.leasedBy = some l.workerId ∧ u.leaseGeneration = l.leaseGeneration ∧
      u.attemptId = some l.attemptId)
    (fun u u' worker generation attempt h =>
      ⟨worker.trans h.1, generation.trans h.2.1, attempt.trans h.2.2⟩)
    reach later drawn (by
      intro u hu _
      cases Option.some.inj (ht.symm.trans hu)
      exact ⟨holds.worker, holds.generation, holds.attempt⟩)
  -- from the end on: the token stands nowhere
  intro u hu same
  refine (steps_token (P := fun _ => False) (fun _ _ _ _ _ h => h) (reach.steps later) after drawn₂
    ?_).2 u hu same
  intro v hv standing
  obtain ⟨worker, generation, attempt⟩ := vouched v hv standing
  exact ended ⟨v, hv, worker, standing, generation, attempt⟩

theorem pool_fencing (rt : Runtime) : Fencing rt where
  released reach releases of accepted := by
    rintro ⟨t, ht, holds⟩
    have gone := (releases.atomic (reachable_owned reach)).returns accepted t (of.task ▸ ht)
    rw [holds.token] at gone
    cases gone
  ended reach held later ended after := by
    intro c op p presents of
    refine presents.rejected (reachable_owned ((reach.steps later).steps after)) ?_
    rintro ⟨t, ht, -, presented⟩
    refine ended_token reach held later ended after t (of.task ▸ ht) ?_
    rw [presented.token, of.token]
  unfenced reach presents ht fencing missing := by
    refine presents.rejected (reachable_owned reach) ?_
    rintro ⟨u, hu, -, presented⟩
    cases Option.some.inj (ht.symm.trans hu)
    obtain ⟨generation, attempt⟩ := presented.fence fencing
    rcases missing with absent | absent
    · exact generation absent
    · exact attempt absent
  single := by
    intro s c c' op op' p p' r r' db' db'' reach presents presents' same accepted accepted'
    have owned := reachable_owned reach
    obtain ⟨t, ht, -, presented⟩ := (presents.atomic owned).returns accepted
    obtain ⟨t', ht', -, presented'⟩ := (presents'.atomic owned).returns accepted'
    cases Option.some.inj (ht.symm.trans (same ▸ ht'))
    have named := Db.task_taskId ht
    have ledger := (file_ledger reach p.taskId).2 t ht
    obtain ⟨attemptId, hattempt, of⟩ := presented.of_row ledger named
    obtain ⟨attemptId', hattempt', of'⟩ := presented'.of_row ledger (named.trans same)
    cases Option.some.inj (hattempt.symm.trans hattempt')
    have worker := Option.some.inj (presented.worker.symm.trans presented'.worker)
    have token := Option.some.inj (presented.token.symm.trans presented'.token)
    refine ⟨_, ⟨t, ?_, presented.worker, presented.token, rfl, hattempt⟩, of, ?_⟩
    · exact named.symm ▸ ht
    · rw [worker, token]
      exact of'
  rejected reach presents failed := (presents.atomic (reachable_owned reach)).raises failed

/-- A builder that blocked its task and has claimed it again cannot use its first lease. -/
theorem stale_renewal_rejected :
    let p := Sample.credential "b1" (Sample.uuid 'a') (Sample.uuid 'b') 1
    let s₁ := Pool.empty.run .ascii Sample.leased
    let s₂ := s₁.run .ascii [Sample.block p]
    let s₃ := s₂.run .ascii
      [Sample.requeue, Sample.claim "b1" "builder" true (Sample.uuid 'c') (Sample.uuid 'd')]
    ∃ e, ((Op.renewLease p "corr" none).run .ascii (.at Sample.start)).Fails s₃.db e s₃.db := by
  intro p s₁ s₂ s₃
  let l : Lease := ⟨Sample.taskId, (Sample.uuid 'a').hex, "b1", .builder, "", 1,
    (Sample.uuid 'b').hex⟩
  have reach : (pool .ascii).Reachable s₁ := Pool.reachable_run (by decide)
  have later : (pool .ascii).Steps s₁ s₂ := Pool.steps_run (by decide +kernel)
  have after : (pool .ascii).Steps s₂ s₃ := Pool.steps_run (by decide +kernel)
  have held : s₁.db.Holds l := by decide +kernel
  have ended : ¬ s₂.db.Holds l := by decide +kernel
  have of : p.Of l := by
    refine ⟨rfl, rfl, rfl, ?_, ?_⟩ <;> rintro _ ⟨⟩ <;> rfl
  exact (pool_fencing .ascii).ended reach held later ended after .renew of

end WorkerPool
