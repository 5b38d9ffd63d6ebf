import WorkerPool.Sweeps

/-!
# The turns of two lanes

A builder's claim takes a task of a lane with the fewest builder claims among the lanes that
could serve it. As long as two lanes both could, their counts stay within one of each other,
or no further apart than they were.
-/

namespace WorkerPool

open PyText Transaction Transaction.Tx
open Transition.System (Reachable)
open Table (first)

/-- `builder_claim_count`, which starts at zero. -/
def Db.claimCount (db : Db) (repository : String) : Nat :=
  ((db.lanes.find? repository).map Lane.builderClaimCount).getD 0

/-- An enabled lane with a queued task of the class and with spare capacity. -/
def Db.openTo (db : Db) (fenced : Bool) (repository : String) : Bool :=
  (db.lanes.find? repository).any fun l =>
    l.enabled && decide (db.inFlight repository < l.maxInFlight) &&
      db.tasks.rows.any fun t => t.repository == repository && t.state == .queued &&
        t.fencingRequired == fenced

def Db.SameCounts (db db' : Db) : Prop :=
  ∀ repository, db'.claimCount repository = db.claimCount repository

instance : Std.Refl Db.SameCounts := ⟨fun _ _ => rfl⟩

instance : IsTrans Db Db.SameCounts where
  trans _ _ _ h h' repository := (h' repository).trans (h repository)

section Counts

variable {rt : Runtime} {c : Call}

theorem Db.SameCounts.of_lanes {db db' : Db} (h : db'.lanes = db.lanes) : db.SameCounts db' :=
  fun repository => by rw [Db.claimCount, h, Db.claimCount]

theorem Db.Aside.sameCounts {db db' : Db} (h : db.Aside db') : db.SameCounts db' :=
  .of_lanes h.lanes

theorem write_sameCounts {f : Db → Db} (h : ∀ db, (f db).lanes = db.lanes) :
    (write f : Body Unit).Within Db.SameCounts := .write fun db => .of_lanes (h db)

/-- A lane that is created has no claims yet. -/
theorem ensureRepositoryLane_sameCounts (repository : String) :
    (ensureRepositoryLane c repository).Within Db.SameCounts := by
  refine .write fun db other => ?_
  simp only [Db.claimCount, Table.find?_insertOrIgnore_eq]
  cases db.lanes.find? other with
  | some l => rfl
  | none => split <;> rfl

theorem configureRepository_sameCounts (repository : String) (enabled : Bool) (maxInFlight : Int) :
    (configureRepository c repository enabled maxInFlight).Within Db.SameCounts := by
  refine Within.bind (.of_reads (ofExcept_reads _)) fun name => ?_
  split
  · exact .raise _
  · refine Within.bind (.atomically (.write fun db other => ?_)) fun _ => ?_
    · simp only [Db.claimCount, Table.find?_upsert]
      cases db.lanes.find? other with
      | some l => split <;> rfl
      | none => split <;> rfl
    · refine Within.bind (.of_reads (ofExcept_reads _)) fun _ => ?_
      exact (Within.read _).bind fun _ => .unwrap _ _

theorem replaceWorkerAffinities_sameCounts (workerId : String) (repositories : List String) :
    (replaceWorkerAffinities c workerId repositories).Within Db.SameCounts := by
  refine ((Within.read _).bind fun _ => .unwrap _ _).bind fun _ => ?_
  refine Within.bind (.of_reads (ofExcept_reads _)) fun _ => (Within.atomically ?_).bind fun _ => .pure _
  refine Within.bind (.write fun _ => .of_lanes rfl) fun _ => .forEach fun _ repository => ?_
  exact (ensureRepositoryLane_sameCounts repository).bind fun _ => .write fun _ => .of_lanes rfl

theorem enqueueTask_sameCounts (a : EnqueueTask) : (enqueueTask rt c a).Within Db.SameCounts := by
  refine (Within.require _ _).bind fun _ => (Within.require _ _).bind fun _ => ?_
  refine Within.bind (.of_reads (ofExcept_reads _)) fun _ => (Within.require _ _).bind fun _ => ?_
  refine Within.atomically ((Within.read _).bind fun _ => (Within.require _ _).bind fun _ => ?_)
  refine (ensureRepositoryLane_sameCounts _).bind fun _ => (Within.read _).bind fun found => ?_
  cases found with
  | some row =>
    exact (Within.require _ _).bind fun _ => (Within.require _ _).bind fun _ => .pure _
  | none =>
    refine Within.bind ((insertTask_aside _).mono fun _ _ => Db.Aside.sameCounts) fun _ => ?_
    exact Within.bind (.of_reads (getTask_reads _)) fun _ => .pure _

/-- Only a claim counts. -/
theorem Op.run_sameCounts {op : Op} (h : ∀ a token attemptId, op ≠ .claimTask a token attemptId) :
    (op.run rt c).Within Db.SameCounts := by
  cases op with
  | claimTask a token attemptId => exact absurd rfl (h a token attemptId)
  | registerWorker =>
    refine Within.bind ((Within.require _ _).bind fun _ => ?_) fun _ => .pure _
    refine (Within.unwrap _ _).bind fun _ => (Within.unwrap _ _).bind fun _ => ?_
    refine (Within.require _ _).bind fun _ => ?_
    refine Within.bind (.atomically (write_sameCounts fun _ => rfl)) fun _ => ?_
    exact (Within.read _).bind fun _ => .unwrap _ _
  | heartbeatWorker =>
    refine Within.bind (((Within.read _).bind fun _ => .unwrap _ _).bind fun _ => ?_) fun _ => .pure _
    refine (Within.unwrap _ _).bind fun _ => ?_
    refine Within.bind (.atomically (write_sameCounts fun _ => rfl)) fun _ => ?_
    exact (Within.read _).bind fun _ => .unwrap _ _
  | configureRepository => exact (configureRepository_sameCounts _ _ _).bind fun _ => .pure _
  | replaceWorkerAffinities => exact (replaceWorkerAffinities_sameCounts _ _).bind fun _ => .pure _
  | enableFencedCutover =>
    refine Within.bind ((Within.require _ _).bind fun _ => ?_) fun _ => .pure _
    refine (Within.require _ _).bind fun _ => ?_
    exact Within.bind (.atomically (write_sameCounts fun _ => rfl)) fun _ => .read _
  | enqueueTask => exact (enqueueTask_sameCounts _).bind fun _ => .pure _
  | _ => exact (Op.run_aside rfl).mono fun _ _ => Db.Aside.sameCounts

end Counts

/-! ### The lane of a claim -/

section Claims

variable {rt : Runtime} {c : Call} {a : ClaimTask} {db mid db' : Db}

theorem builderBefore_le {x y : Task × Lane} (h : builderBefore x y = true) :
    x.2.builderClaimCount ≤ y.2.builderClaimCount := by
  by_contra less
  have greater : compare x.2.builderClaimCount y.2.builderClaimCount = .gt :=
    Nat.compare_eq_gt.mpr (by omega)
  simp [builderBefore, greater] at h

theorem builderBefore_of_lt {x y : Task × Lane}
    (less : x.2.builderClaimCount < y.2.builderClaimCount) : builderBefore x y = true := by
  have before : compare x.2.builderClaimCount y.2.builderClaimCount = .lt :=
    Nat.compare_eq_lt.mpr less
  simp [builderBefore, before]

/-- A task of each lane that is open to the claim could be selected. -/
theorem openTo_eligible {repository : String} (general : a.onlyTaskId = none)
    (free : ∀ x ∈ db.affinities, x.workerId ≠ a.workerId)
    (h : db.openTo a.fencingRequired repository = true) :
    ∃ tr ∈ db.joinLanes.filter (db.builderEligible a),
      tr.2.builderClaimCount = db.claimCount repository := by
  unfold Db.openTo at h
  cases found : db.lanes.find? repository with
  | none => simp [found] at h
  | some l =>
    simp only [found, Option.any_some, Bool.and_eq_true, decide_eq_true_eq, List.any_eq_true,
      beq_iff_eq] at h
    obtain ⟨⟨enabled, room⟩, t, stored, ⟨lane, queued⟩, fencing⟩ := h
    subst lane
    refine ⟨(t, l), List.mem_filter.mpr ⟨?_, ?_⟩, ?_⟩
    · exact List.mem_filterMap.mpr ⟨t, stored, by rw [found]; rfl⟩
    · have affine : db.affine a.workerId t.repository = true := by
        simp only [Db.affine, Bool.or_eq_true, List.all_eq_true, bne_iff_ne]
        exact .inl free
      simp [Db.builderEligible, queued, fencing, enabled, affine, room, general]
    · rw [Db.claimCount, found]
      rfl

/-- A selected task has a lane. -/
theorem selectForClaim_lane {role : Role} {row : Task} (h : db.selectForClaim a role = some row) :
    ∃ l, db.lanes.find? row.repository = some l := by
  cases role with
  | builder =>
    obtain ⟨⟨t, l⟩, chosen, rfl⟩ := Option.map_eq_some_iff.mp h
    exact ⟨l, (mem_joinLanes (List.mem_filter.mp (Table.first_mem chosen)).1).2⟩
  | validator =>
    obtain ⟨⟨t, l⟩, chosen, rfl⟩ := Option.map_eq_some_iff.mp h
    exact ⟨l, (mem_joinLanes (List.mem_filter.mp (Table.first_mem chosen)).1).2⟩

/-- The lane of a selected task has no more claims than any lane open to the claim. -/
theorem selectForClaim_least {row : Task} (h : db.selectForClaim a .builder = some row)
    (general : a.onlyTaskId = none) (free : ∀ x ∈ db.affinities, x.workerId ≠ a.workerId)
    {repository : String} (isOpen : db.openTo a.fencingRequired repository = true) :
    db.claimCount row.repository ≤ db.claimCount repository := by
  obtain ⟨⟨t, l⟩, chosen, rfl⟩ := Option.map_eq_some_iff.mp h
  obtain ⟨-, found⟩ := mem_joinLanes (List.mem_filter.mp (Table.first_mem chosen)).1
  obtain ⟨tr, eligible, count⟩ := openTo_eligible general free isOpen
  have least := Table.first_least (fun tr : Task × Lane => tr.2.builderClaimCount)
    (fun _ _ => builderBefore_le) (fun _ _ => builderBefore_of_lt) chosen tr eligible
  rw [← count, Db.claimCount, found]
  exact least

theorem modifyLane_counts {repository : String} {l : Lane} (f : Lane → Lane) (keeps) (n : Nat)
    (found : db.lanes.find? repository = some l)
    (adds : ∀ l, (f l).builderClaimCount = l.builderClaimCount + n) (other : String) :
    (db.modifyLane repository f keeps).claimCount other =
      db.claimCount other + if other = repository then n else 0 := by
  have changed := Table.find?_modify db.lanes repository other f keeps
  unfold Db.claimCount Db.modifyLane
  rw [changed]
  split
  · rename_i same
    subst same
    rw [found]
    exact adds l
  · rfl

/-- A grant counts on the lane of its task, and only for a builder. -/
theorem grant_counts {role : Role} {ttl : Int} {token attemptId : Uuid} {row : Task}
    {r : Task × Lease} {l : Lane} (found : db.lanes.find? row.repository = some l)
    (h : (grant c a role ttl token attemptId row).Yields db r db') (repository : String) :
    db'.claimCount repository = db.claimCount repository +
      if role = .builder ∧ repository = row.repository then 1 else 0 := by
  simp only [grant, bind_yields, shift, unwrap_yields, read_yields, require_yields, write_yields,
    pure_yields] at h
  obtain ⟨until_, _, ⟨_, rfl⟩, _, _, ⟨_, rfl⟩, _, _, ⟨_, rfl⟩, _, written, updated, _, _, rfl,
    _, _, read_, _, _, inserted, _, rfl⟩ := h
  have before := (updateTask_aside _ _ _).yields updated
  obtain rfl := (getTask_reads _).yields read_
  have after := ((insertAttempt_within .aside _).yields inserted).sameCounts repository
  have counted := modifyLane_counts (countClaim role (c.iso .stamp)) (countClaim_repository role _)
    (if role = .builder then 1 else 0) (before.lanes ▸ found)
    (fun l => by cases role <;> rfl) repository
  rw [after, counted, before.sameCounts repository]
  congr 1
  by_cases same : repository = row.repository
  · simp [same]
  · simp [same]

/-- The counts after a claim, which has granted a row of its selection or none. -/
theorem claimTask_counts {token attemptId : Uuid} {r : Option (Task × Lease)}
    (h : (claimTask rt c a token attemptId).Yields db r db') :
    db.SameCounts db' ∨ ∃ role mid row g, r = some g ∧ Role.ofText (rt.lower a.role) = some role ∧
      (claimRecovery rt c a).Yields db () mid ∧ mid.selectForClaim a role = some row ∧
      ∀ repository, db'.claimCount repository = db.claimCount repository +
        if role = .builder ∧ repository = row.repository then 1 else 0 := by
  simp only [claimTask, bind_yields, unwrap_yields, require_yields, atomically_yields,
    read_yields] at h
  obtain ⟨role, _, ⟨known, rfl⟩, _, _, ⟨_, rfl⟩, _, _, ⟨_, rfl⟩, _, mid, recovered, _, _, isReady,
    _, _, ⟨rfl, rfl⟩, rest⟩ := h
  obtain rfl := (ready_reads c a.workerId role).yields isReady
  have first := ((claimRecovery_within .aside a).yields recovered).sameCounts
  split at rest
  · obtain ⟨-, rfl⟩ := pure_yields.mp rest
    exact .inl first
  · rename_i row chosen
    simp only [bind_yields, pure_yields] at rest
    obtain ⟨g, _, granted, rfl, rfl⟩ := rest
    obtain ⟨l, found⟩ := selectForClaim_lane chosen
    refine .inr ⟨role, mid, row, g, rfl, known, recovered, chosen, fun repository => ?_⟩
    rw [grant_counts found granted, first repository]

end Claims

/-! ### Runs -/

/-- A builder's claim that grants a task is a general one, its worker has no affinity, and at its
selection both lanes are open to it. -/
def Contended (rt : Runtime) (laneA laneB : String) (s : Pool) (l : Call × Op) (_ : Pool) : Prop :=
  ∀ a token attemptId g db', l.2 = .claimTask a token attemptId →
    Role.ofText (rt.lower a.role) = some .builder →
    (claimTask rt l.1 a token attemptId).Yields s.db (some g) db' →
    a.onlyTaskId = none ∧ (∀ x ∈ s.db.affinities, x.workerId ≠ a.workerId) ∧
      ∀ mid, (claimRecovery rt l.1 a).Yields s.db () mid →
        mid.openTo a.fencingRequired laneA = true ∧ mid.openTo a.fencingRequired laneB = true

/-- How far apart the turns of two lanes are. -/
def Db.lag (db : Db) (laneA laneB : String) : Nat :=
  ((db.claimCount laneA : Int) - db.claimCount laneB).natAbs

section Runs

variable {rt : Runtime} {laneA laneB : String} {s s' : Pool}

/-- A turn of the lane that is behind, or of a third one. -/
theorem Db.lag_turn {db db' : Db} {repository : String}
    (counted : ∀ other, db'.claimCount other = db.claimCount other +
      if other = repository then 1 else 0)
    (leastA : db.claimCount repository ≤ db.claimCount laneA)
    (leastB : db.claimCount repository ≤ db.claimCount laneB) :
    db'.lag laneA laneB ≤ max 1 (db.lag laneA laneB) := by
  unfold Db.lag
  rw [counted laneA, counted laneB]
  by_cases turnA : laneA = repository
  · subst turnA
    by_cases turnB : laneB = laneA
    · subst turnB
      omega
    · rw [if_pos rfl, if_neg turnB]
      omega
  · by_cases turnB : laneB = repository
    · subst turnB
      rw [if_neg turnA, if_pos rfl]
      omega
    · rw [if_neg turnA, if_neg turnB]
      omega

theorem claimTask_lag {c : Call} {a : ClaimTask} {token attemptId : Uuid}
    {r : Option (Task × Lease)} {db' : Db}
    (contended : Contended rt laneA laneB s (c, .claimTask a token attemptId) s')
    (h : (claimTask rt c a token attemptId).Yields s.db r db') :
    db'.lag laneA laneB ≤ max 1 (s.db.lag laneA laneB) := by
  rcases claimTask_counts h with kept | ⟨role, mid, row, g, rfl, known, recovered, chosen, counted⟩
  · rw [Db.lag, kept, kept]
    exact le_max_right _ _
  · cases role with
    | validator =>
      rw [Db.lag, counted, counted]
      exact le_max_right _ _
    | builder =>
      obtain ⟨general, free, both⟩ := contended a token attemptId g db' rfl known h
      obtain ⟨openA, openB⟩ := both mid recovered
      have aside := (claimRecovery_within .aside a).yields recovered
      have free' : ∀ x ∈ mid.affinities, x.workerId ≠ a.workerId := aside.affinities ▸ free
      have leastA := selectForClaim_least chosen general free' openA
      have leastB := selectForClaim_least chosen general free' openB
      rw [aside.sameCounts, aside.sameCounts] at leastA leastB
      exact Db.lag_turn (fun other => by simpa using counted other) leastA leastB

theorem step_lag {l : Call × Op} (st : (pool rt).step s l s')
    (contended : Contended rt laneA laneB s l s') :
    s'.db.lag laneA laneB ≤ max 1 (s.db.lag laneA laneB) := by
  obtain ⟨c, op⟩ := l
  obtain ⟨-, rfl⟩ := st
  by_cases claims : ∃ a token attemptId, op = .claimTask a token attemptId
  · obtain ⟨a, token, attemptId, rfl⟩ := claims
    rcases yields_or_fails (Op.run rt c (.claimTask a token attemptId)) s.db with
      ⟨r, db', returned⟩ | ⟨e, db', raised⟩
    · have stop : (s.after rt c (.claimTask a token attemptId)).db = db' :=
        congrArg Prod.snd returned
      obtain ⟨_, _, claimed, replied⟩ := bind_yields.mp returned
      obtain ⟨-, rfl⟩ := pure_yields.mp replied
      rw [stop]
      exact claimTask_lag contended claimed
    · have stop : (s.after rt c (.claimTask a token attemptId)).db = db' :=
        congrArg Prod.snd raised
      rcases bind_fails.mp raised with failed | ⟨_, _, -, failed⟩
      · rw [stop, claimTask_claims.raises failed]
        exact le_max_right _ _
      · exact absurd failed pure_fails
  · push Not at claims
    have kept : s.db.SameCounts (s.after rt c op).db := Op.run_sameCounts claims s.db
    rw [Db.lag, kept, kept]
    exact le_max_right _ _

/-- The lag of two lanes never grows beyond one, or beyond what it was. -/
theorem lanes_take_turns (run : ((pool rt).restrict (Contended rt laneA laneB)).Steps s s') :
    s'.db.lag laneA laneB ≤ max 1 (s.db.lag laneA laneB) := by
  induction run with
  | refl => exact le_max_right _ _
  | tail _ st ih =>
    have next := step_lag st.1 st.2
    omega

end Runs

/-- The condition on a claim, read off the state in which it selects. -/
theorem contended_of_recovered {rt : Runtime} {laneA laneB : String} {s s' : Pool} {c : Call}
    {a : ClaimTask} {token attemptId : Uuid} (general : a.onlyTaskId = none)
    (free : ∀ x ∈ s.db.affinities, x.workerId ≠ a.workerId)
    (both : (claimRecovery rt c a s.db).2.openTo a.fencingRequired laneA = true ∧
      (claimRecovery rt c a s.db).2.openTo a.fencingRequired laneB = true) :
    Contended rt laneA laneB s (c, .claimTask a token attemptId) s' := by
  rintro _ _ _ g db' ⟨⟩ - -
  refine ⟨general, free, fun mid recovered => ?_⟩
  have stop : (claimRecovery rt c a s.db).2 = mid := congrArg Prod.snd recovered
  exact stop ▸ both

namespace Sample

def lane (repository : String) : Call × Op := (.at start, .configureRepository repository true 2)

def enqueueIn (repository requestId : String) : Call × Op :=
  (.at start, .enqueueTask ⟨repository, 1, requestId, "corr", 100, none, none, none, false⟩)

/-- Two lanes with two tasks each, and two builders. -/
def twoLanes : List (Call × Op) :=
  [register "b1" "builder", register "b2" "builder", lane "o/q", lane "o/r",
    enqueueIn "o/q" "q1", enqueueIn "o/q" "q2", enqueueIn "o/r" "r1", enqueueIn "o/r" "r2"]

end Sample

/-- Two claims in a row that both lanes could have served. -/
theorem lanes_take_turns_twice :
    let s := Pool.empty.run .ascii Sample.twoLanes
    let first := Sample.claim "b1" "builder" false (Sample.uuid 'a') (Sample.uuid 'b')
    let second := Sample.claim "b2" "builder" false (Sample.uuid 'c') (Sample.uuid 'd')
    let s' := s.after .ascii first.1 first.2
    let s'' := s'.after .ascii second.1 second.2
    s'.db.lag "o/q" "o/r" = 1 ∧ s''.db.lag "o/q" "o/r" ≤ max 1 (s.db.lag "o/q" "o/r") := by
  intro s first second s' s''
  refine ⟨by decide +kernel, lanes_take_turns (.tail (.single ⟨⟨by decide +kernel, rfl⟩, ?_⟩)
    ⟨⟨by decide +kernel, rfl⟩, ?_⟩)⟩
  · exact contended_of_recovered rfl (by decide +kernel) (by decide +kernel)
  · exact contended_of_recovered rfl (by decide +kernel) (by decide +kernel)

end WorkerPool
