import WorkerPool.Lib.Sql
import WorkerPool.Store

/-!
# The database guards of fenced tasks

The triggers `guard_fenced_task_admission` and `guard_fenced_claim` as SQLite has them in their
`WHEN` clauses and PostgreSQL in its trigger functions, over rows with `NULL`s.
-/

namespace WorkerPool

open Sql

/-- What a `BIGINT` can hold, and an `INTEGER` of SQLite before it turns to a real. -/
def bigint (n : Int) : Prop := -9223372036854775808 ≤ n ∧ n ≤ 9223372036854775807

instance (n : Int) : Decidable (bigint n) := inferInstanceAs (Decidable (_ ∧ _))

/-- The columns of `tasks` that the guards read, as a statement hands them to the triggers: before
the constraints are checked, so that each may be `NULL`. -/
structure TaskColumns where
  fencingRequired : Option Int
  leasedBy : Option String
  leaseGeneration : Option Int
  attemptId : Option String
  fits : ∀ n ∈ leaseGeneration, bigint n
  deriving DecidableEq

/-- The columns of `pool_control`. -/
structure ControlColumns where
  controlKey : Option String
  enabled : Option Int
  deriving DecidableEq

/-- `fencing_required … NOT NULL CHECK(fencing_required IN (0,1))` and
`lease_generation … NOT NULL CHECK(lease_generation>=0)`. -/
def TaskColumns.valid (t : TaskColumns) : Bool :=
  (t.fencingRequired == some 0 || t.fencingRequired == some 1) &&
    t.leaseGeneration.any fun n => decide (0 ≤ n)

inductive Engine where
  | sqlite | postgres
  deriving DecidableEq

/-- `EXISTS(SELECT 1 FROM pool_control WHERE control_key='fenced_cutover' AND enabled=1)`. -/
def cutoverEnabled (control : List ControlColumns) : Truth :=
  anyRow control fun r => (eq r.controlKey (some "fenced_cutover")).and (eq r.enabled (some 1))

namespace Sqlite

/-- The `WHEN` clause of `guard_fenced_task_admission`. -/
def guardFencedTaskAdmission (control : List ControlColumns) (new : TaskColumns) : Truth :=
  (eq new.fencingRequired (some 1)).and (cutoverEnabled control).not

/-- The `WHEN` clause of `guard_fenced_claim`. A sum beyond the integers is a real, which equals
no integer. -/
def guardFencedClaim (old new : TaskColumns) : Truth :=
  (((eq old.fencingRequired (some 1)).and (isNull old.leasedBy)).and
      (isNotNull new.leasedBy)).and <|
    ((ne new.leaseGeneration (old.leaseGeneration.map (· + 1))).or (isNull new.attemptId)).or
      (eq new.attemptId (coalesce old.attemptId ""))

end Sqlite

namespace Postgres

/-- `n + 1` on a nullable `BIGINT`. -/
def increment : Option Int → Except PoolError (Option Int)
  | some n => if bigint (n + 1) then .ok (some (n + 1)) else .error (.value "bigint out of range")
  | none => .ok none

/-- The condition of `guard_fenced_task_admission_fn`. -/
def guardFencedTaskAdmission (control : List ControlColumns) (new : TaskColumns) :
    Except PoolError Truth :=
  andThen (.ok (eq new.fencingRequired (some 1))) (.ok (cutoverEnabled control).not)

/-- The condition of `guard_fenced_claim_fn`. -/
def guardFencedClaim (old new : TaskColumns) : Except PoolError Truth :=
  andThen (.ok (eq old.fencingRequired (some 1))) <|
    andThen (.ok (isNull old.leasedBy)) <|
      andThen (.ok (isNotNull new.leasedBy)) <|
        orElse ((increment old.leaseGeneration).map (ne new.leaseGeneration)) <|
          orElse (.ok (isNull new.attemptId)) (.ok (eq new.attemptId (coalesce old.attemptId "")))

end Postgres

/-- Whether the trigger `guard_fenced_claim` refuses a pair of rows. -/
def Engine.refusesClaim (e : Engine) (old new : TaskColumns) : Bool :=
  match e with
  | .sqlite => (Sqlite.guardFencedClaim old new).holds
  | .postgres => refuses (Postgres.guardFencedClaim old new)

/-- Whether the trigger `guard_fenced_task_admission` refuses a row. -/
def Engine.refusesAdmission (e : Engine) (control : List ControlColumns) (new : TaskColumns) :
    Bool :=
  match e with
  | .sqlite => (Sqlite.guardFencedTaskAdmission control new).holds
  | .postgres => refuses (Postgres.guardFencedTaskAdmission control new)

/-- One row of an `UPDATE tasks` statement. `others` is what the remaining columns and indexes
make of it. -/
structure Update where
  old : TaskColumns
  stored : old.valid = true
  new : TaskColumns
  setsLeasedBy : Bool
  kept : setsLeasedBy = false → new.leasedBy = old.leasedBy
  others : Bool

/-- `BEFORE UPDATE OF leased_by`: the trigger only fires where the statement sets the column. -/
def Update.accepted (u : Update) (e : Engine) : Bool :=
  !(u.setsLeasedBy && e.refusesClaim u.old u.new) && u.new.valid && u.others

/-- One row of an `INSERT INTO tasks` statement. -/
def insertAccepted (e : Engine) (control : List ControlColumns) (new : TaskColumns)
    (others : Bool) : Bool :=
  !e.refusesAdmission control new && new.valid && others

namespace Update

/-- The lease generation grows by one, and the attempt is a new one. -/
def Advances (u : Update) : Prop :=
  u.new.leaseGeneration = u.old.leaseGeneration.map (· + 1) ∧
    u.new.attemptId ≠ none ∧ u.new.attemptId ≠ u.old.attemptId

instance (u : Update) : Decidable u.Advances := inferInstanceAs (Decidable (_ ∧ _))

/-- A fenced row is given to a worker that does not hold it, without a new attempt. -/
def Reassigns (u : Update) : Prop :=
  u.old.fencingRequired = some 1 ∧ u.new.leasedBy ≠ none ∧ u.new.leasedBy ≠ u.old.leasedBy ∧
    ¬ u.Advances

instance (u : Update) : Decidable u.Reassigns := inferInstanceAs (Decidable (_ ∧ _))

/-- No worker gets a fenced row without a new generation and attempt, and the two triggers judge
the pair of rows alike. -/
def Guarded (u : Update) : Prop :=
  (u.Reassigns → ∀ e, u.accepted e = false) ∧
    Engine.sqlite.refusesClaim u.old u.new = Engine.postgres.refusesClaim u.old u.new

/-- The row passes from one worker to another at once, and no constraint refuses it. -/
def HandsOver (u : Update) : Prop :=
  u.old.leasedBy ≠ none ∧ u.new.valid = true ∧ u.others = true

instance (u : Update) : Decidable u.HandsOver := inferInstanceAs (Decidable (_ ∧ _))

/-- A new lease of a new attempt sets the last generation to `NULL`. -/
def LosesLastGeneration (u : Update) : Prop :=
  u.old.fencingRequired = some 1 ∧ u.old.leasedBy = none ∧ u.new.leasedBy ≠ none ∧
    u.old.leaseGeneration = some 9223372036854775807 ∧ u.new.leaseGeneration = none ∧
    u.new.attemptId ≠ none ∧ u.new.attemptId ≠ some (u.old.attemptId.getD "")

end Update

section Guards

variable {old new : TaskColumns} {control : List ControlColumns}

/-- The part of the condition that both engines read before the generation. -/
def claims (old new : TaskColumns) : Bool :=
  decide (old.fencingRequired = some 1) && old.leasedBy.isNone && new.leasedBy.isSome

/-- The attempt is missing or not a new one. -/
def staleAttempt (old new : TaskColumns) : Bool :=
  new.attemptId.isNone || decide (new.attemptId = some (old.attemptId.getD ""))

theorem claims_iff : claims old new = true ↔
    old.fencingRequired = some 1 ∧ old.leasedBy = none ∧ new.leasedBy ≠ none := by
  simp [claims, and_assoc, Option.isSome_iff_ne_none]

theorem staleAttempt_iff : staleAttempt old new = true ↔
    new.attemptId = none ∨ new.attemptId = some (old.attemptId.getD "") := by
  simp [staleAttempt]

theorem holds_staleAttempt : ((isNull new.attemptId).or
    (eq new.attemptId (coalesce old.attemptId ""))).holds = staleAttempt old new := by
  cases h : new.attemptId <;> simp [staleAttempt, coalesce, h]

theorem sqlite_refusesClaim : Engine.sqlite.refusesClaim old new = (claims old new &&
    ((ne new.leaseGeneration (old.leaseGeneration.map (· + 1))).holds ||
      staleAttempt old new)) := by
  simp only [Engine.refusesClaim, Sqlite.guardFencedClaim, Truth.holds_and, Truth.holds_or,
    holds_isNull, holds_isNotNull, ← holds_staleAttempt, claims, Bool.or_assoc]
  congr 3
  cases old.fencingRequired <;> simp

theorem eq_of_known {n : Option Int} (known : n ≠ none) :
    eq n (some 1) = Truth.ofBool (decide (n = some 1)) := by
  cases n with
  | none => exact absurd rfl known
  | some m => simp [eq]

theorem postgres_refusesClaim (known : old.fencingRequired ≠ none) :
    Engine.postgres.refusesClaim old new = (claims old new &&
      match Postgres.increment old.leaseGeneration with
      | .ok next => (ne new.leaseGeneration next).holds || staleAttempt old new
      | .error _ => true) := by
  simp only [Engine.refusesClaim, Postgres.guardFencedClaim, eq_of_known known, isNull, isNotNull,
    refuses_andThen_ofBool, claims, Bool.and_assoc]
  congr 3
  cases Postgres.increment old.leaseGeneration with
  | error e => rfl
  | ok next =>
    have mapped : (Except.ok next : Except PoolError (Option Int)).map (ne new.leaseGeneration) =
        .ok (ne new.leaseGeneration next) := rfl
    rw [mapped, orElse_ok, orElse_ok]
    simp only [refuses, Truth.holds_or, ← holds_staleAttempt, isNull]

/-- The sum of a stored generation is out of range at the last one alone. -/
theorem increment_stored {n : Int} (stored : old.leaseGeneration = some n) (small : 0 ≤ n) :
    Postgres.increment old.leaseGeneration = if n = 9223372036854775807
      then .error (.value "bigint out of range") else .ok (old.leaseGeneration.map (· + 1)) := by
  have fits := old.fits n stored
  rw [stored, Postgres.increment]
  by_cases last : n = 9223372036854775807
  · subst last
    rfl
  · rw [if_neg last, if_pos]
    · rfl
    · unfold bigint at fits ⊢
      omega

/-- A stored row has a fencing flag and a generation. -/
theorem TaskColumns.valid_iff : old.valid = true ↔
    (old.fencingRequired = some 0 ∨ old.fencingRequired = some 1) ∧
      ∃ n, old.leaseGeneration = some n ∧ 0 ≤ n := by
  unfold TaskColumns.valid
  cases old.leaseGeneration <;> simp

end Guards

section Updates

variable {u : Update}

theorem Update.known (u : Update) : u.old.fencingRequired ≠ none := by
  rcases (TaskColumns.valid_iff.mp u.stored).1 with flag | flag <;> rw [flag] <;> nofun

theorem Update.losesLastGeneration_iff (u : Update) : u.LosesLastGeneration ↔
    claims u.old u.new = true ∧ u.old.leaseGeneration = some 9223372036854775807 ∧
      u.new.leaseGeneration = none ∧ staleAttempt u.old u.new = false := by
  unfold LosesLastGeneration
  rw [claims_iff, ← Bool.not_eq_true, staleAttempt_iff, not_or, and_assoc, and_assoc]

/-- The two triggers judge every pair alike but the loss of the last generation. -/
theorem Update.sameGuard_iff (u : Update) :
    Engine.sqlite.refusesClaim u.old u.new = Engine.postgres.refusesClaim u.old u.new ↔
      ¬ u.LosesLastGeneration := by
  obtain ⟨-, n, stored, small⟩ := TaskColumns.valid_iff.mp u.stored
  rw [sqlite_refusesClaim, postgres_refusesClaim u.known, increment_stored stored small,
    losesLastGeneration_iff, stored]
  by_cases last : n = 9223372036854775807
  · subst last
    rw [if_pos rfl, holds_ne]
    cases fresh : u.new.leaseGeneration with
    | none => cases claims u.old u.new <;> simp
    | some m =>
      have fits := u.new.fits m fresh
      have other : m ≠ 9223372036854775808 := by
        unfold bigint at fits
        omega
      simp [other]
  · rw [if_neg last]
    simp [last]

/-- A lease given from none is refused unless it comes with a new generation and attempt. -/
theorem Update.refused_of_free (u : Update) (e : Engine) (reassigns : u.Reassigns)
    (free : u.old.leasedBy = none) (valid : u.new.valid = true) :
    e.refusesClaim u.old u.new = true := by
  obtain ⟨fenced, assigned, -, stays⟩ := reassigns
  obtain ⟨-, n, stored, small⟩ := TaskColumns.valid_iff.mp u.stored
  obtain ⟨-, m, fresh, -⟩ := TaskColumns.valid_iff.mp valid
  have claimed : claims u.old u.new = true := claims_iff.mpr ⟨fenced, free, assigned⟩
  have same := (sameGuard_iff u).mpr fun loses => by
    obtain ⟨-, -, lost, -⟩ := (losesLastGeneration_iff u).mp loses
    cases fresh.symm.trans lost
  have refused : Engine.sqlite.refusesClaim u.old u.new = true := by
    rw [sqlite_refusesClaim, claimed, Bool.true_and, Bool.or_eq_true, holds_ne, fresh, stored]
    by_cases grows : m = n + 1
    · right
      by_contra notStale
      apply stays
      rw [staleAttempt_iff, not_or] at notStale
      refine ⟨by rw [fresh, stored, grows]; rfl, notStale.1, fun same => notStale.2 ?_⟩
      rw [same] at notStale ⊢
      obtain ⟨attempt, named⟩ := Option.ne_none_iff_exists'.mp notStale.1
      rw [named, Option.getD_some]
    · left
      simp [grows]
  cases e with
  | sqlite => exact refused
  | postgres => exact same ▸ refused

theorem Update.accepted_eq_false_iff (u : Update) (e : Engine) : u.accepted e = false ↔
    u.setsLeasedBy = true ∧ e.refusesClaim u.old u.new = true ∨ u.new.valid = false ∨
      u.others = false := by
  simp only [accepted, Bool.and_eq_false_iff, Bool.not_eq_false', Bool.and_eq_true, or_assoc]

/-- The guard does what it is for exactly where no lease is handed over at once. -/
theorem Update.guarded_iff (u : Update) :
    u.Guarded ↔ ¬ (u.Reassigns ∧ u.HandsOver) ∧ ¬ u.LosesLastGeneration := by
  unfold Guarded
  rw [sameGuard_iff]
  refine and_congr_left fun _ => ⟨fun refused both => ?_, fun direct reassigns e => ?_⟩
  · obtain ⟨reassigns, held, valid, others⟩ := both
    have passes : Engine.sqlite.refusesClaim u.old u.new = false := by
      rw [sqlite_refusesClaim, Bool.and_eq_false_iff]
      left
      by_contra claimed
      exact held (claims_iff.mp (Bool.not_eq_false _ ▸ claimed)).2.1
    have stopped := (accepted_eq_false_iff u .sqlite).mp (refused reassigns .sqlite)
    simp [passes, valid, others] at stopped
  · rw [accepted_eq_false_iff]
    by_cases valid : u.new.valid = true
    · by_cases free : u.old.leasedBy = none
      · have sets : u.setsLeasedBy = true := by
          by_contra unset
          exact reassigns.2.2.1 (u.kept (Bool.not_eq_true _ ▸ unset))
        exact .inl ⟨sets, u.refused_of_free e reassigns free valid⟩
      · have refused : u.others ≠ true := fun others => direct ⟨reassigns, free, valid, others⟩
        exact .inr (.inr (Bool.not_eq_true _ ▸ refused))
    · exact .inr (.inl (Bool.not_eq_true _ ▸ valid))

/-- Both engines accept the same updates. -/
theorem Update.accepted_same (u : Update) : u.accepted .sqlite = u.accepted .postgres := by
  by_cases valid : u.new.valid = true
  · have same := (sameGuard_iff u).mpr fun loses => by
      obtain ⟨-, m, fresh, -⟩ := TaskColumns.valid_iff.mp valid
      obtain ⟨-, -, lost, -⟩ := (losesLastGeneration_iff u).mp loses
      cases fresh.symm.trans lost
    rw [accepted, same, accepted]
  · simp [accepted, Bool.not_eq_true _ ▸ valid]

end Updates

/-! ### Admission -/

/-- The cutover is enabled in the table of control rows. -/
def CutoverEnabled (control : List ControlColumns) : Prop :=
  ∃ r ∈ control, r.controlKey = some "fenced_cutover" ∧ r.enabled = some 1

section Admission

variable {control : List ControlColumns} {new : TaskColumns}

theorem cutoverEnabled_not_holds :
    (cutoverEnabled control).not.holds = true ↔ ¬ CutoverEnabled control := by
  simp only [cutoverEnabled, anyRow, Truth.not_ofBool, Truth.holds_ofBool, Truth.holds_and,
    holds_eq, Bool.not_eq_true', ← Bool.not_eq_true, List.any_eq_true, CutoverEnabled]
  refine not_congr (exists_congr fun r => and_congr_right fun _ => ?_)
  cases r.controlKey <;> cases r.enabled <;> simp

/-- Both triggers refuse the same rows: the fenced ones before the cutover. -/
theorem refusesAdmission_iff (e : Engine) : e.refusesAdmission control new = true ↔
    new.fencingRequired = some 1 ∧ ¬ CutoverEnabled control := by
  have condition :
      ((eq new.fencingRequired (some 1)).and (cutoverEnabled control).not).holds = true ↔
      new.fencingRequired = some 1 ∧ ¬ CutoverEnabled control := by
    rw [Truth.holds_and, Bool.and_eq_true, cutoverEnabled_not_holds, holds_eq]
    refine and_congr_left fun _ => ?_
    cases new.fencingRequired <;> simp
  cases e with
  | sqlite => exact condition
  | postgres =>
    rw [Engine.refusesAdmission, Postgres.guardFencedTaskAdmission, andThen_ok]
    exact condition

end Admission

/-- The row of a task as the triggers see it. -/
def Task.columns (t : Task) (fits : t.leaseGeneration ≤ 9223372036854775807) : TaskColumns where
  fencingRequired := some t.fencingRequired.toNat
  leasedBy := t.leasedBy
  leaseGeneration := some t.leaseGeneration
  attemptId := t.attemptId
  fits := by
    rintro n ⟨⟩
    unfold bigint
    omega

/-- The row of `pool_control`. -/
def Cutover.columns (c : Cutover) : ControlColumns := ⟨some "fenced_cutover", some c.enabled.toNat⟩

section Store

theorem Task.columns_valid (t : Task) (fits) : (t.columns fits).valid = true := by
  unfold Task.columns TaskColumns.valid
  cases t.fencingRequired <;> simp

/-- The trigger of an update of the store is the one of either engine. -/
theorem guardFencedClaim_engine (e : Engine) (old new : Task) (fits fits') :
    e.refusesClaim (old.columns fits) (new.columns fits') = guardFencedClaim old new := by
  have sqlite : Engine.sqlite.refusesClaim (old.columns fits) (new.columns fits') =
      guardFencedClaim old new := by
    have grows : (new.leaseGeneration : Int) = old.leaseGeneration + 1 ↔
        new.leaseGeneration = old.leaseGeneration + 1 := by omega
    have flag : (old.fencingRequired.toNat : Int) = 1 ↔ old.fencingRequired = true := by
      cases old.fencingRequired <;> decide
    rw [sqlite_refusesClaim, holds_ne, Bool.eq_iff_iff]
    rw [Bool.and_eq_true, Bool.or_eq_true, claims_iff, staleAttempt_iff]
    simp [guardFencedClaim, Task.columns, grows, flag, or_assoc, and_assoc,
      Option.isSome_iff_ne_none]
  cases e with
  | sqlite => exact sqlite
  | postgres =>
    let u : Update := ⟨_, old.columns_valid fits, new.columns fits', true, nofun, true⟩
    have same := u.sameGuard_iff.mpr fun loses => by
      cases (u.losesLastGeneration_iff.mp loses).2.2.1
    exact same ▸ sqlite

/-- The trigger of an insertion of the store is the one of either engine. -/
theorem insertTask_engine (e : Engine) (db : Db) (t : Task) (fits) :
    e.refusesAdmission [db.cutover.columns] (t.columns fits) =
      decide ¬ (t.fencingRequired → db.cutover.enabled) := by
  rw [Bool.eq_iff_iff, refusesAdmission_iff, decide_eq_true_iff, Classical.not_imp]
  simp only [Task.columns, CutoverEnabled, List.mem_singleton, exists_eq_left, Cutover.columns]
  cases t.fencingRequired <;> cases db.cutover.enabled <;> simp

end Store

namespace Sample

/-- `UPDATE tasks SET leased_by='b2'` on a fenced task that `b1` holds. -/
def handover : Update where
  old := ⟨some 1, some "b1", some 1, some "attempt", by decide⟩
  stored := by decide
  new := ⟨some 1, some "b2", some 1, some "attempt", by decide⟩
  setsLeasedBy := true
  kept := nofun
  others := true

end Sample

end WorkerPool
