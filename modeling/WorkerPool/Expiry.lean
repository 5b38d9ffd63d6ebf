import WorkerPool.Lib.IsoText
import WorkerPool.Sweeps

/-!
# Two notions of expiry

`_recover` and `_recover_stalled` compare timestamps as text in the query, `_lease` reads the
text back and compares instants. The two agree except where the texts are garbled: within one
second, when one of the two timestamps has no fraction.
-/

namespace WorkerPool

open Calendar PyText Transaction Transaction.Tx

section Expiry

variable {c : Call} {db : Db} {row : Task} {p : Credential} {allowed : List TaskState}
  {now until_ progress : Instant}

/-- The last test of `_lease`, for a lease presented by its holder. -/
theorem lease_expired_iff (found : db.tasks.find? p.taskId = some row)
    (state : row.state ∈ allowed) (presented : row.Presented p)
    (expires : row.leaseExpiresAt = some (iso until_)) :
    (lease c p allowed).Fails db (.conflict "lease expirado") db ↔ until_ ≤ c.clock .lease := by
  have text : truthy row.leaseExpiresAt = true := by
    rw [expires, truthy_some]
    exact iso_ne_empty until_
  have instant : parseIso (row.leaseExpiresAt.getD "") = some until_ := by
    rw [expires]
    exact parseIso_iso until_
  constructor
  · intro failed
    by_contra early
    have held := lease_yields.mpr
      ⟨rfl, found, state, presented, text, until_, instant, not_le.mp early⟩
    cases failed.symm.trans held
  · intro late
    refine bind_fails.mpr (.inr ⟨_, db, read_yields.mpr ⟨rfl, rfl⟩, ?_⟩)
    refine bind_fails.mpr (.inr ⟨row, db, unwrap_yields.mpr ⟨found, rfl⟩, ?_⟩)
    refine bind_fails.mpr (.inr ⟨(), db, require_yields.mpr ⟨state, rfl⟩, ?_⟩)
    refine bind_fails.mpr (.inr ⟨(), db, require_yields.mpr
      ⟨⟨presented.worker, presented.token⟩, rfl⟩, ?_⟩)
    refine bind_fails.mpr (.inr ⟨(), db, require_yields.mpr ⟨presented.fence, rfl⟩, ?_⟩)
    refine bind_fails.mpr (.inr ⟨(), db, require_yields.mpr ⟨presented.generation, rfl⟩, ?_⟩)
    refine bind_fails.mpr (.inr ⟨(), db, require_yields.mpr ⟨presented.attempt, rfl⟩, ?_⟩)
    refine bind_fails.mpr (.inr ⟨(), db, require_yields.mpr ⟨text, rfl⟩, ?_⟩)
    refine bind_fails.mpr (.inr ⟨until_, db, unwrap_yields.mpr ⟨instant, rfl⟩, ?_⟩)
    exact bind_fails.mpr (.inl (require_fails.mpr ⟨not_lt.mpr late, rfl, rfl⟩))

/-- `_recover` takes the row as expired. -/
def Db.Expired (db : Db) (c : Call) (row : Task) : Prop := row ∈ db.expiredRows (c.iso .recover)

/-- `_lease` refuses the holder of the row because of the time. -/
def Db.RefusesExpired (db : Db) (c : Call) (row : Task) : Prop :=
  ∀ p allowed, p.taskId = row.taskId → row.Presented p → row.state ∈ allowed →
    (lease c p allowed).Fails db (.conflict "lease expirado") db

/-- `_recover_stalled` selects the row, where the cutoff is in the calendar. -/
def Db.SelectsStalled (db : Db) (c : Call) (row : Task) : Prop :=
  ∃ cutoff, (c.clock .stalled).shift? (-c.store.progressStallSeconds) = some cutoff ∧
    row ∈ db.stalledRows (iso cutoff)

/-- The holder of a lease can present it. -/
theorem Task.Leased.presented (leased : row.Leased) :
    ∃ p, p.taskId = row.taskId ∧ row.Presented p := by
  obtain ⟨worker, hworker⟩ := Option.ne_none_iff_exists'.mp leased.worker
  obtain ⟨token, htoken⟩ := Option.ne_none_iff_exists'.mp leased.token
  obtain ⟨attempt, hattempt⟩ := Option.ne_none_iff_exists'.mp leased.attempt
  refine ⟨⟨row.taskId, worker, token, some row.leaseGeneration, some attempt⟩, rfl, hworker, htoken,
    fun _ => ⟨nofun, nofun⟩, ?_, ?_⟩
  · rintro _ ⟨⟩
    rfl
  · rintro _ ⟨⟩
    exact hattempt

theorem expired_iff (stored : row ∈ db.tasks.rows) (active : row.state.active = true)
    (expires : row.leaseExpiresAt = some (iso until_)) :
    db.Expired c row ↔ iso until_ ≤ iso (c.clock .recover) := by
  rw [Db.Expired, mem_expiredRows, expires]
  constructor
  · rintro ⟨-, -, _, ⟨rfl⟩, passed⟩
    exact passed
  · intro passed
    exact ⟨stored, active, _, rfl, passed⟩

theorem refusesExpired_iff (stored : row ∈ db.tasks.rows) (leased : row.Leased)
    (expires : row.leaseExpiresAt = some (iso until_)) :
    db.RefusesExpired c row ↔ until_ ≤ c.clock .lease := by
  have found : db.tasks.find? row.taskId = some row := Table.find?_of_mem stored
  constructor
  · intro refuses
    obtain ⟨p, mine, presented⟩ := leased.presented
    have failed := refuses p [row.state] mine presented (List.mem_singleton.mpr rfl)
    rw [← mine] at found
    exact (lease_expired_iff found (List.mem_singleton.mpr rfl) presented expires).mp failed
  · intro late p allowed mine presented state
    rw [← mine] at found
    exact (lease_expired_iff found state presented expires).mpr late

/-- Progress is too old for the cutoff of the query exactly when it is for the clock. -/
theorem selectsStalled_iff (stored : row ∈ db.tasks.rows) (active : row.state.active = true)
    (progressed : row.lastMaterialProgressAt = iso progress) :
    db.SelectsStalled c row ↔ ∃ cutoff,
      (c.clock .stalled).shift? (-c.store.progressStallSeconds) = some cutoff ∧
        iso progress ≤ iso cutoff := by
  have selected : ∀ cutoff, row ∈ db.stalledRows (iso cutoff) ↔ iso progress ≤ iso cutoff := by
    intro cutoff
    rw [mem_stalledRows, progressed]
    exact ⟨fun holds => holds.2.2, fun old => ⟨stored, active, old⟩⟩
  simp only [Db.SelectsStalled, selected]

/-- The query and `_lease` agree on an active lease exactly where the timestamps are not
garbled, and so do the query for stalled tasks and the clock. -/
theorem expiry_texts (stored : row ∈ db.tasks.rows) (active : row.state.active = true)
    (still : ∀ site, c.clock site = now) :
    (∀ until_, row.Leased → row.leaseExpiresAt = some (iso until_) →
      ((db.Expired c row ↔ db.RefusesExpired c row) ↔ ¬ Garbled until_ now)) ∧
    ∀ progress, row.lastMaterialProgressAt = iso progress →
      ((db.SelectsStalled c row ↔
        progress.micros + c.store.progressStallSeconds * microsPerSecond ≤ now.micros) ↔
        ¬ ∃ cutoff, now.shift? (-c.store.progressStallSeconds) = some cutoff ∧
          Garbled progress cutoff) := by
  refine ⟨fun until_ leased expires => ?_, fun progress progressed => ?_⟩
  · rw [expired_iff stored active expires, refusesExpired_iff stored leased expires, still, still]
    exact iso_le_iff until_ now
  · rw [selectsStalled_iff stored active progressed, still]
    cases reach : now.shift? (-c.store.progressStallSeconds) with
    | none =>
      have early : ¬ progress.micros + c.store.progressStallSeconds * microsPerSecond ≤
          now.micros := by
        intro due
        have bound := now.inCalendar
        let back : Instant := ⟨now.micros - c.store.progressStallSeconds * microsPerSecond, by omega⟩
        have reached : now.shift? (-c.store.progressStallSeconds) = some back :=
          Instant.shift?_back.mpr (Nat.sub_add_cancel (by omega))
        cases reach.symm.trans reached
      simp [early]
    | some cutoff =>
      have shifted := Instant.shift?_back.mp reach
      have due : progress.micros + c.store.progressStallSeconds * microsPerSecond ≤ now.micros ↔
          progress ≤ cutoff := by
        have order : progress ≤ cutoff ↔ progress.micros ≤ cutoff.micros := Iff.rfl
        rw [order]
        omega
      simp only [Option.some.injEq, exists_eq_left', due]
      exact iso_le_iff progress cutoff

namespace Sample

/-- The end of the lease of `leased`, two minutes after its grant. -/
def leaseEnd : Instant := ⟨63902908920000000, by decide⟩

/-- Half a second later. -/
def afterLeaseEnd : Instant := ⟨63902908920500000, by decide⟩

/-- A second and a half later. -/
def longAfterLeaseEnd : Instant := ⟨63902908921500000, by decide⟩

theorem leased_row : ∃ row ∈ (Pool.empty.run .ascii leased).db.tasks.rows,
    row.state.active = true ∧ row.Leased ∧ row.leaseExpiresAt = some (iso leaseEnd) := by
  have found : ∃ row ∈ (Pool.empty.run .ascii leased).db.tasks.rows, row.state.active = true ∧
      (row.leasedBy ≠ none ∧ row.leaseToken ≠ none ∧ row.leaseExpiresAt ≠ none ∧
        row.attemptId ≠ none) ∧ row.leaseExpiresAt = some (iso leaseEnd) := by decide +kernel
  obtain ⟨row, stored, active, ⟨worker, token, expires, attempt⟩, text⟩ := found
  exact ⟨row, stored, active, ⟨worker, token, expires, attempt⟩, text⟩

end Sample

/-- Past the second in which the lease ends both see it as expired, or neither does. -/
theorem lease_expired_for_both :
    let db := (Pool.empty.run .ascii Sample.leased).db
    ∃ row ∈ db.tasks.rows, (db.Expired (.at Sample.longAfterLeaseEnd) row ↔
      db.RefusesExpired (.at Sample.longAfterLeaseEnd) row) := by
  intro db
  obtain ⟨row, stored, active, leased, expires⟩ := Sample.leased_row
  refine ⟨row, stored, ?_⟩
  refine ((expiry_texts stored active fun _ => rfl).1 _ leased expires).mpr ?_
  exact fun garbled => absurd garbled.1 (by decide)

/-- Half a second after the end of a lease `_lease` refuses it and `_recover` leaves it. -/
theorem expired_lease_not_recovered :
    let s := Pool.empty.run .ascii Sample.leased
    (pool .ascii).Reachable s ∧ ∃ row ∈ s.db.tasks.rows, row.state.active = true ∧ row.Leased ∧
      row.leaseExpiresAt = some (iso Sample.leaseEnd) ∧
      ¬ (s.db.Expired (.at Sample.afterLeaseEnd) row ↔
        s.db.RefusesExpired (.at Sample.afterLeaseEnd) row) := by
  intro s
  obtain ⟨row, stored, active, leased, expires⟩ := Sample.leased_row
  refine ⟨Pool.reachable_run (by decide), row, stored, active, leased, expires, fun agree => ?_⟩
  have late : Sample.leaseEnd ≤ Sample.afterLeaseEnd := by decide
  have refused : s.db.RefusesExpired (.at Sample.afterLeaseEnd) row :=
    (refusesExpired_iff stored leased expires).mpr late
  have text := (expired_iff stored active expires).mp (agree.mpr refused)
  exact absurd text (by decide +kernel)

end Expiry

end WorkerPool
