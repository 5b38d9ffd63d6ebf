import WorkerPool.Governance

/-!
# One active task in a workspace

The index `idx_workspace_active` is kept by every statement, whatever call makes it. So is
the role of a worker one that some call has spelled.
-/

namespace WorkerPool

open PyText Transaction Transaction.Tx
open Transition.System (Reachable)

/-! ### Workspaces -/

/-- No two active tasks of a repository have the same workspace. -/
def Db.WorkspacesFree (db : Db) : Prop :=
  ∀ t ∈ db.tasks.rows, ∀ o ∈ db.tasks.rows, t.state.active = true → o.state.active = true →
    o.repository = t.repository → o.workspaceKey = t.workspaceKey → o.taskId = t.taskId

def Db.KeepsWorkspaces (db db' : Db) : Prop := db.WorkspacesFree → db'.WorkspacesFree

instance : Std.Refl Db.KeepsWorkspaces := ⟨fun _ => id⟩

instance : IsTrans Db Db.KeepsWorkspaces where
  trans _ _ _ h h' free := h' (h free)

section Workspaces

variable {rt : Runtime} {c : Call} {db db' : Db} {t : Task}

theorem keepsWorkspaces_of_tasks (h : db'.tasks = db.tasks) : db.KeepsWorkspaces db' := by
  intro free
  rw [Db.WorkspacesFree, h]
  exact free

/-- A row after an update: the one updated, or one that was there. -/
theorem mem_modifyTask {f : Task → Task} {keeps} (ht : t ∈ db.tasks.rows) {u : Task}
    (hu : u ∈ (db.modifyTask t.taskId f keeps).tasks.rows) :
    u = f t ∨ u ∈ db.tasks.rows ∧ u.taskId ≠ t.taskId := by
  obtain ⟨v, hv, rfl⟩ := List.mem_map.mp hu
  by_cases same : v.taskId = t.taskId
  · left
    rw [if_pos same, List.inj_on_of_nodup_map db.tasks.unique hv ht same]
  · right
    rw [if_neg same]
    exact ⟨hv, same⟩

theorem updateTask_keepsWorkspaces (taskId : String) (f : Task → Task) (keeps)
    (within : ∀ t : Task, t.SameWorkspace (f t)) :
    (updateTask taskId f keeps).Within Db.KeepsWorkspaces := by
  intro db free
  rcases yields_or_fails (updateTask taskId f keeps) db with ⟨u, db', h⟩ | ⟨e, db', h⟩
  · rw [show ((updateTask taskId f keeps) db).2 = db' from congrArg Prod.snd h]
    cases found : db.tasks.find? taskId with
    | none =>
      obtain rfl := updateTask_yields h
      have same : db.tasks.modify taskId f keeps = db.tasks := Table.modify_absent f keeps found
      exact keepsWorkspaces_of_tasks same free
    | some t =>
      obtain rfl := Table.key_of_find? found
      have ht := Table.mem_of_find? found
      obtain ⟨⟨-, -, space⟩, rfl⟩ := (updateTask_yields_iff found).mp h
      -- the index has been consulted for the new row
      have alone : ∀ o ∈ db.tasks.rows, o.taskId ≠ t.taskId → (f t).state.active = true →
          o.state.active = true → o.repository = (f t).repository →
          o.workspaceKey = (f t).workspaceKey → False := by
        intro o ho other active active' repository key
        refine Bool.false_ne_true (space.symm.trans ?_)
        refine Bool.and_eq_true_iff.mpr ⟨active, List.any_eq_true.mpr ⟨o, ho, ?_⟩⟩
        simp [keeps t, other, repository, key, active']
      intro u hu o ho active active' repository key
      rcases mem_modifyTask ht hu with rfl | ⟨hu, apart⟩ <;>
        rcases mem_modifyTask ht ho with rfl | ⟨ho, apart'⟩
      · rfl
      · exact (alone o ho apart' active active' repository key).elim
      · exact (alone u hu apart active' active repository.symm key.symm).elim
      · exact free u hu o ho active active' repository key
  · rw [show ((updateTask taskId f keeps) db).2 = db' from congrArg Prod.snd h]
    have same : db' = db := by
      simp only [updateTask, bind_fails, read_yields, read_fails, require_yields, require_fails,
        write_fails] at h
      grind
    rw [same]
    exact free

end Workspaces

end WorkerPool
