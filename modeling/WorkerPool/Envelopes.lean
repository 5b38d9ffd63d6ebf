import WorkerPool.Artifact

/-!
# Envelopes that read back

A manifest as a dictionary, the header that is written for it, and what the decoder returns
of an envelope that the encoder wrote.
-/

namespace WorkerPool

open PyText
open Json (field keys sameSet)

/-! ### Manifests as dictionaries -/

namespace TaskManifest

def hashes (m : TaskManifest) : List (String × Json) := m.beforeSha256.map fun e => (e.1, .str e.2)

/-- The same task, repository, base and adapter contract. -/
structure SameTask (p m : TaskManifest) : Prop where
  version : p.schemaVersion.pyEq m.schemaVersion = true
  taskId : p.taskId = m.taskId
  repository : p.repository = m.repository
  baseSha : p.baseSha = m.baseSha
  adapterId : p.adapterId = m.adapterId
  contract : p.adapterContractSha256 = m.adapterContractSha256

/-- Equality of manifests, of which `before_sha256` is a dictionary. -/
structure Matches (p m : TaskManifest) : Prop extends SameTask p m where
  workspaceSha : p.workspaceSha = m.workspaceSha
  hashes : (Json.obj (Json.sortFields p.hashes)).pyEq (.obj (Json.sortFields m.hashes)) = true

end TaskManifest

theorem taskManifestValue_pyEq {p m : TaskManifest} :
    (taskManifestValue p).pyEq (taskManifestValue m) = true ↔ p.Matches m := by
  have equal : (taskManifestValue p).pyEq (taskManifestValue m) = true ↔
      p.schemaVersion.pyEq m.schemaVersion = true ∧ p.taskId = m.taskId ∧
      p.repository = m.repository ∧ p.baseSha = m.baseSha ∧ p.workspaceSha = m.workspaceSha ∧
      p.adapterId = m.adapterId ∧ p.adapterContractSha256 = m.adapterContractSha256 ∧
      (Json.obj (Json.sortFields p.hashes)).pyEq (.obj (Json.sortFields m.hashes)) = true := by
    simp only [taskManifestValue, Json.pyEq, Json.pyEqFields, Json.lookup, TaskManifest.hashes]
    simp [Json.scalarEq]
  rw [equal]
  constructor
  · rintro ⟨version, taskId, repository, base, workspace, adapter, contract, hashes⟩
    exact ⟨⟨version, taskId, repository, base, adapter, contract⟩, workspace, hashes⟩
  · rintro ⟨⟨version, taskId, repository, base, adapter, contract⟩, workspace, hashes⟩
    exact ⟨version, taskId, repository, base, workspace, adapter, contract, hashes⟩

/-- The five texts and the two other fields of a manifest, as a dictionary holds them. -/
structure ManifestReads (fields : List (String × Json)) (m : TaskManifest)
    (before : List (String × Json)) : Prop where
  named : sameSet (keys fields) TaskManifest.fields = true
  version : field "schema_version" fields = m.schemaVersion
  taskId : field "task_id" fields = .str m.taskId
  repository : field "repository" fields = .str m.repository
  baseSha : field "base_sha" fields = .str m.baseSha
  workspaceSha : field "workspace_sha" fields = .str m.workspaceSha
  adapterId : field "adapter_id" fields = .str m.adapterId
  contract : field "adapter_contract_sha256" fields = .str m.adapterContractSha256
  before : field "before_sha256" fields = .obj before

/-- What `TaskManifest.parse` has seen. -/
theorem TaskManifest.parse_reads {raw : Json} {m : TaskManifest}
    (h : TaskManifest.parse raw = .ok m) : ∃ fields before, raw = .obj fields ∧
      ManifestReads fields m before ∧ before.foldlM readHash [] = .ok m.beforeSha256 ∧
      m.schemaVersion.scalarEq (.int 1) = true := by
  unfold TaskManifest.parse at h
  obtain ⟨_, shape, h⟩ := bind_eq_ok.mp h
  obtain ⟨fields, rfl⟩ := isObj_of_needFields shape
  rw [needFields_obj, need_eq_ok] at shape
  simp only [get_obj, ok_bind] at h
  split at h
  case h_2 => exact absurd h (by simp [throw, throwThe, MonadExceptOf.throw])
  case h_1 before held =>
    obtain ⟨-, h⟩ := need_bind_eq_ok.mp h
    obtain ⟨normalized, folded, h⟩ := bind_eq_ok.mp h
    obtain ⟨version, h⟩ := need_bind_eq_ok.mp h
    obtain ⟨taskId, task, h⟩ := bind_eq_ok.mp h
    obtain ⟨repository, repo, h⟩ := bind_eq_ok.mp h
    obtain ⟨baseSha, base, h⟩ := bind_eq_ok.mp h
    obtain ⟨workspaceSha, workspace, h⟩ := bind_eq_ok.mp h
    obtain ⟨adapterId, adapter, h⟩ := bind_eq_ok.mp h
    obtain ⟨contract, agreed, h⟩ := bind_eq_ok.mp h
    obtain rfl := Except.ok.inj h
    exact ⟨fields, before, rfl, ⟨shape, rfl, (needText_eq_ok.mp task).1, (needText_eq_ok.mp repo).1,
      (needText_eq_ok.mp base).1, (needText_eq_ok.mp workspace).1, (needText_eq_ok.mp adapter).1,
      (needText_eq_ok.mp agreed).1, held⟩, folded, version⟩

/-! ### Hashes -/

theorem keys_assign {β : Type} (fields : List (String × β)) (key : String) (value : β)
    (distinct : (fields.map Prod.fst).Nodup) : ((assign fields key value).map Prod.fst).Nodup := by
  unfold assign
  split
  case isTrue =>
    have same : ∀ f : String × β, (if f.1 = key then (key, value) else f).1 = f.1 := by
      intro f
      split
      case isTrue h => exact h.symm
      case isFalse => rfl
    rw [List.map_map, Function.comp_def]
    simpa only [same] using distinct
  case isFalse fresh =>
    rw [List.map_append]
    apply distinct.append (List.nodup_singleton key)
    intro k mem single
    obtain rfl := List.mem_singleton.mp single
    obtain ⟨f, hf, named⟩ := List.mem_map.mp mem
    exact fresh (List.any_eq_true.mpr ⟨f, hf, by simpa using named⟩)

theorem readHash_eq_ok {normalized after : List (String × String)} {entry : String × Json}
    (h : readHash normalized entry = .ok after) :
    ∃ safe sha, entry.2 = .str sha ∧ after = assign normalized safe sha := by
  obtain ⟨safe, -, h⟩ := bind_eq_ok.mp h
  obtain ⟨sha, text, h⟩ := bind_eq_ok.mp h
  exact ⟨safe, sha, (needText_eq_ok.mp text).1, (Except.ok.inj h).symm⟩

/-- The loop over `before_sha256` leaves each path once, and has seen a text at every one. -/
theorem readHashes {before : List (String × Json)} {normalized after : List (String × String)}
    (h : before.foldlM readHash normalized = .ok after)
    (distinct : (normalized.map Prod.fst).Nodup) :
    (after.map Prod.fst).Nodup ∧ ∀ f ∈ before, ∃ s, f.2 = .str s := by
  induction before generalizing normalized with
  | nil =>
    obtain rfl := Except.ok.inj h
    exact ⟨distinct, by simp⟩
  | cons f before ih =>
    rw [List.foldlM_cons] at h
    obtain ⟨next, step, h⟩ := bind_eq_ok.mp h
    obtain ⟨safe, sha, text, rfl⟩ := readHash_eq_ok step
    obtain ⟨kept, texts⟩ := ih h (keys_assign _ _ _ distinct)
    exact ⟨kept, List.forall_mem_cons.mpr ⟨⟨sha, text⟩, texts⟩⟩

theorem TaskManifest.parse_distinct {raw : Json} {m : TaskManifest}
    (h : TaskManifest.parse raw = .ok m) : (keys m.hashes).Nodup := by
  obtain ⟨_, _, -, -, folded, -⟩ := TaskManifest.parse_reads h
  have := (readHashes folded List.nodup_nil).1
  simpa [keys, TaskManifest.hashes, Function.comp_def] using this

/-! ### The manifest inside -/

/-- The header holds `m`, whatever the order of the keys. -/
def Embeds (header : Json) (m : TaskManifest) : Prop :=
  ∃ fields, header = .obj fields ∧
    (field "task_manifest" fields).sorted = (taskManifestValue m).sorted

theorem sorted_hashes {before : List (String × Json)} (distinct : (keys before).Nodup) :
    (Json.obj (Json.sortFields before)).sorted = (Json.obj before).sorted := by
  apply Json.sorted_obj_congr _ distinct
  · intro key
    rw [Json.lookup_sortFields distinct]
  · exact ((Json.sortFields_perm before).map Prod.fst).nodup_iff.mpr distinct

theorem everywhere_field {p : Json → Prop} (null : p .null) {fields : List (String × Json)}
    (h : (Json.obj fields).Everywhere p) (key : String) : (field key fields).Everywhere p := by
  unfold field
  cases held : Json.lookup key fields with
  | some v => exact (Json.everywhere_obj.mp h).2 _ (Json.lookup_mem held)
  | none => simpa using null

theorem exists_hashes {before : List (String × Json)} (each : ∀ f ∈ before, ∃ s, f.2 = .str s) :
    ∃ hashes : List (String × String), hashes.map (fun e => (e.1, Json.str e.2)) = before := by
  induction before with
  | nil => exact ⟨[], rfl⟩
  | cons f before ih =>
    rw [List.forall_mem_cons] at each
    obtain ⟨s, text⟩ := each.1
    obtain ⟨hashes, rfl⟩ := ih each.2
    exact ⟨(f.1, s) :: hashes, by rw [List.map_cons, ← text]⟩

/-- A dictionary of the right shape is the value of some manifest. -/
theorem exists_manifest {fields before : List (String × Json)} {m : TaskManifest}
    (distinct : (Json.obj fields).Everywhere Json.KeysDistinct)
    (reads : ManifestReads fields m before) (each : ∀ f ∈ before, ∃ s, f.2 = .str s) :
    ∃ hashes, TaskManifest.hashes { m with beforeSha256 := hashes } = before ∧
      (Json.obj fields).sorted = (taskManifestValue { m with beforeSha256 := hashes }).sorted := by
  obtain ⟨hashes, held⟩ := exists_hashes each
  have inner := everywhere_field trivial distinct "before_sha256"
  rw [reads.before] at inner
  refine ⟨hashes, held, ?_⟩
  apply Json.sorted_eq_of_fields distinct.here _ reads.named
  · rfl
  · simp only [TaskManifest.fields, List.forall_mem_cons]
    refine ⟨?_, ?_, ?_, ?_, ?_, ?_, ?_, ?_, by simp⟩
    · rw [reads.version]; rfl
    · rw [reads.taskId]; rfl
    · rw [reads.repository]; rfl
    · rw [reads.baseSha]; rfl
    · rw [reads.workspaceSha]; rfl
    · rw [reads.adapterId]; rfl
    · rw [reads.contract]; rfl
    · rw [reads.before, ← sorted_hashes inner.here, ← held]
      rfl
  · show (keys _).Nodup
    simp [keys]

theorem field_of_pyEq {fields others : List (String × Json)} (distinct : (keys fields).Nodup)
    (h : (Json.obj fields).pyEq (.obj others) = true) {key : String} {w : Json}
    (held : Json.lookup key others = some w) : (field key fields).pyEq w = true := by
  obtain ⟨v, found, equal⟩ := Json.pyEq_lookup distinct h held
  rwa [Json.field_eq found]

/-- What Python finds equal to the value of a manifest is itself the value of one. -/
theorem manifest_of_pyEq {v : Json} {m : TaskManifest} (distinct : v.Everywhere Json.KeysDistinct)
    (h : v.pyEq (taskManifestValue m) = true) :
    ∃ p : TaskManifest, p.Matches m ∧ v.sorted = (taskManifestValue p).sorted := by
  obtain ⟨fields, rfl⟩ := Json.pyEq_obj_left h
  have texts : ∀ key s, Json.lookup key _ = some (.str s) → field key fields = .str s :=
    fun key s held => Json.pyEq_str.mp (field_of_pyEq distinct.here h held)
  have hashes : (field "before_sha256" fields).pyEq (.obj (Json.sortFields m.hashes)) = true :=
    field_of_pyEq distinct.here h rfl
  obtain ⟨before, held⟩ := Json.pyEq_obj_left hashes
  rw [held] at hashes
  have reads : ManifestReads fields { m with schemaVersion := field "schema_version" fields } before :=
    ⟨Json.sameSet_iff.mpr fun key => Json.pyEq_keys distinct.here h key, rfl, texts _ _ rfl,
      texts _ _ rfl, texts _ _ rfl, texts _ _ rfl, texts _ _ rfl, texts _ _ rfl, held⟩
  have each : ∀ f ∈ before, ∃ s, f.2 = .str s := by
    intro f hf
    obtain ⟨w, found, equal⟩ := (Json.pyEq_obj.mp hashes).2 f hf
    obtain ⟨e, -, eq⟩ := List.mem_map.mp (Json.mem_sortFields.mp (Json.lookup_mem found))
    obtain ⟨-, rfl⟩ := Prod.mk.inj eq
    exact ⟨e.2, Json.pyEq_str.mp equal⟩
  obtain ⟨hashes, -, same⟩ := exists_manifest distinct reads each
  refine ⟨_, ?_, same⟩
  rw [← taskManifestValue_pyEq, ← Json.sorted_pyEq, ← same, Json.sorted_pyEq]
  exact h

/-! ### The header that is written -/

def headerPairs (version embedded : Json) (fence : Fence) (effectId : String) (result : Json)
    (bundle : Bytes) : List (String × Json) := [
  ("schema_version", version),
  ("artifact_kind", .str artifactKind),
  ("task_manifest", embedded),
  ("lease_generation", .int fence.generation),
  ("attempt_id", .str fence.attemptId),
  ("effect_id", .str effectId),
  ("result", result),
  ("bundle", .obj [
    ("sha256", .str (Sha256.hexdigestOfBytes bundle)),
    ("size", .int bundle.length)])]

theorem artifactHeader_eq_ok {m : TaskManifest} {fence : Fence} {effectId : String} {r : RawResult}
    {bundle : Bytes} {header : Json} : artifactHeader m fence effectId r bundle = .ok header ↔
      ValidFence fence effectId ∧ ∃ v, resultValue r = .ok v ∧
        header = .obj (headerPairs (.int 1) (taskManifestValue m) fence effectId v bundle) := by
  unfold artifactHeader
  rw [need_bind_eq_ok, bind_eq_ok]
  constructor
  · rintro ⟨valid, v, accepted, eq⟩
    exact ⟨valid, v, accepted, (Except.ok.inj eq).symm⟩
  · rintro ⟨valid, v, accepted, rfl⟩
    exact ⟨valid, v, accepted, rfl⟩

/-- `value == 1` leaves three values. -/
theorem version_cases {v : Json} (h : v.scalarEq (.int 1) = true) :
    v = .int 1 ∨ v = .bool true ∨ v = .float Float64.one := by
  cases v with
  | int n => simpa [Json.scalarEq, Json.asInt?] using h
  | bool b => cases b <;> simp_all [Json.scalarEq, Json.asInt?]
  | float bits =>
    cases whole : Json.floatInt? bits with
    | none => simp [Json.scalarEq, Json.asInt?, whole] at h
    | some n =>
      obtain rfl : n = 1 := by simpa [Json.scalarEq, Json.asInt?, whole] using h
      rw [Float64.eq_one_of_floatInt? whole]
      exact Or.inr (Or.inr rfl)
  | _ => simp [Json.scalarEq, Json.asInt?] at h

theorem everywhere_version {p : Json → Prop} {v : Json} (h : v.scalarEq (.int 1) = true)
    (int : p (.int 1)) (bool : p (.bool true)) (float : p (.float Float64.one)) :
    v.Everywhere p := by
  rcases version_cases h with rfl | rfl | rfl
  · exact Json.everywhere_int.mpr int
  · exact Json.everywhere_bool.mpr bool
  · exact Json.everywhere_float.mpr float

section Written

variable {p : Json → Prop} (str : ∀ s, p (.str s)) (int : ∀ n, p (.int n))
  (arr : ∀ items, p (.arr items)) (obj : ∀ fields, (keys fields).Nodup → p (.obj fields))

include str obj in
theorem everywhere_manifest {m : TaskManifest} (version : m.schemaVersion.Everywhere p)
    (distinct : (keys m.hashes).Nodup) : (taskManifestValue m).Everywhere p := by
  have ordered : (keys (Json.sortFields m.hashes)).Nodup :=
    ((Json.sortFields_perm m.hashes).map Prod.fst).nodup_iff.mpr distinct
  simp only [taskManifestValue, Json.everywhere_obj, List.forall_mem_cons, Json.everywhere_str]
  refine ⟨obj _ (by simp [keys]), version, str _, str _, str _, str _, str _, str _,
    ⟨obj _ ordered, ?_⟩, by simp⟩
  intro f hf
  obtain ⟨e, -, rfl⟩ := List.mem_map.mp (Json.mem_sortFields.mp hf)
  exact Json.everywhere_str.mpr (str e.2)

include str arr obj in
theorem everywhere_result {r : RawResult} {paths : List String} (reads : ResultReads r paths) :
    (Json.obj (resultPairs r paths)).Everywhere p := by
  obtain ⟨sha, produced⟩ := reads.produced
  obtain ⟨evidence, evident⟩ := reads.evidence
  obtain ⟨names, named⟩ := reads.commands
  have listed : ∀ values : List String, (Json.arr (values.map .str)).Everywhere p := by
    intro values
    rw [Json.everywhere_arr, List.forall_mem_map]
    exact ⟨arr _, fun s _ => Json.everywhere_str.mpr (str s)⟩
  simp only [resultPairs, Json.everywhere_obj, List.forall_mem_cons, produced, evident, named,
    Json.everywhere_str]
  exact ⟨obj _ (by simp [keys]), str _, listed paths, listed names, str _, by simp⟩

include str int arr obj in
/-- A property of the parts of a header, from its version and that of its manifest on. -/
theorem everywhere_header {v : Json} {m : TaskManifest} {fence : Fence} {effectId : String}
    {r : RawResult} {paths : List String} {bundle : Bytes} (head : v.Everywhere p)
    (version : m.schemaVersion.Everywhere p) (distinct : (keys m.hashes).Nodup)
    (reads : ResultReads r paths) :
    (Json.obj (headerPairs v (taskManifestValue m) fence effectId
      (.obj (resultPairs r paths)) bundle)).Everywhere p := by
  have inner := everywhere_manifest str obj version distinct
  have result := everywhere_result str arr obj reads
  have described : (Json.obj [("sha256", .str (Sha256.hexdigestOfBytes bundle)),
      ("size", .int bundle.length)]).Everywhere p := by
    simp only [Json.everywhere_obj, List.forall_mem_cons, Json.everywhere_str, Json.everywhere_int]
    exact ⟨obj _ (by simp [keys]), str _, int _, by simp⟩
  rw [Json.everywhere_obj]
  simp only [headerPairs, List.forall_mem_cons, Json.everywhere_str, Json.everywhere_int]
  exact ⟨obj _ (by simp [keys]), head, str _, inner, int _, str _, str _, result, described,
    by simp⟩

end Written

/-- What the decoder reads from the text of a header, if both versions in it equal `1`. -/
theorem loads_header {it : Interpreter} (one : WritesOne it) {v : Json} {m : TaskManifest}
    {fence : Fence} {effectId : String} {r : RawResult} {paths : List String}
    {bundle headerBytes : Bytes} (head : v.scalarEq (.int 1) = true)
    (version : m.schemaVersion.scalarEq (.int 1) = true) (distinct : (keys m.hashes).Nodup)
    (reads : ResultReads r paths)
    (written : canonical it (.obj (headerPairs v (taskManifestValue m) fence effectId
      (.obj (resultPairs r paths)) bundle)) = .ok headerBytes) :
    (decodeAscii headerBytes).bind (Json.loads pairsWithoutDuplicates) =
      some (Json.obj (headerPairs v (taskManifestValue m) fence effectId
        (.obj (resultPairs r paths)) bundle)).sorted := by
  refine loads_canonical one written ?_ ?_
  · exact everywhere_header (p := Json.KeysDistinct) (fun _ => trivial) (fun _ => trivial)
      (fun _ => trivial) (fun _ nodup => nodup) (everywhere_version head trivial trivial trivial)
      (everywhere_version version trivial trivial trivial) distinct reads
  · exact everywhere_header (p := FloatIsOne) (fun _ => trivial) (fun _ => trivial)
      (fun _ => trivial) (fun _ _ => trivial) (everywhere_version head trivial trivial rfl)
      (everywhere_version version trivial trivial rfl) distinct reads

/-! ### Paths in their normal spelling -/

/-- Every changed path is spelled as `_safe_relative_path` would. -/
def Normalised (r : RawResult) : Prop :=
  ∀ path ∈ r.changedPaths, ∃ s, path = .str s ∧ safeRelativePath path = .ok s

theorem mapM_spelled {values : List Json} {spelled : List String}
    (h : values.mapM safeRelativePath = .ok spelled) :
    (∀ path ∈ values, ∃ s, path = .str s ∧ safeRelativePath path = .ok s) ↔
      values = spelled.map .str := by
  induction values generalizing spelled with
  | nil =>
    obtain rfl := Except.ok.inj h
    simp
  | cons v values ih =>
    rw [List.mapM_cons] at h
    obtain ⟨s, head, h⟩ := bind_eq_ok.mp h
    obtain ⟨rest, tail, h⟩ := bind_eq_ok.mp h
    obtain rfl := Except.ok.inj h
    rw [List.forall_mem_cons, ih tail, List.map_cons, List.cons.injEq]
    apply and_congr_left'
    constructor
    · rintro ⟨t, rfl, again⟩
      rw [head] at again
      rw [Except.ok.inj again]
    · rintro rfl
      exact ⟨s, rfl, head⟩

theorem normalised_iff {r : RawResult} {paths : List String} (reads : ResultReads r paths) :
    Normalised r ↔ r.changedPaths = paths.map .str := mapM_spelled reads.spelled

/-! ### Reading back -/

section ReadBack

variable {it : Interpreter} {raw : Json} {manifest : TaskManifest} {fence : Fence}
  {effectId : String} {r : RawResult} {bundle : Bytes} {header : Json}

theorem named_headerPairs (version embedded result : Json) (fence : Fence) (effectId : String)
    (bundle : Bytes) : (keys (headerPairs version embedded fence effectId result bundle)).Nodup := by
  simp [keys, headerPairs]

/-- A dictionary with its keys in order has the same keys. -/
theorem named_sorted {fields : List (String × Json)} {names : List String}
    (h : sameSet (keys fields) names = true) :
    sameSet (keys (Json.sortFields (Json.sortedFields fields))) names = true := by
  rw [Json.sameSet_iff] at h ⊢
  intro key
  rw [← h, Json.sortedFields_eq, ← Json.keys_map (g := Json.sorted) fields]
  exact ((Json.sortFields_perm _).map Prod.fst).mem_iff

theorem headerReads_written {v : Json} (head : v.scalarEq (.int 1) = true)
    (valid : ValidFence fence effectId) (embedded result : Json) :
    HeaderReads (Json.sortFields (Json.sortedFields
      (headerPairs v embedded fence effectId result bundle))) fence effectId := by
  have at' := Json.field_sorted (named_headerPairs v embedded result fence effectId bundle)
  constructor
  · exact named_sorted rfl
  · rw [at']
    rcases version_cases head with rfl | rfl | rfl <;> exact head
  · rw [at']; rfl
  · rw [at']; rfl
  · rw [at']; rfl
  · rw [at']; rfl
  · exact valid

theorem checkBundle_written (nonempty : bundle ≠ []) (v embedded result : Json) :
    checkBundle (.obj (Json.sortFields (Json.sortedFields
      (headerPairs v embedded fence effectId result bundle)))) bundle = .ok () := by
  rw [checkBundle_eq_ok, Json.field_sorted (named_headerPairs _ _ _ _ _ _)]
  have inner : (keys [("sha256", Json.str (Sha256.hexdigestOfBytes bundle)),
      ("size", Json.int bundle.length)]).Nodup := by simp [keys]
  refine ⟨_, rfl, named_sorted rfl, ?_, ?_, List.length_pos_of_ne_nil nonempty⟩
  · rw [Json.field_sorted inner]; rfl
  · rw [Json.field_sorted inner]; rfl

theorem readResult_written {paths : List String} {w : Json} (accepted : resultValue r = .ok w)
    (reads : ResultReads r paths) (normal : Normalised r) (v embedded : Json) :
    readResult (.obj (Json.sortFields (Json.sortedFields (headerPairs v embedded fence
      effectId (.obj (resultPairs r paths)) bundle)))) none = .ok r := by
  rw [readResult_eq_ok, Json.field_sorted (named_headerPairs _ _ _ _ _ _)]
  have inner : (keys (resultPairs r paths)).Nodup := by simp [keys, resultPairs]
  obtain ⟨sha, produced⟩ := reads.produced
  obtain ⟨evidence, evident⟩ := reads.evidence
  obtain ⟨names, named⟩ := reads.commands
  have spelled := (normalised_iff reads).mp normal
  have plain : ∀ values : List String, (values.map Json.str).map Json.sorted = values.map .str := by
    intro values
    rw [List.map_map]
    rfl
  refine ⟨_, rfl, named_sorted rfl, ?_, ⟨w, accepted⟩, by simp⟩
  rw [Json.field_sorted inner, Json.field_sorted inner, Json.field_sorted inner,
    Json.field_sorted inner]
  have first : (field "produced_sha" (resultPairs r paths)).sorted = r.producedSha := by
    rw [produced]
    exact congrArg Json.sorted produced
  have second : items (field "changed_paths" (resultPairs r paths)).sorted = r.changedPaths := by
    rw [spelled, ← plain paths, ← Json.sortedItems_eq]
    rfl
  have third : items (field "invoked_commands" (resultPairs r paths)).sorted =
      r.invokedCommands := by
    have eq : field "invoked_commands" (resultPairs r paths) = .arr r.invokedCommands := rfl
    rw [eq, Json.sorted, Json.sortedItems_eq, named, plain]
    rfl
  have fourth : (field "evidence_sha256" (resultPairs r paths)).sorted = r.evidenceSha256 := by
    rw [evident]
    exact congrArg Json.sorted evident
  rw [first, second, third, fourth]

theorem checkManifest_written (parsed : TaskManifest.parse raw = .ok manifest) (v result : Json)
    (producedSha : Option String) (allow : Bool) :
    checkManifest (.obj (Json.sortFields (Json.sortedFields
      (headerPairs v (taskManifestValue manifest) fence effectId result bundle)))) r manifest
        producedSha allow = .ok () := by
  obtain ⟨_, _, -, -, -, version⟩ := TaskManifest.parse_reads parsed
  have distinct := TaskManifest.parse_distinct parsed
  rw [checkManifest_eq_ok, Json.field_sorted (named_headerPairs _ _ _ _ _ _)]
  left
  refine Json.pyEq_sorted ?_ ?_
  · exact everywhere_manifest (p := Json.KeysDistinct) (fun _ => trivial) (fun _ nodup => nodup)
      (everywhere_version version trivial trivial trivial) distinct
  · exact everywhere_manifest (p := Json.NotNan) (fun _ => trivial) (fun _ _ => trivial)
      (everywhere_version version trivial trivial rfl) distinct

/-- The decoder returns what it was written of, as long as the version equals `1`. -/
theorem decode_pairs {v : Json} {paths : List String} {maximum : Int} {value : Bytes}
    (one : WritesOne it) (head : v.scalarEq (.int 1) = true)
    (parsed : TaskManifest.parse raw = .ok manifest) (valid : ValidFence fence effectId)
    (accepted : resultValue r = .ok (.obj (resultPairs r paths))) (reads : ResultReads r paths)
    (normal : Normalised r) (nonempty : bundle ≠ [])
    (encoded : encode it (.obj (headerPairs v (taskManifestValue manifest) fence effectId
      (.obj (resultPairs r paths)) bundle)) bundle maximum = .ok value) :
    decode it value (Sha256.hexdigestOfBytes value) manifest =
      .ok ((Json.obj (headerPairs v (taskManifestValue manifest) fence effectId
        (.obj (resultPairs r paths)) bundle)).sorted, bundle, r) := by
  obtain ⟨headerBytes, written, positive, limit, rfl, -⟩ := (encode_eq_ok it).mp encoded
  obtain ⟨_, _, -, -, -, version⟩ := TaskManifest.parse_reads parsed
  have loaded := loads_header one head version (TaskManifest.parse_distinct parsed) reads written
  rw [decode_eq_ok]
  refine ⟨headerBytes, splitFrame_eq_ok.mpr ⟨rfl, rfl, positive, limit,
    List.length_pos_of_ne_nil nonempty⟩, ?_, checkBundle_written nonempty _ _ _,
    readResult_written accepted reads normal _ _, checkManifest_written parsed _ _ _ _⟩
  rw [readHeader_eq_ok]
  exact ⟨_, fence, effectId, rfl, loaded, by rw [canonical_sorted, written],
    headerReads_written head valid _ _⟩

/-- The decoder returns what the encoder was given, the keys of the header in order. -/
theorem decode_written {maximum : Int} {value : Bytes} (one : WritesOne it)
    (parsed : TaskManifest.parse raw = .ok manifest)
    (headed : artifactHeader manifest fence effectId r bundle = .ok header)
    (normal : Normalised r) (nonempty : bundle ≠ [])
    (encoded : encode it header bundle maximum = .ok value) :
    decode it value (Sha256.hexdigestOfBytes value) manifest = .ok (header.sorted, bundle, r) := by
  obtain ⟨valid, v, accepted, rfl⟩ := artifactHeader_eq_ok.mp headed
  obtain ⟨paths, reads, rfl⟩ := resultValue_reads accepted
  exact decode_pairs one rfl parsed valid accepted reads normal nonempty encoded

/-- Python finds the header that was read equal to the one that was written. -/
theorem header_pyEq (parsed : TaskManifest.parse raw = .ok manifest)
    (headed : artifactHeader manifest fence effectId r bundle = .ok header) :
    header.sorted.pyEq header = true := by
  obtain ⟨_, _, -, -, -, version⟩ := TaskManifest.parse_reads parsed
  have distinct := TaskManifest.parse_distinct parsed
  obtain ⟨-, v, accepted, rfl⟩ := artifactHeader_eq_ok.mp headed
  obtain ⟨paths, reads, rfl⟩ := resultValue_reads accepted
  refine Json.pyEq_sorted ?_ ?_
  · exact everywhere_header (p := Json.KeysDistinct) (fun _ => trivial) (fun _ => trivial)
      (fun _ => trivial) (fun _ nodup => nodup) (Json.everywhere_int.mpr trivial)
      (everywhere_version version trivial trivial trivial) distinct reads
  · exact everywhere_header (p := Json.NotNan) (fun _ => trivial) (fun _ => trivial)
      (fun _ => trivial) (fun _ _ => trivial) (Json.everywhere_int.mpr trivial)
      (everywhere_version version trivial trivial rfl) distinct reads

end ReadBack

/-! ### A sample -/

namespace Sample

def interpreter : Interpreter where
  toRuntime := .ascii
  floatRepr _ := ['1', '.', '0']
  fromIso _ := none

def rawManifest : Json := .obj [
  ("schema_version", .float Float64.one),
  ("task_id", .str "cwp-0123456789abcdef01234567"),
  ("repository", .str "example/product"),
  ("base_sha", .str "1111111111111111111111111111111111111111"),
  ("workspace_sha", .str "2222222222222222222222222222222222222222"),
  ("adapter_id", .str "adapter"),
  ("adapter_contract_sha256",
    .str "3333333333333333333333333333333333333333333333333333333333333333"),
  ("before_sha256", .obj [
    ("docs//a.md", .str "4444444444444444444444444444444444444444444444444444444444444444")])]

def fence : Fence := ⟨3, "attempt-1"⟩

def result : RawResult where
  producedSha := .str "5555555555555555555555555555555555555555"
  changedPaths := [.str "docs/a.md"]
  invokedCommands := [.str "render"]
  evidenceSha256 := .str "6666666666666666666666666666666666666666666666666666666666666666"

def bundle : Bytes := [0x50, 0x41, 0x43, 0x4b]

theorem ok_of_toOption {α : Type} {x : Except Raised α} (h : x.toOption.isSome = true) :
    x = .ok (x.toOption.get h) := by
  cases x with
  | error e => exact absurd h (by simp [Except.toOption])
  | ok a => rfl

def manifest : TaskManifest := (TaskManifest.parse rawManifest).toOption.get (by decide +kernel)

def header : Json :=
  (artifactHeader manifest fence "effect-1" result bundle).toOption.get (by decide +kernel)

def value : Bytes := (encode interpreter header bundle 1024).toOption.get (by decide +kernel)

theorem writesOne : WritesOne interpreter := rfl

theorem parsed : TaskManifest.parse rawManifest = .ok manifest := ok_of_toOption _

theorem headed : artifactHeader manifest fence "effect-1" result bundle = .ok header :=
  ok_of_toOption _

theorem encoded : encode interpreter header bundle 1024 = .ok value := ok_of_toOption _

theorem normalised : Normalised result := by
  intro path hp
  obtain rfl := List.mem_singleton.mp hp
  exact ⟨_, rfl, rfl⟩

end Sample

end WorkerPool
