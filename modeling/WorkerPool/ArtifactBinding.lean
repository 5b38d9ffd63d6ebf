import WorkerPool.Envelopes

/-!
# What an accepted artifact is bound to

A decoded envelope carries the manifest that it was published for. Without the mode for a
result workspace that is the caller's manifest; with it, the two differ at most in the
workspace revision and in the hashes of the same paths.
-/

namespace WorkerPool

open PyText
open Json (field keys sameSet)

/-! ### Binding -/

section Binding

variable {it : Interpreter} {value bundle : Bytes} {digest : String} {manifest : TaskManifest}
  {producedSha : Option String} {allow : Bool} {header : Json} {result : RawResult}

/-- A header that was read holds each key once, at any depth. -/
theorem readHeader_distinct {headerBytes : Bytes} (h : readHeader it headerBytes = .ok header) :
    header.Everywhere Json.KeysDistinct := by
  obtain ⟨_, _, _, -, loaded, -⟩ := (readHeader_eq_ok it).mp h
  obtain ⟨cs, -, loaded⟩ := Option.bind_eq_some_iff.mp loaded
  exact Json.loads_distinct (fun _ _ => pairsWithoutDuplicates_distinct) loaded

theorem TaskManifest.mem_paths {m : TaskManifest} {path : String} :
    path ∈ m.paths ↔ path ∈ keys m.hashes := by
  simp [TaskManifest.paths, keys, TaskManifest.hashes]

/-- The manifest that an envelope was published for, when the caller describes its result. -/
theorem PublishedFor.binds {fields before : List (String × Json)} {publication : TaskManifest}
    (published : PublishedFor (.obj fields) result manifest publication)
    (distinct : (Json.obj fields).Everywhere Json.KeysDistinct)
    (reads : ManifestReads fields publication before)
    (folded : before.foldlM readHash [] = .ok publication.beforeSha256)
    (version : publication.schemaVersion.scalarEq (.int 1) = true) :
    ∃ p : TaskManifest, (Json.obj fields).sorted = (taskManifestValue p).sorted ∧
      p.SameTask manifest ∧ sameSet p.paths manifest.paths = true := by
  obtain ⟨-, each⟩ := readHashes folded List.nodup_nil
  obtain ⟨hashes, kept, held⟩ := exists_manifest distinct reads each
  have beforeDistinct := everywhere_field trivial distinct "before_sha256"
  rw [reads.before] at beforeDistinct
  have whole : (taskManifestValue publication).pyEq
      (taskManifestValue { publication with beforeSha256 := hashes }) = true := by
    have inner := everywhere_manifest (p := Json.KeysDistinct) (fun _ => trivial)
      (fun _ nodup => nodup) (m := { publication with beforeSha256 := hashes })
      (everywhere_version version trivial trivial trivial) (by rw [kept]; exact beforeDistinct.here)
    rw [← Json.pyEq_sorted_right _ inner, ← held, Json.pyEq_sorted_right _ distinct]
    exact published.whole
  have same := (taskManifestValue_pyEq.mp whole).hashes
  have changed := taskManifestValue_pyEq.mp published.others
  have plain : publication.schemaVersion.isHashable = true := by
    rcases version_cases version with eq | eq | eq <;> rw [eq] <;> rfl
  refine ⟨{ publication with beforeSha256 := hashes }, held, ⟨?_, changed.taskId.symm,
    changed.repository.symm, changed.baseSha.symm, changed.adapterId.symm, changed.contract.symm⟩, ?_⟩
  · have equal := changed.version
    rw [(Json.pyEq_scalar _ plain).2] at equal
    rw [(Json.pyEq_scalar _ plain).1, Json.scalarEq_comm]
    exact equal
  · have parsed := TaskManifest.parse_distinct published.parsed
    have ordered : (keys (Json.sortFields publication.hashes)).Nodup :=
      ((Json.sortFields_perm _).map Prod.fst).nodup_iff.mpr parsed
    have permuted : ∀ (fs : List (String × Json)) key, key ∈ keys (Json.sortFields fs) ↔ key ∈ keys fs :=
      fun fs key => ((Json.sortFields_perm fs).map Prod.fst).mem_iff
    rw [Json.sameSet_iff]
    intro path
    have named := Json.sameSet_iff.mp published.named path
    have equal := Json.pyEq_keys ordered same path
    rw [permuted, permuted, ← TaskManifest.mem_paths, ← TaskManifest.mem_paths] at equal
    exact (named.trans equal).symm

/-- The manifest inside: the caller's, or one for the same task and the same paths. -/
theorem checkManifest_binds {fields : List (String × Json)}
    (distinct : (Json.obj fields).Everywhere Json.KeysDistinct)
    (h : checkManifest (.obj fields) result manifest producedSha allow = .ok ()) :
    ∃ published, Embeds (.obj fields) published ∧ (published.Matches manifest ∨
      allow = true ∧ result.producedSha = .str manifest.workspaceSha ∧
      published.SameTask manifest ∧ sameSet published.paths manifest.paths = true) := by
  have inner := everywhere_field trivial distinct "task_manifest"
  rcases checkManifest_eq_ok.mp h with same | ⟨-, allowed, -, publication, published⟩
  · obtain ⟨p, agrees, held⟩ := manifest_of_pyEq inner same
    exact ⟨p, ⟨fields, rfl, held⟩, Or.inl agrees⟩
  · obtain ⟨embedded, before, eq, reads, folded, version⟩ :=
      TaskManifest.parse_reads published.parsed
    have workspace := published.workspace
    rw [eq] at inner published
    obtain ⟨p, held, same, named⟩ := published.binds inner reads folded version
    exact ⟨p, ⟨fields, rfl, by rw [eq, held]⟩, Or.inr ⟨allowed, workspace, same, named⟩⟩

/-- Two manifests with one value are for one task. -/
theorem TaskManifest.SameTask.congr {p q m : TaskManifest} (h : p.SameTask m)
    (same : (taskManifestValue p).sorted = (taskManifestValue q).sorted) : q.SameTask m := by
  have each := Json.field_sorted_congr (by simp [keys]) (by simp [keys]) same
  have version := each "schema_version"
  have task := Json.str.inj (each "task_id")
  have repository := Json.str.inj (each "repository")
  have base := Json.str.inj (each "base_sha")
  have adapter := Json.str.inj (each "adapter_id")
  have contract := Json.str.inj (each "adapter_contract_sha256")
  refine ⟨?_, task.symm.trans h.taskId, repository.symm.trans h.repository,
    base.symm.trans h.baseSha, adapter.symm.trans h.adapterId, contract.symm.trans h.contract⟩
  have equal := h.version
  rw [← Json.sorted_pyEq] at equal ⊢
  exact version ▸ equal

/-- An envelope that the encoder wrote is read as it was written. -/
theorem header_of_encode {published : TaskManifest} {fence : Fence} {effectId : String}
    {r : RawResult} {b : Bytes} {written : Json} {maximum : Int} {headerBytes : Bytes}
    (one : WritesOne it) (version : published.schemaVersion.scalarEq (.int 1) = true)
    (distinct : (keys published.hashes).Nodup)
    (headed : artifactHeader published fence effectId r b = .ok written)
    (encoded : encode it written b maximum = .ok value)
    (split : splitFrame value digest = .ok (headerBytes, bundle))
    (read : readHeader it headerBytes = .ok header) : header = written.sorted := by
  obtain ⟨headerBytes', text, -, limit', frame', -⟩ := (encode_eq_ok it).mp encoded
  obtain ⟨-, frame, -, limit, -⟩ := splitFrame_eq_ok.mp split
  obtain ⟨rfl, -⟩ := frame_inj limit limit' (frame.symm.trans frame')
  obtain ⟨_, _, _, -, loaded, -⟩ := (readHeader_eq_ok it).mp read
  obtain ⟨-, v, accepted, rfl⟩ := artifactHeader_eq_ok.mp headed
  obtain ⟨paths, reads, rfl⟩ := resultValue_reads accepted
  rw [loads_header one rfl version distinct reads text] at loaded
  exact (Option.some.inj loaded).symm

/-- Whatever the decoder accepts is bound to the manifest, the result and the bundle that it
was asked for. -/
theorem artifact_binding
    (h : decode it value digest manifest producedSha allow = .ok (header, bundle, result)) :
    (∃ published, Embeds header published ∧ (published.Matches manifest ∨
      allow = true ∧ result.producedSha = .str manifest.workspaceSha ∧
      published.SameTask manifest ∧ sameSet published.paths manifest.paths = true)) ∧
    (∀ sha ∈ producedSha, result.producedSha = .str sha) ∧
    (∃ fields described, header = .obj fields ∧ field "bundle" fields = .obj described ∧
      field "sha256" described = .str (Sha256.hexdigestOfBytes bundle) ∧
      field "size" described = .int bundle.length) ∧
    (WritesOne it → ∀ raw published fence effectId r b written maximum,
      TaskManifest.parse raw = .ok published →
      artifactHeader published fence effectId r b = .ok written →
      encode it written b maximum = .ok value → published.SameTask manifest) := by
  obtain ⟨headerBytes, split, read, checked, got, bound⟩ := (decode_eq_ok it).mp h
  have distinct := readHeader_distinct read
  obtain ⟨fields, -, -, rfl, -⟩ := (readHeader_eq_ok it).mp read
  obtain ⟨described, held, -, size, sha, -⟩ := checkBundle_eq_ok.mp checked
  obtain ⟨_, -, -, -, -, agrees⟩ := readResult_eq_ok.mp got
  obtain ⟨p, inside, agreed⟩ := checkManifest_binds distinct bound
  refine ⟨⟨p, inside, agreed⟩, agrees, ⟨fields, described, rfl, held, sha, size⟩, ?_⟩
  intro one raw published fence effectId r b written maximum parsed headed encoded
  obtain ⟨_, _, -, -, -, version⟩ := TaskManifest.parse_reads parsed
  have same := header_of_encode one version (TaskManifest.parse_distinct parsed) headed encoded
    split read
  obtain ⟨-, v, -, rfl⟩ := artifactHeader_eq_ok.mp headed
  obtain ⟨_, eq, inside⟩ := inside
  rw [← Json.obj.inj eq, Json.obj.inj same, Json.field_sorted (by simp [keys, headerPairs]),
    Json.sorted_sorted] at inside
  have agreed : p.SameTask manifest := agreed.elim (fun h => h.toSameTask) fun h => h.2.2.1
  exact agreed.congr inside.symm

theorem artifact_binding_sample : ∃ published : TaskManifest,
    Embeds Sample.header.sorted published ∧ published.Matches Sample.manifest := by
  have accepted : decode Sample.interpreter Sample.value (Sha256.hexdigestOfBytes Sample.value)
      Sample.manifest = .ok (Sample.header.sorted, Sample.bundle, Sample.result) :=
    decode_written Sample.writesOne Sample.parsed Sample.headed Sample.normalised (by decide)
      Sample.encoded
  obtain ⟨⟨published, inside, same | ⟨allowed, -⟩⟩, -⟩ := artifact_binding accepted
  · exact ⟨published, inside, same⟩
  · exact absurd allowed (by decide)

/-! ### One encoding -/

/-- The value is what the encoder makes of the manifest, the fence, the result and the bundle
that were read from it. -/
def Rebuilt (it : Interpreter) (value : Bytes) (header : Json) (bundle : Bytes)
    (result : RawResult) : Prop :=
  ∃ published fields fence effectId written, Embeds header published ∧ header = .obj fields ∧
    HeaderReads fields fence effectId ∧
    artifactHeader published fence effectId result bundle = .ok written ∧
    ∀ maximum : Int, value.length ≤ maximum → encode it written bundle maximum = .ok value

/-- The JSON object in front of a bundle. -/
def headerOf (value : Bytes) : Option (List (String × Json)) :=
  match splitFrame value (Sha256.hexdigestOfBytes value) with
  | .ok (headerBytes, _) =>
    match (decodeAscii headerBytes).bind (Json.loads pairsWithoutDuplicates) with
    | some (.obj fields) => some fields
    | _ => none
  | .error _ => none

/-- The version of the header is written `1`, and its changed paths are in their normal
spelling. -/
def Spelled (value : Bytes) : Prop :=
  ∃ fields raw, headerOf value = some fields ∧ field "schema_version" fields = .int 1 ∧
    field "result" fields = .obj raw ∧
    ∀ path ∈ items (field "changed_paths" raw), ∃ s, path = .str s ∧ safeRelativePath path = .ok s

/-- What equals the version of a manifest equals `1`. -/
theorem version_trans {v w : Json} (equal : v.pyEq w = true) (h : w.scalarEq (.int 1) = true) :
    v.scalarEq (.int 1) = true := by
  have one : Json.floatInt? Float64.one = some 1 := by decide +kernel
  rcases version_cases h with rfl | rfl | rfl
  · rw [(Json.pyEq_scalar (v := .int 1) v rfl).2] at equal
    exact equal
  · rw [(Json.pyEq_scalar (v := .bool true) v rfl).2] at equal
    cases v <;> simp_all [Json.scalarEq, Json.asInt?]
  · rw [(Json.pyEq_scalar (v := .float Float64.one) v rfl).2] at equal
    cases v with
    | float b =>
      have bits : b = Float64.one := by
        simp only [Json.scalarEq, Json.floatEq] at equal
        split at equal
        · exact absurd equal (by simp)
        split at equal
        case isTrue zero => exact absurd zero.2 (by decide)
        case isFalse => exact eq_of_beq equal
      rw [bits]
      simp [Json.scalarEq, Json.asInt?, one]
    | _ => simp_all [Json.scalarEq, Json.asInt?]

theorem headerOf_eq {headerBytes : Bytes} {fields : List (String × Json)}
    (split : splitFrame value digest = .ok (headerBytes, bundle))
    (read : readHeader it headerBytes = .ok (.obj fields)) : headerOf value = some fields := by
  obtain ⟨-, frame, positive, limit, more⟩ := splitFrame_eq_ok.mp split
  obtain ⟨_, _, _, eq, loaded, -⟩ := (readHeader_eq_ok it).mp read
  have again := splitFrame_eq_ok.mpr ⟨rfl, frame, positive, limit, more⟩
  simp only [headerOf, again, loaded]

/-- What the manifest inside is, as far as reading it back is concerned. -/
theorem embedded_reads {raw : Json} {fields : List (String × Json)} {published : TaskManifest}
    (parsed : TaskManifest.parse raw = .ok manifest)
    (distinct : (Json.obj fields).Everywhere Json.KeysDistinct)
    (bound : checkManifest (.obj fields) result manifest producedSha allow = .ok ())
    (inside : Embeds (.obj fields) published) :
    published.schemaVersion.scalarEq (.int 1) = true ∧ (keys published.hashes).Nodup := by
  obtain ⟨_, eq, held⟩ := inside
  rw [← Json.obj.inj eq] at held
  have inner := everywhere_field trivial distinct "task_manifest"
  constructor
  · rcases checkManifest_eq_ok.mp bound with same | ⟨-, -, -, publication, published'⟩
    · rw [← Json.sorted_pyEq, held, Json.sorted_pyEq, taskManifestValue_pyEq] at same
      obtain ⟨_, _, -, -, -, version⟩ := TaskManifest.parse_reads parsed
      exact version_trans same.version version
    · obtain ⟨embedded, _, eq, reads, -, version⟩ := TaskManifest.parse_reads published'.parsed
      rw [eq] at held inner
      have versions : (field "schema_version" embedded).sorted = published.schemaVersion.sorted :=
        Json.field_sorted_congr inner.here (by simp [keys]) held "schema_version"
      have equal : published.schemaVersion.sorted.pyEq (.int 1) = true := by
        rw [← versions, reads.version, Json.sorted_pyEq]
        exact (Json.pyEq_scalar (v := .int 1) _ rfl).2.trans version
      rw [Json.sorted_pyEq] at equal
      exact (Json.pyEq_scalar (v := .int 1) _ rfl).2.symm.trans equal
  · have whole := Json.distinct_of_sorted (held ▸ Json.keysSorted_sorted inner)
    have hashes := everywhere_field trivial whole "before_sha256"
    exact ((Json.sortFields_perm published.hashes).map Prod.fst).nodup_iff.mp hashes.here

/-- A value that the encoder could have made is spelled as the encoder spells. -/
theorem spelled_of_rebuilt {raw : Json} (one : WritesOne it)
    (parsed : TaskManifest.parse raw = .ok manifest)
    (h : decode it value digest manifest producedSha allow = .ok (header, bundle, result))
    (rebuilt : Rebuilt it value header bundle result) : Spelled value := by
  obtain ⟨headerBytes, split, read, -, got, bound⟩ := (decode_eq_ok it).mp h
  have distinct := readHeader_distinct read
  obtain ⟨published, fields, fence, effectId, written, inside, rfl, -, headed, encoded⟩ := rebuilt
  obtain ⟨version, hashes⟩ := embedded_reads parsed distinct bound inside
  have same := header_of_encode one version hashes headed (encoded _ le_rfl) split read
  obtain ⟨-, v, accepted, rfl⟩ := artifactHeader_eq_ok.mp headed
  obtain ⟨paths, reads, rfl⟩ := resultValue_reads accepted
  obtain ⟨raw, held, -, eq, -, -⟩ := readResult_eq_ok.mp got
  have fieldsEq := Json.obj.inj same
  have inner : (keys (resultPairs result paths)).Nodup := by simp [keys, resultPairs]
  have rawEq : raw = Json.sortFields (Json.sortedFields (resultPairs result paths)) := by
    rw [fieldsEq, Json.field_sorted (named_headerPairs _ _ _ _ _ _)] at held
    exact (Json.obj.inj held).symm
  refine ⟨fields, raw, headerOf_eq split read, ?_, held, ?_⟩
  · rw [fieldsEq, Json.field_sorted (named_headerPairs _ _ _ _ _ _)]
    rfl
  · have changed : items (field "changed_paths" raw) = result.changedPaths := by rw [eq]
    have texts : items (field "changed_paths" raw) = paths.map .str := by
      rw [rawEq, Json.field_sorted inner]
      have listed : field "changed_paths" (resultPairs result paths) = .arr (paths.map .str) := rfl
      rw [listed, Json.sorted, Json.sortedItems_eq, List.map_map]
      rfl
    rw [changed]
    exact (normalised_iff reads).mpr (changed.symm.trans texts)

theorem eq_arr_of_items {v : Json} (h : items v ≠ []) : v = .arr (items v) := by
  cases v with
  | arr values => rfl
  | _ => exact absurd rfl h

/-- A result in its normal spelling is written as it was read. -/
theorem result_written {raw : List (String × Json)} {paths : List String}
    (distinct : (keys raw).Nodup) (shape : sameSet (keys raw) resultFields = true)
    (eq : result = ⟨field "produced_sha" raw, items (field "changed_paths" raw),
      items (field "invoked_commands" raw), field "evidence_sha256" raw⟩)
    (reads : ResultReads result paths) (normal : Normalised result) :
    (Json.obj raw).sorted = (Json.obj (resultPairs result paths)).sorted := by
  have listed := (normalised_iff reads).mp normal
  have changed : result.changedPaths = items (field "changed_paths" raw) := by rw [eq]
  have invoked : result.invokedCommands = items (field "invoked_commands" raw) := by rw [eq]
  apply Json.sorted_eq_of_fields distinct (by simp [keys, resultPairs]) shape rfl
  simp only [resultFields, List.forall_mem_cons]
  refine ⟨?_, ?_, ?_, ?_, by simp⟩
  · rw [eq]; rfl
  · have nonempty : items (field "changed_paths" raw) ≠ [] := by
      rw [← changed, listed]
      simpa using reads.changed
    rw [eq_arr_of_items nonempty, ← changed, listed]
    rfl
  · have nonempty : items (field "invoked_commands" raw) ≠ [] := by
      rw [← invoked]
      exact reads.invoked
    rw [eq_arr_of_items nonempty, ← invoked]
    rfl
  · rw [eq]; rfl

/-- A value that is spelled as the encoder spells is what the encoder makes. -/
theorem rebuilt_of_spelled
    (h : decode it value digest manifest producedSha allow = .ok (header, bundle, result))
    (spelled : Spelled value) : Rebuilt it value header bundle result := by
  obtain ⟨headerBytes, split, read, checked, got, bound⟩ := (decode_eq_ok it).mp h
  have distinct := readHeader_distinct read
  obtain ⟨fields, fence, effectId, rfl, -, text, reads⟩ := (readHeader_eq_ok it).mp read
  obtain ⟨published, inside, -⟩ := checkManifest_binds distinct bound
  obtain ⟨described, held, named, size, sha, -⟩ := checkBundle_eq_ok.mp checked
  obtain ⟨raw, result', shape, eq, ⟨v, accepted⟩, -⟩ := readResult_eq_ok.mp got
  obtain ⟨paths, agrees, rfl⟩ := resultValue_reads accepted
  obtain ⟨_, raw', found, version, result'', normal⟩ := spelled
  obtain rfl := Option.some.inj ((headerOf_eq split read).symm.trans found)
  obtain rfl := Json.obj.inj (result'.symm.trans result'')
  have normalised : Normalised result := by
    rw [eq]
    exact normal
  have rawDistinct := everywhere_field trivial distinct "result"
  have describedDistinct := everywhere_field trivial distinct "bundle"
  rw [result'] at rawDistinct
  rw [held] at describedDistinct
  obtain ⟨_, inner, same⟩ := inside
  rw [← Json.obj.inj inner] at same
  have written : (Json.obj fields).sorted = (Json.obj (headerPairs (.int 1)
      (taskManifestValue published) fence effectId (.obj (resultPairs result paths)) bundle)).sorted := by
    apply Json.sorted_eq_of_fields distinct.here (named_headerPairs _ _ _ _ _ _) reads.named rfl
    simp only [headerFields, List.forall_mem_cons]
    refine ⟨?_, ?_, ?_, ?_, ?_, ?_, ?_, ?_, by simp⟩
    · rw [version]; rfl
    · rw [reads.kind]; rfl
    · rw [same]; rfl
    · rw [reads.generation]; rfl
    · rw [reads.attempt]; rfl
    · rw [reads.effect]; rfl
    · rw [result']
      exact result_written rawDistinct.here shape eq agrees normalised
    · rw [held]
      apply Json.sorted_eq_of_fields describedDistinct.here (by simp [keys]) named rfl
      simp only [List.forall_mem_cons]
      refine ⟨?_, ?_, by simp⟩
      · rw [sha]; rfl
      · rw [size]; rfl
  refine ⟨published, fields, fence, effectId, _, ⟨_, rfl, same⟩, rfl, reads,
    artifactHeader_eq_ok.mpr ⟨reads.valid, _, accepted, rfl⟩, ?_⟩
  intro maximum fits
  obtain ⟨-, frame, positive, limit, -⟩ := splitFrame_eq_ok.mp split
  exact (encode_eq_ok it).mpr ⟨headerBytes, by rw [← canonical_congr written, text], positive,
    limit, frame, fits⟩

/-- An accepted value is the one that the encoder makes of its parts exactly when its version
and its paths are spelled as the encoder spells them. -/
theorem artifact_encoding {raw : Json} (one : WritesOne it)
    (parsed : TaskManifest.parse raw = .ok manifest)
    (h : decode it value digest manifest producedSha allow = .ok (header, bundle, result)) :
    Rebuilt it value header bundle result ↔ Spelled value :=
  ⟨spelled_of_rebuilt one parsed h, rebuilt_of_spelled h⟩

end Binding

theorem artifact_encoding_sample : Rebuilt Sample.interpreter Sample.value Sample.header.sorted
    Sample.bundle Sample.result ↔ Spelled Sample.value :=
  artifact_encoding Sample.writesOne Sample.parsed (decode_written Sample.writesOne Sample.parsed
    Sample.headed Sample.normalised (by decide) Sample.encoded)

namespace Sample

/-- The pairs of the sample's header, its version written `true`. -/
def otherPairs : List (String × Json) :=
  headerPairs (.bool true) (taskManifestValue manifest) fence "effect-1"
    (.obj (resultPairs result ["docs/a.md"])) bundle

def otherValue : Bytes :=
  (encode interpreter (.obj otherPairs) bundle 1024).toOption.get (by decide +kernel)

theorem otherEncoded : encode interpreter (.obj otherPairs) bundle 1024 = .ok otherValue :=
  ok_of_toOption _

theorem resultAccepted : resultValue result = .ok (.obj (resultPairs result ["docs/a.md"])) ∧
    ResultReads result ["docs/a.md"] := by
  obtain ⟨-, v, accepted, -⟩ := artifactHeader_eq_ok.mp headed
  obtain ⟨paths, reads, rfl⟩ := resultValue_reads accepted
  have spelled := (normalised_iff reads).mp normalised
  cases paths with
  | nil => exact absurd spelled (by simp [result])
  | cons path rest =>
    cases rest with
    | nil =>
      obtain rfl : "docs/a.md" = path := by simpa [result] using spelled
      exact ⟨accepted, reads⟩
    | cons _ _ => exact absurd spelled (by simp [result])

end Sample

/-- The decoder takes `true` for the version `1`, which the encoder never writes. -/
theorem version_true_accepted :
    decode Sample.interpreter Sample.otherValue (Sha256.hexdigestOfBytes Sample.otherValue)
      Sample.manifest =
        .ok ((Json.obj Sample.otherPairs).sorted, Sample.bundle, Sample.result) ∧
    ¬ Rebuilt Sample.interpreter Sample.otherValue (Json.obj Sample.otherPairs).sorted
      Sample.bundle Sample.result := by
  obtain ⟨valid, -⟩ := artifactHeader_eq_ok.mp Sample.headed
  obtain ⟨accepted, reads⟩ := Sample.resultAccepted
  have decoded : decode Sample.interpreter Sample.otherValue
      (Sha256.hexdigestOfBytes Sample.otherValue) Sample.manifest =
        .ok ((Json.obj Sample.otherPairs).sorted, Sample.bundle, Sample.result) :=
    decode_pairs Sample.writesOne rfl Sample.parsed valid accepted reads Sample.normalised
      (by decide) Sample.otherEncoded
  refine ⟨decoded, fun rebuilt => ?_⟩
  obtain ⟨headerBytes, split, read, -⟩ := (decode_eq_ok _).mp decoded
  obtain ⟨fields, _, held, version, -⟩ :=
    spelled_of_rebuilt Sample.writesOne Sample.parsed decoded rebuilt
  obtain rfl := Option.some.inj ((headerOf_eq split read).symm.trans held)
  rw [Sample.otherPairs, Json.field_sorted (named_headerPairs _ _ _ _ _ _)] at version
  have written : (Json.bool true).sorted = .int 1 := version
  exact Json.noConfusion written

end WorkerPool
