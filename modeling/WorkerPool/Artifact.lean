import WorkerPool.Lib.JsonText
import WorkerPool.Lib.Sha256
import WorkerPool.Recovery

/-!
# The envelope of an artifact

What the S3 transport stores for a task: a length-prefixed canonical JSON header and the
Git bundle behind it. `encode` and `decode` are the two ends of the format.
-/

namespace WorkerPool

open PyText

abbrev Bytes : Type := List UInt8

/-! ### Bytes -/

def encodeAscii (cs : List Char) : Option Bytes :=
  cs.mapM fun c => if c.toNat < 128 then some (UInt8.ofNat c.toNat) else none

def decodeAscii (bytes : Bytes) : Option (List Char) :=
  bytes.mapM fun b => if b.toNat < 128 then some (Char.ofNat b.toNat) else none

/-- `struct.pack(">I", n)`. -/
def packLength (n : Nat) : Bytes :=
  [n / 2 ^ 24, n / 2 ^ 16, n / 2 ^ 8, n].map fun k => UInt8.ofNat (k % 256)

def unpackLength (bytes : Bytes) : Nat := bytes.foldl (fun n b => n * 256 + b.toNat) 0

def magic : Bytes := "CWP-GIT-BUNDLE-V1\n".toList.map fun c => UInt8.ofNat c.toNat

def headerLimit : Nat := 65536

def artifactKind : String := "git_bundle_v1"

/-! ### Canonical JSON -/

/-- What `json.dumps` writes without an exception when `allow_nan` is off. -/
def Writable : Json → Prop
  | .int n => (Nat.toDigits 10 n.natAbs).length ≤ Json.maxDigits
  | .float bits => Float64.isFinite bits = true
  | _ => True

instance : DecidablePred Writable := fun v => by
  cases v <;> simp only [Writable] <;> infer_instance

/-- `_canonical`. -/
def canonical (it : Interpreter) (value : Json) : Except Raised Bytes :=
  if value.Everywhere Writable then orError (encodeAscii (value.dumps true it.floatRepr))
  else .error .error

/-- `_pairs_without_duplicates`. -/
def pairsWithoutDuplicates (pairs : List (String × Json)) : Option Json :=
  if (Json.keys pairs).Nodup then some (.obj pairs) else none

/-! ### The parts of a header -/

/-- `_safe_relative_path`. -/
def safeRelativePath (value : Json) : Except Raised String := do
  let text ← needText value (fun s => 1 ≤ s.length && s.length ≤ 240) "artifact_manifest_invalid"
  let parts := pathParts text
  need (text.toList.head? ≠ some '/' ∧ '\\' ∉ text.toList ∧ ".." ∉ parts ∧
    ∀ part ∈ parts, part.toList.head? ≠ some '.') "artifact_manifest_invalid"
  pure (if parts = [] then "." else "/".intercalate parts)

/-- `_task_manifest_value`. -/
def taskManifestValue (m : TaskManifest) : Json := .obj [
  ("schema_version", m.schemaVersion),
  ("task_id", .str m.taskId),
  ("repository", .str m.repository),
  ("base_sha", .str m.baseSha),
  ("workspace_sha", .str m.workspaceSha),
  ("adapter_id", .str m.adapterId),
  ("adapter_contract_sha256", .str m.adapterContractSha256),
  ("before_sha256", .obj (Json.sortFields (m.beforeSha256.map fun e => (e.1, .str e.2))))]

/-- An `AdapterResult` before anything is known of the types of its fields. -/
structure RawResult where
  producedSha : Json
  changedPaths : List Json
  invokedCommands : List Json
  evidenceSha256 : Json

/-- The commands of a result; `set` raises on an item without a hash. -/
def needCommands (commands : List Json) (code : String) : Except Raised Unit := do
  need (1 ≤ commands.length ∧ commands.length ≤ 64) code
  orError (if commands.all Json.isHashable then some () else none)
  match commands.mapM Json.str? with
  | some names => need (names.Nodup ∧ names.all isName) code
  | none => throw (.blocked [.str code])

/-- `_result_value`. -/
def resultValue (r : RawResult) : Except Raised Json := do
  let _ ← needText r.producedSha isSha40 "artifact_result_invalid"
  let _ ← needText r.evidenceSha256 isSha256 "artifact_result_invalid"
  let paths ← r.changedPaths.mapM safeRelativePath
  need (paths ≠ [] ∧ Ordered paths) "artifact_result_invalid"
  needCommands r.invokedCommands "artifact_result_invalid"
  pure (.obj [
    ("produced_sha", r.producedSha),
    ("changed_paths", texts paths),
    ("invoked_commands", .arr r.invokedCommands),
    ("evidence_sha256", r.evidenceSha256)])

/-- `_header`. -/
def artifactHeader (manifest : TaskManifest) (fence : Fence) (effectId : String)
    (result : RawResult) (bundle : Bytes) : Except Raised Json := do
  need (1 ≤ fence.generation ∧ isSafeId fence.attemptId ∧ isSafeId effectId)
    "artifact_fence_invalid"
  let value ← resultValue result
  pure (.obj [
    ("schema_version", .int 1),
    ("artifact_kind", .str artifactKind),
    ("task_manifest", taskManifestValue manifest),
    ("lease_generation", .int fence.generation),
    ("attempt_id", .str fence.attemptId),
    ("effect_id", .str effectId),
    ("result", value),
    ("bundle", .obj [
      ("sha256", .str (Sha256.hexdigestOfBytes bundle)),
      ("size", .int bundle.length)])])

/-! ### The frame -/

variable (it : Interpreter)

/-- `_encode`. -/
def encode (header : Json) (bundle : Bytes) (maximum : Int) : Except Raised Bytes := do
  let headerBytes ← canonical it header
  need (0 < headerBytes.length ∧ headerBytes.length ≤ headerLimit) "artifact_manifest_invalid"
  let value := magic ++ packLength headerBytes.length ++ headerBytes ++ bundle
  need (value.length ≤ maximum) "artifact_too_large"
  pure value

/-- The header and the bundle of a stored value. -/
def splitFrame (value : Bytes) (digest : String) : Except Raised (Bytes × Bytes) := do
  need (Sha256.hexdigestOfBytes value = digest ∧ magic <+: value ∧ magic.length + 4 ≤ value.length)
    "artifact_integrity_invalid"
  let rest := value.drop magic.length
  let headerLength := unpackLength (rest.take 4)
  need (0 < headerLength ∧ headerLength ≤ headerLimit ∧
    magic.length + 4 + headerLength < value.length) "artifact_integrity_invalid"
  pure ((rest.drop 4).take headerLength, (rest.drop 4).drop headerLength)

def headerFields : List String :=
  ["schema_version", "artifact_kind", "task_manifest", "lease_generation", "attempt_id",
    "effect_id", "result", "bundle"]

/-- The JSON of a header. Text that no string can hold and numbers that are not finite are
refused as bad JSON is. -/
def readHeader (headerBytes : Bytes) : Except Raised Json := do
  let header ← (match (decodeAscii headerBytes).bind (Json.loads pairsWithoutDuplicates) with
    | some header => pure header
    | none => throw (.blocked [.str "artifact_manifest_invalid"]))
  need header.isObj "artifact_manifest_invalid"
  let written ← canonical it header
  need (written = headerBytes) "artifact_manifest_invalid"
  needFields header headerFields "artifact_manifest_invalid"
  let version ← get header "schema_version"
  let kind ← get header "artifact_kind"
  let generation ← get header "lease_generation"
  let attemptId ← get header "attempt_id"
  let effectId ← get header "effect_id"
  need (version.scalarEq (.int 1) && kind.isStr artifactKind && generation.isPositive &&
    attemptId.isText isSafeId && effectId.isText isSafeId) "artifact_manifest_invalid"
  pure header

/-- The bundle is the one that the header describes. -/
def checkBundle (header : Json) (bundle : Bytes) : Except Raised Unit := do
  let described ← get header "bundle"
  needFields described ["sha256", "size"] "artifact_integrity_invalid"
  let size ← get described "size"
  let sha ← get described "sha256"
  need (size.int? = some (bundle.length : Int) ∧ 0 < bundle.length ∧ sha.isText isSha256 ∧
    sha.isStr (Sha256.hexdigestOfBytes bundle)) "artifact_integrity_invalid"

/-- `tuple(value) if type(value) is list else ()`. -/
def items (value : Json) : List Json :=
  match value with
  | .arr items => items
  | _ => []

def readResult (header : Json) (producedSha : Option String) : Except Raised RawResult := do
  let raw ← get header "result"
  needFields raw ["produced_sha", "changed_paths", "invoked_commands", "evidence_sha256"]
    "artifact_manifest_invalid"
  let result := ⟨← get raw "produced_sha", items (← get raw "changed_paths"),
    items (← get raw "invoked_commands"), ← get raw "evidence_sha256"⟩
  let _ ← resultValue result
  need (∀ sha ∈ producedSha, result.producedSha.isStr sha) "artifact_result_invalid"
  pure result

/-- `except NativeExecutorBlocked`. -/
def onBlocked {α : Type} (code : String) : Except Raised α → Except Raised α
  | .error (.blocked _) => .error (.blocked [.str code])
  | r => r

def TaskManifest.paths (m : TaskManifest) : List String := m.beforeSha256.map Prod.fst

/-- The manifest inside is that of the caller, or the one it was published for. -/
def checkManifest (header : Json) (result : RawResult) (manifest : TaskManifest)
    (producedSha : Option String) (allowResultWorkspace : Bool) : Except Raised Unit := do
  let embedded ← get header "task_manifest"
  if embedded.pyEq (taskManifestValue manifest) then pure ()
  else
    need (allowResultWorkspace ∧ producedSha.isSome ∧ result.producedSha.isStr manifest.workspaceSha)
      "artifact_manifest_invalid"
    let publication ← onBlocked "artifact_manifest_invalid" (TaskManifest.parse embedded)
    let changed := { manifest with
      workspaceSha := publication.workspaceSha, beforeSha256 := publication.beforeSha256 }
    need ((taskManifestValue publication).pyEq embedded ∧
      Json.sameSet manifest.paths publication.paths ∧
      (taskManifestValue changed).pyEq (taskManifestValue publication)) "artifact_manifest_invalid"

/-- `_decode`. -/
def decode (value : Bytes) (digest : String) (manifest : TaskManifest)
    (producedSha : Option String := none) (allowResultWorkspace : Bool := false) :
    Except Raised (Json × Bytes × RawResult) := do
  let (headerBytes, bundle) ← splitFrame value digest
  let header ← readHeader it headerBytes
  checkBundle header bundle
  let result ← readResult header producedSha
  checkManifest header result manifest producedSha allowResultWorkspace
  pure (header, bundle, result)

/-! ### What the frame holds -/

theorem decodeAscii_encodeAscii {cs : List Char} {bytes : Bytes} (h : encodeAscii cs = some bytes) :
    decodeAscii bytes = some cs := by
  induction cs generalizing bytes with
  | nil =>
    obtain rfl : [] = bytes := by simpa [encodeAscii] using h
    rfl
  | cons c cs ih =>
    rw [encodeAscii, List.mapM_cons] at h
    obtain ⟨b, low, h⟩ := Option.bind_eq_some_iff.mp h
    obtain ⟨rest, tail, h⟩ := Option.bind_eq_some_iff.mp h
    obtain rfl := Option.some.inj h
    split at low
    case isFalse => exact absurd low (by simp)
    case isTrue ascii =>
      obtain rfl := Option.some.inj low
      have code : (UInt8.ofNat c.toNat).toNat = c.toNat := by
        rw [UInt8.toNat_ofNat']
        omega
      rw [decodeAscii, List.mapM_cons, code, if_pos ascii, Char.ofNat_toNat]
      have read : decodeAscii rest = some cs := ih tail
      rw [decodeAscii] at read
      simp [read]

theorem length_packLength (n : Nat) : (packLength n).length = 4 := rfl

theorem unpackLength_packLength {n : Nat} (bound : n ≤ headerLimit) :
    unpackLength (packLength n) = n := by
  have low : ∀ k, (UInt8.ofNat (k % 256)).toNat = k % 256 := by
    intro k
    rw [UInt8.toNat_ofNat']
    omega
  simp only [unpackLength, packLength, List.map_cons, List.map_nil, List.foldl_cons,
    List.foldl_nil, low]
  simp only [headerLimit] at bound
  omega

theorem packLength_unpackLength {bytes : Bytes} (size : bytes.length = 4) :
    packLength (unpackLength bytes) = bytes := by
  match bytes, size with
  | [a, b, c, d], _ =>
    have ha := a.toNat_lt
    have hb := b.toNat_lt
    have hc := c.toNat_lt
    have hd := d.toNat_lt
    have digits : ∀ (x : UInt8) n, n % 256 = x.toNat → UInt8.ofNat (n % 256) = x := by
      intro x n eq
      rw [eq, UInt8.ofNat_toNat]
    simp only [unpackLength, packLength, List.foldl_cons, List.foldl_nil, List.map_cons,
      List.map_nil]
    rw [digits a _ (by omega), digits b _ (by omega), digits c _ (by omega), digits d _ (by omega)]

theorem splitFrame_eq_ok {value headerBytes bundle : Bytes} {digest : String} :
    splitFrame value digest = .ok (headerBytes, bundle) ↔
      Sha256.hexdigestOfBytes value = digest ∧
      value = magic ++ packLength headerBytes.length ++ headerBytes ++ bundle ∧
      0 < headerBytes.length ∧ headerBytes.length ≤ headerLimit ∧ 0 < bundle.length := by
  simp only [splitFrame, bind_eq_ok, need_eq_ok]
  constructor
  · rintro ⟨-, ⟨hash, ⟨rest, rfl⟩, long⟩, -, ⟨positive, limit, more⟩, split⟩
    simp only [List.drop_left, List.length_append] at split positive limit more long
    obtain ⟨rfl, rfl⟩ := Prod.mk.inj (Except.ok.inj split)
    have size : ((rest.drop 4).take (unpackLength (rest.take 4))).length =
        unpackLength (rest.take 4) := by
      rw [List.length_take, List.length_drop]
      omega
    refine ⟨hash, ?_, by omega, by omega, ?_⟩
    · rw [size, packLength_unpackLength (by rw [List.length_take]; omega)]
      simp only [List.append_assoc, List.take_append_drop]
    · simp only [List.length_drop]
      omega
  · rintro ⟨hash, rfl, positive, limit, more⟩
    have front : ((magic ++ packLength headerBytes.length ++ headerBytes ++ bundle).drop
        magic.length) = packLength headerBytes.length ++ (headerBytes ++ bundle) := by
      simp only [List.append_assoc, List.drop_left]
    have size := unpackLength_packLength limit
    refine ⟨(), ⟨hash, ⟨packLength headerBytes.length ++ (headerBytes ++ bundle),
      by simp only [List.append_assoc]⟩, ?_⟩, (), ?_, ?_⟩
    · simp only [List.length_append, length_packLength]
      omega
    · rw [front, List.take_left' (length_packLength _), size]
      simp only [List.length_append, length_packLength]
      omega
    · rw [front, List.take_left' (length_packLength _), List.drop_left' (length_packLength _), size,
        List.take_left, List.drop_left]
      rfl

/-- A frame has one header and one bundle. -/
theorem frame_inj {headerBytes headerBytes' bundle bundle' : Bytes}
    (limit : headerBytes.length ≤ headerLimit) (limit' : headerBytes'.length ≤ headerLimit)
    (h : magic ++ packLength headerBytes.length ++ headerBytes ++ bundle =
      magic ++ packLength headerBytes'.length ++ headerBytes' ++ bundle') :
    headerBytes = headerBytes' ∧ bundle = bundle' := by
  simp only [List.append_assoc] at h
  obtain ⟨packed, rest⟩ := List.append_inj (List.append_cancel_left h) rfl
  have size : headerBytes.length = headerBytes'.length := by
    rw [← unpackLength_packLength limit, packed, unpackLength_packLength limit']
  exact List.append_inj rest size

theorem encode_eq_ok {header : Json} {bundle value : Bytes} {maximum : Int} :
    encode it header bundle maximum = .ok value ↔ ∃ headerBytes,
      canonical it header = .ok headerBytes ∧ 0 < headerBytes.length ∧
      headerBytes.length ≤ headerLimit ∧
      value = magic ++ packLength headerBytes.length ++ headerBytes ++ bundle ∧
      value.length ≤ maximum := by
  unfold encode
  simp only [bind_eq_ok, need_eq_ok]
  constructor
  · rintro ⟨headerBytes, written, _, ⟨positive, limit⟩, _, fits, eq⟩
    obtain rfl := Except.ok.inj eq
    exact ⟨headerBytes, written, positive, limit, rfl, fits⟩
  · rintro ⟨headerBytes, written, positive, limit, rfl, fits⟩
    exact ⟨headerBytes, written, (), ⟨positive, limit⟩, (), fits, rfl⟩

/-! ### Canonical text -/

section Canonical

variable {it}

theorem canonical_eq_ok {v : Json} {bytes : Bytes} : canonical it v = .ok bytes ↔
    v.Everywhere Writable ∧ encodeAscii (v.dumps true it.floatRepr) = some bytes := by
  unfold canonical
  split
  case isTrue h => simp [h]
  case isFalse h => simp [h]

theorem canonical_sorted (v : Json) : canonical it v.sorted = canonical it v := by
  unfold canonical
  simp only [Json.everywhere_sorted (fun _ => trivial) (fun _ => trivial) v (p := Writable),
    Json.dumps_sorted]

/-- The canonical text knows a value only up to the order of its keys. -/
theorem canonical_congr {v w : Json} (same : v.sorted = w.sorted) :
    canonical it v = canonical it w := by
  rw [← canonical_sorted, same, canonical_sorted]

/-- `repr(1.0)`. -/
def WritesOne (it : Interpreter) : Prop := it.floatRepr Float64.one = ['1', '.', '0']

/-- The only float that passes for a version number. -/
def FloatIsOne : Json → Prop
  | .float bits => bits = Float64.one
  | _ => True

theorem scanNumber_one {rest : List Char} (h : Json.Delimited rest) :
    Json.scanNumber (['1', '.', '0'] ++ rest) = some (.float Float64.one, rest) := by
  have whole : Json.scanInteger ('1' :: '.' :: '0' :: rest) = (['1'], '.' :: '0' :: rest) := rfl
  have zero : ∀ d ∈ ['0'], d.isDigit = true := List.forall_mem_singleton.mpr rfl
  have digits : Json.scanDigits ('0' :: rest) = (['0'], rest) :=
    Json.scanDigits_append zero h.not_digit
  have fraction : Json.scanFraction ('.' :: '0' :: rest) = (some ['0'], rest) := by
    simp [Json.scanFraction, digits]
  have sign : Json.scanSign ('1' :: '.' :: '0' :: rest) = (false, '1' :: '.' :: '0' :: rest) := rfl
  have value : Float64.ofDecimal false (Nat.ofDigitChars 10 ['1', '0'] 0) (0 - 1) = Float64.one := by
    decide +kernel
  simp [Json.scanNumber, sign, whole, fraction, Json.scanExponent_delimited h]
  exact value

theorem readsBack (one : WritesOne it) {v : Json} (writable : v.Everywhere Writable)
    (floats : v.Everywhere FloatIsOne) : v.Everywhere (Json.ReadsBack it.floatRepr) := by
  intro w hw
  have digits := writable w hw
  have float := floats w hw
  cases w with
  | int n => exact digits
  | float bits =>
    obtain rfl : bits = Float64.one := float
    intro rest h
    rw [one]
    exact scanNumber_one h
  | _ => trivial

theorem pairsWithoutDuplicates_obj {fields : List (String × Json)}
    (distinct : (Json.keys fields).Nodup) : pairsWithoutDuplicates fields = some (.obj fields) :=
  if_pos distinct

theorem pairsWithoutDuplicates_distinct {fields : List (String × Json)} {v : Json}
    (h : pairsWithoutDuplicates fields = some v) : v = .obj fields ∧ (Json.keys fields).Nodup := by
  unfold pairsWithoutDuplicates at h
  split at h
  case isTrue distinct => exact ⟨(Option.some.inj h).symm, distinct⟩
  case isFalse => exact absurd h (by simp)

/-- What the decoder reads out of the canonical text of a value. -/
theorem loads_canonical (one : WritesOne it) {v : Json} {bytes : Bytes}
    (written : canonical it v = .ok bytes) (distinct : v.Everywhere Json.KeysDistinct)
    (floats : v.Everywhere FloatIsOne) :
    (decodeAscii bytes).bind (Json.loads pairsWithoutDuplicates) = some v.sorted := by
  obtain ⟨writable, text⟩ := canonical_eq_ok.mp written
  rw [decodeAscii_encodeAscii text, Option.bind_some]
  exact Json.loads_dumps (fun _ => pairsWithoutDuplicates_obj) distinct
    (readsBack one writable floats)

end Canonical

/-! ### What the checks of the decoder say -/

open Json (field keys sameSet)

/-- A generation from one on, and two identifiers. -/
def ValidFence (fence : Fence) (effectId : String) : Prop :=
  1 ≤ fence.generation ∧ isSafeId fence.attemptId = true ∧ isSafeId effectId = true

/-- The header names its version, its kind and the fence that it was published under. -/
structure HeaderReads (fields : List (String × Json)) (fence : Fence) (effectId : String) : Prop where
  named : sameSet (keys fields) headerFields = true
  version : (field "schema_version" fields).scalarEq (.int 1) = true
  kind : field "artifact_kind" fields = .str artifactKind
  generation : field "lease_generation" fields = .int fence.generation
  attempt : field "attempt_id" fields = .str fence.attemptId
  effect : field "effect_id" fields = .str effectId
  valid : ValidFence fence effectId

theorem isStr_iff {v : Json} {s : String} : v.isStr s = true ↔ v = .str s := by
  cases v <;> simp [Json.isStr]

theorem isText_iff {v : Json} {p : String → Bool} :
    v.isText p = true ↔ ∃ s, v = .str s ∧ p s = true := by
  cases v <;> simp [Json.isText, Json.str?]

theorem isPositive_iff {v : Json} : v.isPositive = true ↔ ∃ n : Int, v = .int n ∧ 1 ≤ n := by
  cases v <;> simp [Json.isPositive, Json.int?]

theorem readHeader_eq_ok {headerBytes : Bytes} {header : Json} :
    readHeader it headerBytes = .ok header ↔ ∃ fields fence effectId, header = .obj fields ∧
      (decodeAscii headerBytes).bind (Json.loads pairsWithoutDuplicates) = some header ∧
      canonical it header = .ok headerBytes ∧ HeaderReads fields fence effectId := by
  unfold readHeader
  cases loaded : (decodeAscii headerBytes).bind (Json.loads pairsWithoutDuplicates) with
  | none => simp [bind, Except.bind, throw, throwThe, MonadExceptOf.throw]
  | some v =>
    simp only [pure_bind]
    constructor
    · intro h
      obtain ⟨isObj, h⟩ := need_bind_eq_ok.mp h
      obtain ⟨fields, rfl⟩ : ∃ fields, v = .obj fields := by
        cases v with
        | obj fields => exact ⟨fields, rfl⟩
        | _ => exact absurd isObj (by simp [Json.isObj])
      obtain ⟨written, text, h⟩ := bind_eq_ok.mp h
      simp only [needFields_obj, need_bind_eq_ok, get_obj, ok_bind, Bool.and_eq_true, isStr_iff,
        isText_iff, isPositive_iff] at h
      obtain ⟨rfl, named, ⟨⟨⟨⟨version, kind⟩, n, generation, positive⟩, a, attempt, safe⟩, e, effect,
        safe'⟩, eq⟩ := h
      obtain rfl := Except.ok.inj eq
      exact ⟨fields, ⟨n, a⟩, e, rfl, rfl, text,
        ⟨named, version, kind, generation, attempt, effect, positive, safe, safe'⟩⟩
    · rintro ⟨fields, fence, effectId, rfl, eq, text, reads⟩
      obtain rfl := Option.some.inj eq
      obtain ⟨positive, safe, safe'⟩ := reads.valid
      refine need_bind_eq_ok.mpr ⟨rfl, bind_eq_ok.mpr ⟨headerBytes, text, ?_⟩⟩
      simp only [needFields_obj, need_bind_eq_ok, get_obj, ok_bind, reads.named, reads.version,
        reads.kind, reads.generation, reads.attempt, reads.effect]
      simp [Json.isStr, Json.isPositive, Json.isText, Json.int?, Json.str?, positive, safe, safe',
        pure, Except.pure]

theorem checkBundle_eq_ok {fields : List (String × Json)} {bundle : Bytes} :
    checkBundle (.obj fields) bundle = .ok () ↔ ∃ described, field "bundle" fields = .obj described ∧
      sameSet (keys described) ["sha256", "size"] = true ∧
      field "size" described = .int bundle.length ∧
      field "sha256" described = .str (Sha256.hexdigestOfBytes bundle) ∧ 0 < bundle.length := by
  have hex : isSha256 (Sha256.hexdigestOfBytes bundle) = true :=
    Sha256.hexdigestOfBytes_hexRun bundle
  simp only [checkBundle, get_obj, ok_bind]
  constructor
  · intro h
    obtain ⟨_, shape, h⟩ := bind_eq_ok.mp h
    obtain ⟨described, eq⟩ := isObj_of_needFields shape
    rw [eq] at shape h
    rw [needFields_obj, need_eq_ok] at shape
    simp only [get_obj, ok_bind, need_eq_ok, isStr_iff] at h
    obtain ⟨size, positive, -, sha⟩ := h
    refine ⟨described, eq, shape, ?_, sha, positive⟩
    cases held : field "size" described with
    | int n => simpa [held, Json.int?] using size
    | _ => exact absurd size (by simp [held, Json.int?])
  · rintro ⟨described, eq, shape, size, sha, positive⟩
    rw [eq]
    simp only [needFields_obj, need_bind_eq_ok, get_obj, ok_bind, size, sha, shape]
    simp [Json.int?, Json.isText, Json.isStr, Json.str?, positive, hex]

def resultFields : List String :=
  ["produced_sha", "changed_paths", "invoked_commands", "evidence_sha256"]

/-- The dictionary that `_result_value` makes of a result with these paths. -/
def resultPairs (r : RawResult) (paths : List String) : List (String × Json) := [
  ("produced_sha", r.producedSha),
  ("changed_paths", texts paths),
  ("invoked_commands", .arr r.invokedCommands),
  ("evidence_sha256", r.evidenceSha256)]

/-- A result that `_result_value` accepts, and its paths in their normal spelling. -/
structure ResultReads (r : RawResult) (paths : List String) : Prop where
  produced : ∃ s, r.producedSha = .str s
  evidence : ∃ s, r.evidenceSha256 = .str s
  spelled : r.changedPaths.mapM safeRelativePath = .ok paths
  changed : paths ≠ []
  commands : ∃ names : List String, r.invokedCommands = names.map .str
  invoked : r.invokedCommands ≠ []

theorem mapM_str {values : List Json} {names : List String}
    (h : values.mapM Json.str? = some names) : values = names.map .str := by
  induction values generalizing names with
  | nil =>
    obtain rfl : [] = names := by simpa using h
    rfl
  | cons v values ih =>
    rw [List.mapM_cons] at h
    obtain ⟨s, head, h⟩ := Option.bind_eq_some_iff.mp h
    obtain ⟨rest, tail, h⟩ := Option.bind_eq_some_iff.mp h
    obtain rfl := Option.some.inj h
    obtain rfl : v = .str s := by
      cases v <;> simp_all [Json.str?]
    rw [ih tail]
    rfl

theorem resultValue_reads {r : RawResult} {v : Json} (h : resultValue r = .ok v) :
    ∃ paths, ResultReads r paths ∧ v = .obj (resultPairs r paths) := by
  unfold resultValue at h
  obtain ⟨sha, produced, h⟩ := bind_eq_ok.mp h
  obtain ⟨evidence, evident, h⟩ := bind_eq_ok.mp h
  obtain ⟨paths, spelled, h⟩ := bind_eq_ok.mp h
  obtain ⟨⟨changed, -⟩, h⟩ := need_bind_eq_ok.mp h
  obtain ⟨_, named, h⟩ := bind_eq_ok.mp h
  unfold needCommands at named
  obtain ⟨⟨some, -⟩, named⟩ := need_bind_eq_ok.mp named
  obtain ⟨_, -, named⟩ := bind_eq_ok.mp named
  refine ⟨paths, ⟨⟨sha, (needText_eq_ok.mp produced).1⟩, ⟨evidence, (needText_eq_ok.mp evident).1⟩,
    spelled, changed, ?_, List.length_pos_iff.mp some⟩, (Except.ok.inj h).symm⟩
  split at named
  case h_1 names texts => exact ⟨names, mapM_str texts⟩
  case h_2 => exact absurd named (by simp [throw, throwThe, MonadExceptOf.throw])

theorem readResult_eq_ok {fields : List (String × Json)} {producedSha : Option String}
    {result : RawResult} : readResult (.obj fields) producedSha = .ok result ↔ ∃ raw,
      field "result" fields = .obj raw ∧ sameSet (keys raw) resultFields = true ∧
      result = ⟨field "produced_sha" raw, items (field "changed_paths" raw),
        items (field "invoked_commands" raw), field "evidence_sha256" raw⟩ ∧
      (∃ v, resultValue result = .ok v) ∧ ∀ sha ∈ producedSha, result.producedSha = .str sha := by
  simp only [readResult, get_obj, ok_bind]
  constructor
  · intro h
    obtain ⟨_, shape, h⟩ := bind_eq_ok.mp h
    obtain ⟨raw, eq⟩ := isObj_of_needFields shape
    rw [eq] at shape h
    rw [needFields_obj, need_eq_ok] at shape
    simp only [get_obj, ok_bind] at h
    obtain ⟨v, accepted, h⟩ := bind_eq_ok.mp h
    obtain ⟨agrees, h⟩ := need_bind_eq_ok.mp h
    obtain rfl := Except.ok.inj h
    exact ⟨raw, eq, shape, rfl, ⟨v, accepted⟩, fun sha hs => isStr_iff.mp (agrees sha hs)⟩
  · rintro ⟨raw, eq, shape, rfl, ⟨v, accepted⟩, agrees⟩
    rw [eq, needFields_obj, need_bind_eq_ok]
    refine ⟨shape, ?_⟩
    simp only [get_obj, ok_bind, accepted, need_bind_eq_ok]
    exact ⟨fun sha hs => isStr_iff.mpr (agrees sha hs), rfl⟩

/-- The manifest inside, if it is not the caller's. -/
structure PublishedFor (embedded : Json) (result : RawResult) (manifest publication : TaskManifest) :
    Prop where
  parsed : TaskManifest.parse embedded = .ok publication
  workspace : result.producedSha = .str manifest.workspaceSha
  whole : (taskManifestValue publication).pyEq embedded = true
  named : sameSet manifest.paths publication.paths = true
  others : (taskManifestValue { manifest with
    workspaceSha := publication.workspaceSha, beforeSha256 := publication.beforeSha256 }).pyEq
      (taskManifestValue publication) = true

theorem onBlocked_eq_ok {α : Type} {code : String} {x : Except Raised α} {a : α} :
    onBlocked code x = .ok a ↔ x = .ok a := by
  unfold onBlocked
  split <;> simp

theorem checkManifest_eq_ok {fields : List (String × Json)} {result : RawResult}
    {manifest : TaskManifest} {producedSha : Option String} {allow : Bool} :
    checkManifest (.obj fields) result manifest producedSha allow = .ok () ↔
      (field "task_manifest" fields).pyEq (taskManifestValue manifest) = true ∨
      (field "task_manifest" fields).pyEq (taskManifestValue manifest) = false ∧ allow = true ∧
        producedSha.isSome = true ∧
        ∃ publication, PublishedFor (field "task_manifest" fields) result manifest publication := by
  simp only [checkManifest, get_obj, ok_bind]
  cases same : (field "task_manifest" fields).pyEq (taskManifestValue manifest) with
  | true => simp [pure, Except.pure]
  | false =>
    simp only [Bool.false_eq_true, if_false, false_or, true_and, bind_eq_ok, onBlocked_eq_ok,
      need_eq_ok, isStr_iff]
    constructor
    · rintro ⟨-, ⟨allowed, given, workspace⟩, publication, parsed, whole, named, others⟩
      exact ⟨allowed, given, publication, parsed, workspace, whole, named, others⟩
    · rintro ⟨allowed, given, publication, parsed, workspace, whole, named, others⟩
      exact ⟨(), ⟨allowed, given, workspace⟩, publication, parsed, whole, named, others⟩

/-- The decoder accepts exactly what passes each of its checks. -/
theorem decode_eq_ok {value bundle : Bytes} {digest : String} {manifest : TaskManifest}
    {producedSha : Option String} {allow : Bool} {header : Json} {result : RawResult} :
    decode it value digest manifest producedSha allow = .ok (header, bundle, result) ↔
      ∃ headerBytes, splitFrame value digest = .ok (headerBytes, bundle) ∧
        readHeader it headerBytes = .ok header ∧ checkBundle header bundle = .ok () ∧
        readResult header producedSha = .ok result ∧
        checkManifest header result manifest producedSha allow = .ok () := by
  simp only [decode, bind_eq_ok]
  constructor
  · rintro ⟨⟨headerBytes, bundle'⟩, split, header', read, _, checked, result', got, _, bound, eq⟩
    obtain ⟨rfl, rfl, rfl⟩ : header' = header ∧ bundle' = bundle ∧ result' = result := by
      simpa [pure, Except.pure] using eq
    exact ⟨headerBytes, split, read, checked, got, bound⟩
  · rintro ⟨headerBytes, split, read, checked, got, bound⟩
    exact ⟨(headerBytes, bundle), split, header, read, (), checked, result, got, (), bound, rfl⟩

end WorkerPool
