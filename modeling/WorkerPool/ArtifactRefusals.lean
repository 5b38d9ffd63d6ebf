import WorkerPool.Envelopes
import WorkerPool.Lib.JsonSize

/-!
# What a decoder raises

`_decode` refuses a value with `NativeExecutorBlocked`, except where it writes the header again or puts
the commands into a set before it has looked at their types.
-/

namespace WorkerPool

/-- Whatever is raised is `NativeExecutorBlocked`. -/
def Refuses {α : Type} (x : Except Raised α) : Prop := ∀ e, x = .error e → ∃ args, e = .blocked args

section Refuses

variable {α β : Type}

theorem refuses_ok (a : α) : Refuses (.ok a : Except Raised α) := fun _ h => nomatch h

theorem refuses_blocked (args : List Json) : Refuses (.error (.blocked args) : Except Raised α) := by
  intro e h
  cases h
  exact ⟨args, rfl⟩

theorem not_refuses_error : ¬ Refuses (.error .error : Except Raised α) := by
  intro h
  obtain ⟨args, same⟩ := h .error rfl
  cases same

theorem refuses_bind {x : Except Raised α} {f : α → Except Raised β} :
    Refuses (x >>= f) ↔ Refuses x ∧ ∀ a, x = .ok a → Refuses (f a) := by
  cases x with
  | ok a =>
    constructor
    · intro h
      refine ⟨refuses_ok a, fun b same => ?_⟩
      cases same
      exact h
    · exact fun h => h.2 a rfl
  | error e =>
    constructor
    · intro h
      refine ⟨fun e' same => ?_, fun a same => nomatch same⟩
      cases same
      exact h e rfl
    · rintro ⟨h, -⟩ e' same
      cases same
      exact h e rfl

theorem Refuses.bind {x : Except Raised α} {f : α → Except Raised β} (first : Refuses x)
    (rest : ∀ a, x = .ok a → Refuses (f a)) : Refuses (x >>= f) :=
  refuses_bind.mpr ⟨first, rest⟩

theorem refuses_need (c : Prop) [Decidable c] (code : String) : Refuses (need c code) := by
  unfold need
  split
  · exact refuses_ok ()
  · exact refuses_blocked _

theorem refuses_needText (value : Json) (pattern : String → Bool) (code : String) :
    Refuses (needText value pattern code) := by
  unfold needText
  split
  · split
    · exact refuses_ok _
    · exact refuses_blocked _
  · exact refuses_blocked _

theorem refuses_orError {o : Option α} : Refuses (orError o) ↔ o.isSome = true := by
  cases o with
  | none => exact ⟨fun h => (not_refuses_error h).elim, fun h => (nomatch h)⟩
  | some a => exact ⟨fun _ => rfl, fun _ => refuses_ok a⟩

theorem refuses_needFields (value : Json) (names : List String) (code : String) :
    Refuses (needFields value names code) := by
  refine (refuses_need _ _).bind fun _ shape => ?_
  cases value with
  | obj fields => exact (refuses_orError.mpr rfl).bind fun _ _ => refuses_need _ _
  | _ => exact absurd (need_eq_ok.mp shape) (by simp [Json.isObj])

theorem refuses_get_obj (fields : List (String × Json)) (key : String) : Refuses (get (.obj fields) key) :=
  refuses_ok _

theorem refuses_mapM {f : α → Except Raised β} (each : ∀ a, Refuses (f a)) (values : List α) :
    Refuses (values.mapM f) := by
  induction values with
  | nil => exact refuses_ok []
  | cons a rest ih =>
    rw [List.mapM_cons]
    exact (each a).bind fun _ _ => ih.bind fun _ _ => refuses_ok _

theorem refuses_foldlM {f : β → α → Except Raised β} (each : ∀ b a, Refuses (f b a)) (values : List α)
    (b : β) : Refuses (values.foldlM f b) := by
  induction values generalizing b with
  | nil => exact refuses_ok b
  | cons a rest ih =>
    rw [List.foldlM_cons]
    exact (each b a).bind fun _ _ => ih _

end Refuses

/-! ### Parts that only refuse -/

theorem safePath_refuses (text : String) : Refuses (safePath text) :=
  (refuses_need _ _).bind fun _ _ => (refuses_need _ _).bind fun _ _ =>
    (refuses_need _ _).bind fun _ _ => refuses_ok _

theorem safeRelativePath_refuses (value : Json) : Refuses (safeRelativePath value) :=
  (refuses_needText _ _ _).bind fun _ _ => (refuses_need _ _).bind fun _ _ => refuses_ok _

theorem TaskManifest.parse_refuses (raw : Json) : Refuses (TaskManifest.parse raw) := by
  refine (refuses_needFields _ _ _).bind fun _ shape => ?_
  obtain ⟨fields, rfl⟩ := isObj_of_needFields shape
  refine (refuses_get_obj _ _).bind fun before _ => ?_
  cases before with
  | obj before =>
    refine (refuses_need _ _).bind fun _ _ => (refuses_foldlM (fun _ _ => ?_) _ _).bind fun _ _ => ?_
    · exact (safePath_refuses _).bind fun _ _ => (refuses_needText _ _ _).bind fun _ _ => refuses_ok _
    · refine (refuses_get_obj _ _).bind fun _ _ => (refuses_need _ _).bind fun _ _ => ?_
      refine (refuses_get_obj _ _).bind fun _ _ => (refuses_needText _ _ _).bind fun _ _ => ?_
      refine (refuses_get_obj _ _).bind fun _ _ => (refuses_needText _ _ _).bind fun _ _ => ?_
      refine (refuses_get_obj _ _).bind fun _ _ => (refuses_needText _ _ _).bind fun _ _ => ?_
      refine (refuses_get_obj _ _).bind fun _ _ => (refuses_needText _ _ _).bind fun _ _ => ?_
      refine (refuses_get_obj _ _).bind fun _ _ => (refuses_needText _ _ _).bind fun _ _ => ?_
      exact (refuses_get_obj _ _).bind fun _ _ => (refuses_needText _ _ _).bind fun _ _ => refuses_ok _
  | _ => exact refuses_blocked _

theorem splitFrame_refuses (value : Bytes) (digest : String) : Refuses (splitFrame value digest) :=
  (refuses_need _ _).bind fun _ _ => (refuses_need _ _).bind fun _ _ => refuses_ok _

/-! ### Parts that may raise something else -/

theorem encodeAscii_ascii {cs : List Char} (ascii : Json.Ascii cs) :
    encodeAscii cs = some (cs.map fun c => UInt8.ofNat c.toNat) := by
  induction cs with
  | nil => rfl
  | cons c cs ih =>
    obtain ⟨first, later⟩ := List.forall_mem_cons.mp ascii
    have rest := ih later
    rw [encodeAscii] at rest
    rw [encodeAscii, List.mapM_cons, if_pos first, rest]
    rfl

section Canonical

variable {it : Interpreter}

/-- What `_canonical` raises, it raises for a number that JSON has no text for. -/
theorem canonical_refuses (ascii : ∀ bits, Float64.isFinite bits = true → Json.Ascii (it.floatRepr bits))
    {v : Json} : Refuses (canonical it v) ↔ v.Everywhere Writable := by
  unfold canonical
  split
  · rename_i writable
    have floats : v.Everywhere (Json.FloatsAscii it.floatRepr) := by
      intro w part
      have finite := writable w part
      cases w with
      | float bits => exact ascii bits finite
      | _ => trivial
    rw [encodeAscii_ascii (Json.dumps_ascii floats)]
    exact ⟨fun _ => writable, fun _ => refuses_ok _⟩
  · rename_i unwritable
    exact ⟨fun h => (not_refuses_error h).elim, fun h => absurd h unwritable⟩

/-- The JSON of a header. -/
def headerJson (headerBytes : Bytes) : Option Json :=
  (decodeAscii headerBytes).bind (Json.loads pairsWithoutDuplicates)

theorem readHeader_refuses
    (ascii : ∀ bits, Float64.isFinite bits = true → Json.Ascii (it.floatRepr bits)) {headerBytes : Bytes} :
    Refuses (readHeader it headerBytes) ↔ ∀ header, headerJson headerBytes = some header →
      header.isObj = true → header.Everywhere Writable := by
  unfold readHeader headerJson
  cases loaded : (decodeAscii headerBytes).bind (Json.loads pairsWithoutDuplicates) with
  | none => exact ⟨fun _ _ h => (nomatch h), fun _ => refuses_blocked _⟩
  | some header =>
    constructor
    · intro h header' same object
      cases same
      have written := ((refuses_bind.mp ((refuses_bind.mp h).2 header rfl)).2 () (if_pos object))
      exact (canonical_refuses ascii).mp (refuses_bind.mp written).1
    · intro h
      refine (refuses_ok header).bind fun _ same => ?_
      cases same
      refine (refuses_need _ _).bind fun _ object => ?_
      refine ((canonical_refuses ascii).mpr (h header rfl (need_eq_ok.mp object))).bind fun _ _ => ?_
      refine (refuses_need _ _).bind fun _ _ => (refuses_needFields _ _ _).bind fun _ shape => ?_
      obtain ⟨fields, rfl⟩ := isObj_of_needFields shape
      exact (refuses_get_obj _ _).bind fun _ _ => (refuses_get_obj _ _).bind fun _ _ =>
        (refuses_get_obj _ _).bind fun _ _ => (refuses_get_obj _ _).bind fun _ _ =>
        (refuses_get_obj _ _).bind fun _ _ => (refuses_need _ _).bind fun _ _ => refuses_ok _

end Canonical

theorem isObj_of_readHeader {it : Interpreter} {headerBytes : Bytes} {header : Json}
    (h : readHeader it headerBytes = .ok header) : ∃ fields, header = .obj fields := by
  unfold readHeader at h
  obtain ⟨loaded, -, h⟩ := bind_eq_ok.mp h
  obtain ⟨_, -, h⟩ := bind_eq_ok.mp h
  obtain ⟨_, -, h⟩ := bind_eq_ok.mp h
  obtain ⟨_, -, h⟩ := bind_eq_ok.mp h
  obtain ⟨_, shape, h⟩ := bind_eq_ok.mp h
  obtain ⟨fields, rfl⟩ := isObj_of_needFields shape
  obtain ⟨_, -, h⟩ := bind_eq_ok.mp h
  obtain ⟨_, -, h⟩ := bind_eq_ok.mp h
  obtain ⟨_, -, h⟩ := bind_eq_ok.mp h
  obtain ⟨_, -, h⟩ := bind_eq_ok.mp h
  obtain ⟨_, -, h⟩ := bind_eq_ok.mp h
  obtain ⟨_, -, h⟩ := bind_eq_ok.mp h
  exact ⟨fields, (Except.ok.inj h).symm⟩

theorem checkBundle_refuses (fields : List (String × Json)) (bundle : Bytes) :
    Refuses (checkBundle (.obj fields) bundle) := by
  refine (refuses_get_obj _ _).bind fun _ _ => (refuses_needFields _ _ _).bind fun _ shape => ?_
  obtain ⟨fields', rfl⟩ := isObj_of_needFields shape
  exact (refuses_get_obj _ _).bind fun _ _ => (refuses_get_obj _ _).bind fun _ _ => refuses_need _ _

/-- Everything that is checked of a result before its commands are put into a set. -/
structure CommandsReached (r : RawResult) : Prop where
  produced : r.producedSha.isText isSha40 = true
  evidence : r.evidenceSha256.isText isSha256 = true
  paths : ∃ paths, r.changedPaths.mapM safeRelativePath = .ok paths ∧ paths ≠ [] ∧ Ordered paths
  count : 1 ≤ r.invokedCommands.length ∧ r.invokedCommands.length ≤ 64

theorem isText_of_needText {value : Json} {pattern : String → Bool} {code s : String}
    (h : needText value pattern code = .ok s) : value.isText pattern = true := by
  obtain ⟨rfl, fits⟩ := needText_eq_ok.mp h
  exact fits

theorem needText_of_isText {value : Json} {pattern : String → Bool} (code : String)
    (h : value.isText pattern = true) : ∃ s, needText value pattern code = .ok s := by
  cases value with
  | str s => exact ⟨s, needText_eq_ok.mpr ⟨rfl, h⟩⟩
  | _ => cases h

/-- What `_result_value` raises, it raises for a command that has no hash. -/
theorem resultValue_refuses {r : RawResult} : Refuses (resultValue r) ↔
    (CommandsReached r → ∀ command ∈ r.invokedCommands, command.isHashable = true) := by
  constructor
  · rintro h ⟨produced, evidence, ⟨paths, spelled, some_path, ordered⟩, count⟩
    obtain ⟨_, first⟩ := needText_of_isText "artifact_result_invalid" produced
    obtain ⟨_, second⟩ := needText_of_isText "artifact_result_invalid" evidence
    have after := (refuses_bind.mp ((refuses_bind.mp ((refuses_bind.mp ((refuses_bind.mp h).2 _ first)).2 _
      second)).2 paths spelled)).2 () (if_pos ⟨some_path, ordered⟩)
    have hashes := (refuses_bind.mp ((refuses_bind.mp (refuses_bind.mp after).1).2 () (if_pos count))).1
    by_cases all : r.invokedCommands.all Json.isHashable = true
    · exact List.all_eq_true.mp all
    · rw [if_neg all] at hashes
      exact (not_refuses_error hashes).elim
  · intro hashable
    refine (refuses_needText _ _ _).bind fun _ produced => (refuses_needText _ _ _).bind fun _ evidence => ?_
    refine (refuses_mapM safeRelativePath_refuses _).bind fun paths spelled => ?_
    refine (refuses_need _ _).bind fun _ fits => Refuses.bind ?_ fun _ _ => refuses_ok _
    refine (refuses_need _ _).bind fun _ count => ?_
    have all : r.invokedCommands.all Json.isHashable = true :=
      List.all_eq_true.mpr (hashable ⟨isText_of_needText produced, isText_of_needText evidence,
        ⟨paths, spelled, need_eq_ok.mp fits⟩, need_eq_ok.mp count⟩)
    rw [if_pos all]
    refine (refuses_ok ()).bind fun _ _ => ?_
    split
    · exact refuses_need _ _
    · exact refuses_blocked _

/-- The result of a header, as far as its fields go. -/
def rawResult (raw : List (String × Json)) : RawResult :=
  ⟨Json.field "produced_sha" raw, items (Json.field "changed_paths" raw),
    items (Json.field "invoked_commands" raw), Json.field "evidence_sha256" raw⟩

def rawResultFields : List String := ["produced_sha", "changed_paths", "invoked_commands", "evidence_sha256"]

theorem readResult_refuses {fields : List (String × Json)} {producedSha : Option String} :
    Refuses (readResult (.obj fields) producedSha) ↔
      ∀ raw, Json.field "result" fields = .obj raw → Json.sameSet (Json.keys raw) rawResultFields = true →
        Refuses (resultValue (rawResult raw)) := by
  constructor
  · intro h raw held named
    unfold readResult at h
    rw [get_obj, held] at h
    have after : Refuses (resultValue (rawResult raw) >>= fun _ => _) :=
      (refuses_bind.mp ((refuses_bind.mp h).2 _ rfl)).2 () (if_pos named)
    exact (refuses_bind.mp after).1
  · intro values
    refine (refuses_get_obj _ _).bind fun raw held => (refuses_needFields _ _ _).bind fun _ shape => ?_
    obtain ⟨raw, rfl⟩ := isObj_of_needFields shape
    rw [needFields_obj, need_eq_ok] at shape
    show Refuses (resultValue (rawResult raw) >>= fun _ => _)
    exact (values raw (Except.ok.inj held) shape).bind fun _ _ => (refuses_need _ _).bind fun _ _ => refuses_ok _

theorem checkManifest_refuses (fields : List (String × Json)) (result : RawResult) (manifest : TaskManifest)
    (producedSha : Option String) (allowResultWorkspace : Bool) :
    Refuses (checkManifest (.obj fields) result manifest producedSha allowResultWorkspace) := by
  refine (refuses_get_obj _ _).bind fun embedded _ => ?_
  split
  · exact refuses_ok _
  · refine (refuses_need _ _).bind fun _ _ => Refuses.bind ?_ fun _ _ => refuses_need _ _
    have parses := TaskManifest.parse_refuses embedded
    cases parsed : TaskManifest.parse embedded with
    | ok m => exact refuses_ok m
    | error e =>
      obtain ⟨args, rfl⟩ := parses e parsed
      exact refuses_blocked _

/-! ### The decoder -/

section Decode

variable (it : Interpreter)

/-- The header that is read holds no number that is not finite, and no command of its result is a list or
an object unless something before the commands is refused. -/
structure Tame (value : Bytes) (digest : String) : Prop where
  finite : ∀ headerBytes bundle header, splitFrame value digest = .ok (headerBytes, bundle) →
    headerJson headerBytes = some header → header.isObj = true → header.Everywhere Writable
  hashable : ∀ headerBytes bundle fields raw, splitFrame value digest = .ok (headerBytes, bundle) →
    readHeader it headerBytes = .ok (.obj fields) → checkBundle (.obj fields) bundle = .ok () →
    Json.field "result" fields = .obj raw → Json.sameSet (Json.keys raw) rawResultFields = true →
    CommandsReached (rawResult raw) → ∀ command ∈ (rawResult raw).invokedCommands, command.isHashable = true

/-- `_decode` returns or raises `NativeExecutorBlocked` exactly if the header is tame. -/
theorem decode_refuses (ascii : ∀ bits, Float64.isFinite bits = true → Json.Ascii (it.floatRepr bits))
    (value : Bytes) (digest : String) (manifest : TaskManifest) (producedSha : Option String)
    (allowResultWorkspace : Bool) :
    Refuses (decode it value digest manifest producedSha allowResultWorkspace) ↔ Tame it value digest := by
  constructor
  · intro h
    refine ⟨fun headerBytes bundle header framed loaded object => ?_,
      fun headerBytes bundle fields raw framed read described held named reached => ?_⟩
    · have after := (refuses_bind.mp h).2 _ framed
      exact (readHeader_refuses ascii).mp (refuses_bind.mp after).1 header loaded object
    · have after := (refuses_bind.mp ((refuses_bind.mp ((refuses_bind.mp h).2 _ framed)).2 _ read)).2 ()
        described
      exact resultValue_refuses.mp (readResult_refuses.mp (refuses_bind.mp after).1 raw held named) reached
  · rintro ⟨finite, hashable⟩
    refine (splitFrame_refuses value digest).bind fun ⟨headerBytes, bundle⟩ framed => ?_
    refine ((readHeader_refuses ascii).mpr (finite headerBytes bundle · framed)).bind fun header read => ?_
    obtain ⟨fields, rfl⟩ := isObj_of_readHeader read
    refine (checkBundle_refuses fields bundle).bind fun _ described => Refuses.bind ?_ fun result _ => ?_
    · exact readResult_refuses.mpr fun raw held named =>
        resultValue_refuses.mpr (hashable headerBytes bundle fields raw framed read described held named)
    · exact (checkManifest_refuses fields result manifest producedSha allowResultWorkspace).bind
        fun _ _ => refuses_ok _

end Decode

theorem sample_ascii (bits : UInt64) : Json.Ascii (Sample.interpreter.floatRepr bits) := by
  show Json.Ascii ['1', '.', '0']
  exact List.all_iff_forall_prop.mp (by decide)

theorem sample_decode_refuses :
    Refuses (decode Sample.interpreter Sample.value (Sha256.hexdigestOfBytes Sample.value) Sample.manifest
      none false) ↔ Tame Sample.interpreter Sample.value (Sha256.hexdigestOfBytes Sample.value) :=
  decode_refuses Sample.interpreter (fun bits _ => sample_ascii bits) Sample.value _ Sample.manifest none false

/-- The text `{"a":1e999}`, whose number is read as infinity. -/
def Sample.infinite : Bytes := "\x7b\"a\":1e999\x7d".toList.map fun c => UInt8.ofNat c.toNat

def Sample.overflow : Bytes := magic ++ packLength Sample.infinite.length ++ Sample.infinite ++ [33]

/-- Writing the header again raises `ValueError`. -/
theorem sample_overflow_raises : ¬ Refuses (decode Sample.interpreter Sample.overflow
    (Sha256.hexdigestOfBytes Sample.overflow) Sample.manifest none false) := by
  intro h
  have framed : splitFrame Sample.overflow (Sha256.hexdigestOfBytes Sample.overflow) =
      .ok (Sample.infinite, [33]) :=
    splitFrame_eq_ok.mpr ⟨rfl, rfl, by decide, by decide, by decide⟩
  have loaded : (headerJson Sample.infinite).map (fun header =>
      header.isObj && !decide (header.Everywhere Writable)) = some true := by
    decide +kernel
  obtain ⟨header, read, held⟩ := Option.map_eq_some_iff.mp loaded
  obtain ⟨object, infinite⟩ := Bool.and_eq_true_iff.mp held
  have after := (refuses_bind.mp h).2 _ framed
  have finite := (readHeader_refuses fun bits _ => sample_ascii bits).mp (refuses_bind.mp after).1 header read object
  exact absurd finite (of_decide_eq_false (Bool.not_eq_true' _ ▸ infinite))

end WorkerPool
