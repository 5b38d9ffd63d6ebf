import WorkerPool.Artifact

/-!
# Bounded downloads

`_download` reads a response in pieces, within a budget of one byte more than an artifact
may have, and probes once more for a byte behind it. A body is a stream whose state only its
`read` changes; what the stream still holds is `pending`.
-/

namespace WorkerPool

structure S3ArtifactConfig where
  bucket : String
  keyPrefix : String
  maxArtifactBytes : Nat
  bounds : 1024 ≤ maxArtifactBytes ∧ maxArtifactBytes ≤ 1073741824

/-- What `read` of a body may return: bytes, `None` or anything else. -/
inductive Piece where
  | bytes (value : Bytes)
  | absent
  | other

/-- How the streams of a client are read, and closed if they can be. -/
structure Streams (σ : Type) where
  read : σ → Nat → Except Raised Piece × σ
  close : σ → Option (Except Raised Unit)

/-- The reply of `get_object`: its `ContentLength` and, when it can be read, its `Body`. -/
structure Response (σ : Type) where
  contentLength : Json
  body : Option σ

variable {σ : Type}

def readInvalid : Raised := .blocked [.str "artifact_store_read_invalid"]

def chunkSize : Nat := 1048576

/-- The loop of `_download`. -/
def readChunks (io : Streams σ) (remaining : Nat) (stream : σ) : Except Raised Bytes × σ :=
  if remaining = 0 then (.ok [], stream)
  else
    let requested := min chunkSize remaining
    match io.read stream requested with
    | (.error e, after) => (.error e, after)
    | (.ok (.bytes chunk), after) =>
      if chunk.length ≤ requested then
        if _empty : chunk = [] then (.ok [], after)
        else
          let rest := readChunks io (remaining - chunk.length) after
          (rest.1.map (chunk ++ ·), rest.2)
      else (.error readInvalid, after)
    | (.ok _, after) => (.error readInvalid, after)
termination_by remaining
decreasing_by
  have long : chunk.length ≠ 0 := fun none_ => _empty (List.length_eq_zero_iff.mp none_)
  omega

/-- The bytes of the body and the probe behind them. -/
def drain (io : Streams σ) (maximum : Nat) (stream : σ) : Except Raised (Bytes × Piece) × σ :=
  match readChunks io (maximum + 1) stream with
  | (.error e, after) => (.error e, after)
  | (.ok value, after) =>
    let extra := io.read after 1
    (extra.1.map fun piece => (value, piece), extra.2)

/-- `extra in {b"", None}`. -/
def Piece.isEnd : Piece → Bool
  | .bytes value => value.isEmpty
  | .absent => true
  | .other => false

/-- The end of `_download`; an exception of `close` takes the place of one in its body. -/
def settleRead (maximum : Nat) (length : Int) (read : Except Raised (Bytes × Piece))
    (closed : Except Raised Unit) : Except Raised Bytes := do
  closed
  let (value, extra) ← read
  need ((value.length : Int) = length ∧ value.length ≤ maximum ∧ extra.isEnd)
    "artifact_store_read_invalid"
  pure value

/-- What `_download` makes of a response whose `ContentLength` is an `int`. -/
def receive (io : Streams σ) (maximum : Nat) (length : Int) (stream : σ) :
    Except Raised Bytes × σ :=
  if 0 < length ∧ length ≤ maximum then
    let read := drain io maximum stream
    (settleRead maximum length read.1 ((io.close read.2).getD (.ok ())), read.2)
  else (.error readInvalid, stream)

/-- The `except` clauses of `_download`. -/
def orReadFailed {α : Type} : Except Raised α → Except Raised α
  | .error .error => .error (.blocked [.str "artifact_store_read_failed"])
  | r => r

/-- `_download`, where `reply` is what the client's `get_object` does: its outcome, and the
stream as it leaves it. -/
def download (io : Streams σ) (config : S3ArtifactConfig) :
    Except Raised (Response σ) → Except Raised Bytes × Option σ
  | .error e => (orReadFailed (.error e), none)
  | .ok ⟨.int length, some stream⟩ =>
    let received := receive io config.maxArtifactBytes length stream
    (orReadFailed received.1, some received.2)
  | .ok ⟨_, body⟩ => (.error readInvalid, body)

/-! ### Streams that deliver a content -/

/-- Each read takes a piece of what the stream still holds, and takes nothing only at its end. -/
structure Streams.Delivers (io : Streams σ) (pending : σ → Bytes) : Prop where
  read : ∀ stream n, 0 < n → ∃ chunk, (io.read stream n).1 = .ok (.bytes chunk) ∧
    chunk.length ≤ n ∧ (pending stream ≠ [] → chunk ≠ []) ∧
    pending stream = chunk ++ pending (io.read stream n).2
  close : ∀ stream closed, io.close stream = some closed → closed = .ok ()

variable {io : Streams σ} {pending : σ → Bytes}

/-- The loop takes from the stream what the budget allows and no more. -/
theorem readChunks_delivers (delivers : io.Delivers pending) (remaining : Nat) (stream : σ) :
    (readChunks io remaining stream).1 = .ok ((pending stream).take remaining) ∧
      pending (readChunks io remaining stream).2 = (pending stream).drop remaining := by
  induction remaining using Nat.strong_induction_on generalizing stream with
  | _ remaining ih =>
    rw [readChunks]
    by_cases spent : remaining = 0
    · subst spent
      exact ⟨rfl, rfl⟩
    · have requested : 0 < min chunkSize remaining := by
        have large : 0 < chunkSize := by decide
        omega
      obtain ⟨chunk, read, short, more, split⟩ := delivers.read stream _ requested
      have reply : io.read stream (min chunkSize remaining) =
          (.ok (.bytes chunk), (io.read stream (min chunkSize remaining)).2) := Prod.ext read rfl
      generalize (io.read stream (min chunkSize remaining)).2 = after at reply split
      rw [if_neg spent]
      simp only [reply, if_pos short]
      by_cases ended : chunk = []
      · have none_left : pending stream = [] := by
          by_contra some_
          exact more some_ ended
        rw [none_left, ended, List.nil_append] at split
        rw [dif_pos ended, none_left, ← split]
        exact ⟨by rw [List.take_nil], by rw [List.drop_nil]⟩
      · have positive : chunk.length ≠ 0 := fun none_ => ended (List.length_eq_zero_iff.mp none_)
        obtain ⟨value, rest⟩ := ih (remaining - chunk.length) (by omega) after
        have fits : chunk.length ≤ remaining := by omega
        rw [dif_neg ended, split]
        simp only [value, rest, Except.map, List.take_append, List.drop_append,
          List.take_of_length_le fits, List.drop_of_length_le fits, List.nil_append, and_self]

/-- The probe behind the content finds a byte only where there are more than the budget and it
holds. -/
theorem drain_delivers (delivers : io.Delivers pending) (maximum : Nat) (stream : σ) :
    ∃ probe taken, (drain io maximum stream).1 =
        .ok ((pending stream).take (maximum + 1), .bytes probe) ∧
      (probe = [] ↔ (pending stream).length ≤ maximum + 1) ∧
      pending stream = taken ++ pending (drain io maximum stream).2 ∧
      taken.length ≤ maximum + 2 := by
  obtain ⟨value, rest⟩ := readChunks_delivers delivers (maximum + 1) stream
  have reply : readChunks io (maximum + 1) stream = (.ok ((pending stream).take (maximum + 1)),
      (readChunks io (maximum + 1) stream).2) := Prod.ext value rfl
  generalize (readChunks io (maximum + 1) stream).2 = after at reply rest
  obtain ⟨probe, read, short, more, split⟩ := delivers.read after 1 Nat.one_pos
  refine ⟨probe, (pending stream).take (maximum + 1) ++ probe, ?_, ?_, ?_, ?_⟩
  · simp only [drain, reply, read, Except.map]
  · rw [rest] at more split
    constructor
    · rintro rfl
      by_contra long
      refine more (fun ended => ?_) rfl
      rw [List.drop_eq_nil_iff] at ended
      exact long ended
    · intro fits
      rw [List.drop_of_length_le fits] at split
      exact (List.append_eq_nil_iff.mp split.symm).1
  · simp only [drain, reply]
    rw [List.append_assoc, ← split, rest, List.take_append_drop]
  · rw [List.length_append, List.length_take]
    omega

/-- The content is received where its length is the declared one and within the bounds. -/
theorem receive_delivers (delivers : io.Delivers pending) (maximum : Nat) (length : Int)
    (stream : σ) :
    (receive io maximum length stream).1 =
      if length = (pending stream).length ∧ 1 ≤ (pending stream).length ∧
        (pending stream).length ≤ maximum then .ok (pending stream) else .error readInvalid := by
  obtain ⟨probe, taken, read, ended, -, -⟩ := drain_delivers delivers maximum stream
  have closed : (io.close (drain io maximum stream).2).getD (.ok ()) = .ok () := by
    cases closes : io.close (drain io maximum stream).2 with
    | none => rfl
    | some closed => exact delivers.close _ _ closes
  unfold receive
  by_cases declared : 0 < length ∧ length ≤ maximum
  · simp only [if_pos declared, settleRead, closed, read, ok_bind, List.length_take]
    by_cases fits : (pending stream).length ≤ maximum
    · have whole : (pending stream).take (maximum + 1) = pending stream :=
        List.take_of_length_le (by omega)
      have last : probe = [] := ended.mpr (by omega)
      have counted : min (maximum + 1) (pending stream).length = (pending stream).length := by
        omega
      rw [whole, last, counted]
      by_cases same : length = (pending stream).length
      · have found : 1 ≤ (pending stream).length := by omega
        rw [if_pos ⟨same, found, fits⟩, need, if_pos ⟨same.symm, fits, rfl⟩]
        rfl
      · rw [if_neg fun all => same all.1, need, if_neg fun all => same all.1.symm]
        rfl
    · have long : ¬ min (maximum + 1) (pending stream).length ≤ maximum := by omega
      rw [if_neg fun all => fits all.2.2, need, if_neg fun all => long all.2.1]
      rfl
  · have bad : ¬ (length = ((pending stream).length : Int) ∧ 1 ≤ (pending stream).length ∧
        (pending stream).length ≤ maximum) := by omega
    rw [if_neg bad, if_neg declared]

theorem receive_takes (delivers : io.Delivers pending) (maximum : Nat) (length : Int)
    (stream : σ) :
    ∃ taken, pending stream = taken ++ pending (receive io maximum length stream).2 ∧
      taken.length ≤ maximum + 2 := by
  obtain ⟨-, taken, -, -, split, few⟩ := drain_delivers delivers maximum stream
  unfold receive
  split
  · exact ⟨taken, split, few⟩
  · exact ⟨[], rfl, Nat.zero_le _⟩

theorem download_delivers (delivers : io.Delivers pending) (config : S3ArtifactConfig)
    (declared : Json) (stream : σ) :
    (download io config (.ok ⟨declared, some stream⟩)).1 =
      if declared.int? = some ((pending stream).length : Int) ∧ 1 ≤ (pending stream).length ∧
        (pending stream).length ≤ config.maxArtifactBytes then .ok (pending stream)
      else .error readInvalid := by
  cases declared with
  | int length =>
    simp only [download, receive_delivers delivers, Json.int?, Option.some.injEq]
    split <;> rfl
  | _ => rfl

/-- What is downloaded is what the stream of the reply holds. -/
theorem download_eq_ok (delivers : io.Delivers pending) {config : S3ArtifactConfig}
    {reply : Except Raised (Response σ)} {value : Bytes}
    (h : (download io config reply).1 = .ok value) :
    ∃ declared stream, reply = .ok ⟨declared, some stream⟩ ∧ value = pending stream := by
  rcases reply with e | ⟨declared, body⟩
  · cases e <;> cases h
  · cases body with
    | none => cases declared <;> cases h
    | some stream =>
      rw [download_delivers delivers] at h
      split at h
      · exact ⟨declared, stream, rfl, (Except.ok.inj h).symm⟩
      · cases h

/-- A download reads within its budget and returns the content it was declared to be, however
the stream cuts it into pieces. -/
theorem bounded_download (delivers : io.Delivers pending) (config : S3ArtifactConfig)
    (declared : Json) (stream : σ) :
    (∀ value, (download io config (.ok ⟨declared, some stream⟩)).1 = .ok value ↔
      value = pending stream ∧ declared.int? = some ((pending stream).length : Int) ∧
        1 ≤ (pending stream).length ∧ (pending stream).length ≤ config.maxArtifactBytes) ∧
    (∀ e, (download io config (.ok ⟨declared, some stream⟩)).1 = .error e →
      ∃ args, e = .blocked args) ∧
    (∃ taken after, (download io config (.ok ⟨declared, some stream⟩)).2 = some after ∧
      pending stream = taken ++ pending after ∧
      taken.length ≤ config.maxArtifactBytes + 2) ∧
    ∀ (τ : Type) (other : Streams τ) (held : τ → Bytes) (stream' : τ), other.Delivers held →
      held stream' = pending stream →
      (download other config (.ok ⟨declared, some stream'⟩)).1 =
        (download io config (.ok ⟨declared, some stream⟩)).1 := by
  refine ⟨fun value => ?_, fun e => ?_, ?_, fun τ other held stream' delivers' same => ?_⟩
  · rw [download_delivers delivers]
    split
    · rename_i met
      constructor
      · rintro ⟨⟩
        exact ⟨rfl, met⟩
      · rintro ⟨rfl, -⟩
        rfl
    · rename_i unmet
      constructor
      · nofun
      · rintro ⟨-, met⟩
        exact absurd met unmet
  · rw [download_delivers delivers]
    split
    · nofun
    · rintro ⟨⟩
      exact ⟨_, rfl⟩
  · cases declared with
    | int length =>
      obtain ⟨taken, split, few⟩ :=
        receive_takes delivers config.maxArtifactBytes length stream
      exact ⟨taken, _, rfl, split, few⟩
    | _ => exact ⟨[], stream, rfl, rfl, Nat.zero_le _⟩
  · rw [download_delivers delivers, download_delivers delivers', same]

/-- Streams over bytes in memory that give at most so many bytes at a time. -/
def memoryStream (piece : Nat) : Streams Bytes where
  read stream n := (.ok (.bytes (stream.take (min piece n))), stream.drop (min piece n))
  close _ := some (.ok ())

theorem memory_delivers {piece : Nat} (some_ : 0 < piece) : (memoryStream piece).Delivers id where
  read stream n positive := by
    refine ⟨stream.take (min piece n), rfl, ?_, fun held none_ => ?_, ?_⟩
    · rw [List.length_take]
      omega
    · rcases List.take_eq_nil_iff.mp none_ with zero | empty
      · omega
      · exact held empty
    · exact (List.take_append_drop _ _).symm
  close _ _ closes := (Option.some.inj closes).symm

def Sample.artifactConfig : S3ArtifactConfig := ⟨"artifacts", "codex-artifacts", 1024, by decide⟩

theorem bounded_download_sample :
    (download (memoryStream 1) Sample.artifactConfig (.ok ⟨.int 3, some [1, 2, 3]⟩)).1 = .ok [1, 2, 3] :=
  ((bounded_download (memory_delivers Nat.one_pos) Sample.artifactConfig (.int 3)
    [1, 2, 3]).1 _).mpr ⟨rfl, rfl, by decide, by decide⟩

end WorkerPool
