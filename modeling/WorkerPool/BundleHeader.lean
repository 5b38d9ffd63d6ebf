import WorkerPool.Artifact
import WorkerPool.Lib.Search

/-!
# The header of a Git bundle

`_validate_bundle_header` reads the text in front of the pack line by line. It accepts one
grammar: the version, one prerequisite, one reference and the blank line before the pack.
-/

namespace WorkerPool

open Search

def asciiBytes (s : String) : Bytes := s.toList.map fun c => UInt8.ofNat c.toNat

def bundleHeaderLimit : Nat := 65536

def lineFeed : UInt8 := 10

def space : UInt8 := 32

def bundleInvalid : String := "artifact_bundle_invalid"

/-- The bytes are ASCII and match `SHA40`. -/
def asciiSha (bytes : Bytes) : Except Raised String := do
  match decodeAscii bytes with
  | some text =>
    need (isSha40 (String.ofList text)) bundleInvalid
    pure (String.ofList text)
  | none => throw (.blocked [.str bundleInvalid])

/-- What the loop over the lines has read. -/
structure HeaderLines where
  prerequisites : List String
  references : List (String × Bytes)
  referenceSeen : Bool

def readLine (read : HeaderLines) (line : Bytes) : Except Raised HeaderLines := do
  if asciiBytes "-" <+: line ∧ read.referenceSeen = false then
    need (42 ≤ line.length ∧ (line)[41]? = some space ∧ 0 ∉ line ∧ 13 ∉ line) bundleInvalid
    let sha ← asciiSha ((line.drop 1).take 40)
    pure { read with prerequisites := read.prerequisites ++ [sha] }
  else
    match cut space line with
    | some (first, last) =>
      need (last = asciiBytes "HEAD") bundleInvalid
      let sha ← asciiSha first
      pure { read with
        references := read.references ++ [(sha, last)]
        referenceSeen := true }
    | none => throw (.blocked [.str bundleInvalid])

/-- `_validate_bundle_header`. -/
def validateBundleHeader (bundle : Bytes) (workspaceSha producedSha : String) :
    Except Raised Unit := do
  need (isSha40 workspaceSha ∧ isSha40 producedSha) bundleInvalid
  match find [lineFeed, lineFeed] bundle with
  | some boundary =>
    need (0 < boundary ∧ boundary ≤ bundleHeaderLimit ∧
      (bundle.drop (boundary + 2)).take 4 = asciiBytes "PACK") bundleInvalid
    let lines := (bundle.take boundary).splitOn lineFeed
    need (lines.head? = some (asciiBytes "# v2 git bundle")) bundleInvalid
    let read ← lines.tail.foldlM readLine ⟨[], [], false⟩
    need (read.prerequisites = [workspaceSha] ∧
      read.references = [(producedSha, asciiBytes "HEAD")]) bundleInvalid
  | none => throw (.blocked [.str bundleInvalid])

/-! ### Lines -/

theorem bytes_of_decodeAscii {bytes : Bytes} {text : List Char} (h : decodeAscii bytes = some text) :
    bytes = asciiBytes (String.ofList text) := by
  rw [asciiBytes, String.toList_ofList]
  induction bytes generalizing text with
  | nil =>
    cases h
    rfl
  | cons b bytes ih =>
    rw [decodeAscii, List.mapM_cons] at h
    obtain ⟨c, low, h⟩ := Option.bind_eq_some_iff.mp h
    obtain ⟨rest, tail, h⟩ := Option.bind_eq_some_iff.mp h
    cases h
    split at low
    · rename_i ascii
      cases low
      have valid : (Char.ofNat b.toNat).toNat = b.toNat := by
        have isChar : b.toNat.isValidChar := .inl (by omega)
        rw [Char.ofNat, dif_pos isChar]
        rfl
      rw [List.map_cons, valid, UInt8.ofNat_toNat, ← ih tail]
    · cases low

theorem isLowerHex_ascii {c : Char} (h : PyText.isLowerHex c = true) : c.toNat < 128 := by
  simp only [PyText.isLowerHex, Bool.or_eq_true, Bool.and_eq_true, decide_eq_true_eq] at h
  rcases h with ⟨-, last⟩ | ⟨-, last⟩
  · exact Nat.lt_of_le_of_lt (Char.le_def.mp last) (by decide)
  · exact Nat.lt_of_le_of_lt (Char.le_def.mp last) (by decide)

theorem decodeAscii_asciiBytes {s : String} (h : isSha40 s = true) :
    decodeAscii (asciiBytes s) = some s.toList := by
  have hex := List.all_eq_true.mp (Bool.and_eq_true_iff.mp h).2
  refine decodeAscii_encodeAscii ?_
  have each : ∀ cs : List Char, (∀ c ∈ cs, PyText.isLowerHex c = true) →
      encodeAscii cs = some (cs.map fun c => UInt8.ofNat c.toNat) := by
    intro cs
    induction cs with
    | nil => exact fun _ => rfl
    | cons c cs ih =>
      intro all
      have rest : encodeAscii cs = _ := ih fun d later => all d (List.mem_cons_of_mem _ later)
      rw [encodeAscii] at rest
      rw [encodeAscii, List.mapM_cons, if_pos (isLowerHex_ascii (all c List.mem_cons_self)), rest]
      rfl
  exact each s.toList hex

theorem asciiSha_eq_ok {bytes : Bytes} {sha : String} :
    asciiSha bytes = .ok sha ↔ isSha40 sha = true ∧ bytes = asciiBytes sha := by
  unfold asciiSha
  constructor
  · intro h
    cases decoded : decodeAscii bytes with
    | none =>
      rw [decoded] at h
      cases h
    | some text =>
      rw [decoded] at h
      obtain ⟨shape, same⟩ := need_bind_eq_ok.mp h
      cases same
      exact ⟨shape, bytes_of_decodeAscii decoded⟩
  · rintro ⟨shape, rfl⟩
    rw [decodeAscii_asciiBytes shape]
    refine need_bind_eq_ok.mpr ⟨?_, ?_⟩
    · rw [String.ofList_toList]
      exact shape
    · rw [String.ofList_toList]
      rfl

theorem length_asciiBytes {sha : String} (h : isSha40 sha = true) : (asciiBytes sha).length = 40 := by
  rw [asciiBytes, List.length_map]
  exact beq_iff_eq.mp (Bool.and_eq_true_iff.mp h).1

/-- The bytes of a SHA are codes of hexadecimal digits. -/
theorem not_mem_asciiBytes {sha : String} (h : isSha40 sha = true) {b : UInt8}
    (other : b.toNat < '0'.toNat) : b ∉ asciiBytes sha := by
  intro inside
  obtain ⟨c, mem, rfl⟩ := List.mem_map.mp inside
  have hex := List.all_eq_true.mp (Bool.and_eq_true_iff.mp h).2 c mem
  have ascii := isLowerHex_ascii hex
  have code : (UInt8.ofNat c.toNat).toNat = c.toNat := by
    rw [UInt8.toNat_ofNat']
    omega
  have least : '0'.toNat ≤ c.toNat := by
    simp only [PyText.isLowerHex, Bool.or_eq_true, Bool.and_eq_true, decide_eq_true_eq] at hex
    rcases hex with ⟨first, -⟩ | ⟨first, -⟩
    · exact Char.le_def.mp first
    · exact le_trans (by decide) (Char.le_def.mp first)
  omega

def prerequisiteLine (sha : String) (comment : Bytes) : Bytes :=
  asciiBytes "-" ++ (asciiBytes sha ++ space :: comment)

def referenceLine (sha : String) : Bytes := asciiBytes sha ++ space :: asciiBytes "HEAD"

theorem readLine_prerequisite {read : HeaderLines} {sha : String} {comment : Bytes}
    (fresh : read.referenceSeen = false) (shape : isSha40 sha = true)
    (clean : 0 ∉ comment ∧ 13 ∉ comment) :
    readLine read (prerequisiteLine sha comment) =
      .ok { read with prerequisites := read.prerequisites ++ [sha] } := by
  have long := length_asciiBytes shape
  have dash : asciiBytes "-" <+: prerequisiteLine sha comment := ⟨_, rfl⟩
  have cut40 : ((prerequisiteLine sha comment).drop 1).take 40 = asciiBytes sha := by
    have dropped : (prerequisiteLine sha comment).drop 1 = asciiBytes sha ++ space :: comment := rfl
    rw [dropped, ← long, List.take_left]
  have place : (prerequisiteLine sha comment)[41]? = some space := by
    have shifted : (prerequisiteLine sha comment)[41]? = (asciiBytes sha ++ space :: comment)[40]? :=
      rfl
    rw [shifted, ← long, List.getElem?_append_right (Nat.le_refl _), Nat.sub_self]
    rfl
  have size : 42 ≤ (prerequisiteLine sha comment).length := by
    simp only [prerequisiteLine, List.length_append, List.length_cons, long]
    have one : (asciiBytes "-").length = 1 := rfl
    omega
  have none_of : ∀ b : UInt8, b.toNat < '0'.toNat → b ≠ 45 → b ≠ space → b ∉ comment →
      b ∉ prerequisiteLine sha comment := by
    intro b low dash_ space_ free inside
    rcases List.mem_append.mp inside with first | rest
    · exact dash_ (List.mem_singleton.mp first)
    · rcases List.mem_append.mp rest with second | third
      · exact not_mem_asciiBytes shape low second
      · exact (List.mem_cons.mp third).elim space_ free
  rw [readLine, if_pos ⟨dash, fresh⟩, cut40]
  refine need_bind_eq_ok.mpr ⟨⟨size, place, ?_, ?_⟩, ?_⟩
  · exact none_of 0 (by decide) (by decide) (by decide) clean.1
  · exact none_of 13 (by decide) (by decide) (by decide) clean.2
  · rw [asciiSha_eq_ok.mpr ⟨shape, rfl⟩]
    rfl

theorem readLine_reference {read : HeaderLines} {sha : String} (shape : isSha40 sha = true) :
    readLine read (referenceLine sha) = .ok { read with
      references := read.references ++ [(sha, asciiBytes "HEAD")], referenceSeen := true } := by
  have not_dash : ¬ (asciiBytes "-" <+: referenceLine sha ∧ read.referenceSeen = false) := by
    rintro ⟨⟨rest, stands⟩, -⟩
    have first : (referenceLine sha)[0]? = some 45 := by
      rw [← stands]
      rfl
    have long := length_asciiBytes shape
    rw [referenceLine, List.getElem?_append_left (by omega)] at first
    exact not_mem_asciiBytes shape (by decide) (List.mem_of_getElem? first)
  have free : space ∉ asciiBytes sha := not_mem_asciiBytes shape (by decide)
  rw [readLine, if_neg not_dash, referenceLine, cut_append free]
  refine need_bind_eq_ok.mpr ⟨rfl, ?_⟩
  rw [asciiSha_eq_ok.mpr ⟨shape, rfl⟩]
  rfl

/-- A line that is read is a prerequisite in front of every reference, or a reference. -/
theorem readLine_eq_ok {read next : HeaderLines} {line : Bytes} (h : readLine read line = .ok next) :
    (∃ sha comment, read.referenceSeen = false ∧ line = prerequisiteLine sha comment ∧
      0 ∉ comment ∧ 13 ∉ comment ∧ next = { read with prerequisites := read.prerequisites ++ [sha] }) ∨
    (∃ sha, line = referenceLine sha ∧ next = { read with
      references := read.references ++ [(sha, asciiBytes "HEAD")], referenceSeen := true }) := by
  rw [readLine] at h
  split at h
  · rename_i dash
    obtain ⟨⟨size, place, no_nul, no_cr⟩, h⟩ := need_bind_eq_ok.mp h
    obtain ⟨sha, read40, made⟩ := bind_eq_ok.mp h
    obtain ⟨shape, bytes⟩ := asciiSha_eq_ok.mp read40
    obtain ⟨⟨rest, rfl⟩, fresh⟩ := dash
    have split : rest = asciiBytes sha ++ space :: rest.drop 41 := by
      have here : rest[40]? = some space := place
      obtain ⟨long, at40⟩ := List.getElem?_eq_some_iff.mp here
      have dropped : rest.take 40 = asciiBytes sha := bytes
      rw [← dropped, ← at40, ← List.drop_eq_getElem_cons long, List.take_append_drop]
    obtain rfl := Except.ok.inj made
    refine .inl ⟨sha, rest.drop 41, fresh, ?_, ?_, ?_, rfl⟩
    · rw [prerequisiteLine, ← split]
    · exact fun inside => no_nul (List.mem_append_right _ (List.mem_of_mem_drop inside))
    · exact fun inside => no_cr (List.mem_append_right _ (List.mem_of_mem_drop inside))
  · split at h
    · rename_i first last parts
      obtain ⟨rfl, h⟩ := need_bind_eq_ok.mp h
      obtain ⟨sha, readSha, made⟩ := bind_eq_ok.mp h
      obtain ⟨shape, rfl⟩ := asciiSha_eq_ok.mp readSha
      obtain rfl := Except.ok.inj made
      exact .inr ⟨sha, cut_eq_some parts, rfl⟩
    · cases h

/-! ### The grammar -/

/-- Each line adds one entry. -/
theorem readLines_count {lines : List Bytes} {read next : HeaderLines}
    (h : lines.foldlM readLine read = .ok next) :
    next.prerequisites.length + next.references.length =
      read.prerequisites.length + read.references.length + lines.length := by
  induction lines generalizing read with
  | nil =>
    obtain rfl := Except.ok.inj h
    rfl
  | cons line lines ih =>
    rw [List.foldlM_cons] at h
    obtain ⟨middle, first, rest⟩ := bind_eq_ok.mp h
    rw [ih rest]
    rcases readLine_eq_ok first with ⟨sha, comment, -, -, -, -, rfl⟩ | ⟨sha, -, rfl⟩ <;>
    · simp only [List.length_append, List.length_cons, List.length_nil]
      omega

/-- One prerequisite and one reference are read from two lines, in this order. -/
theorem readLines_exact {lines : List Bytes} {next : HeaderLines} {workspaceSha producedSha : String}
    (h : lines.foldlM readLine ⟨[], [], false⟩ = .ok next)
    (prerequisites : next.prerequisites = [workspaceSha])
    (references : next.references = [(producedSha, asciiBytes "HEAD")]) :
    ∃ comment, lines = [prerequisiteLine workspaceSha comment, referenceLine producedSha] ∧
      0 ∉ comment ∧ 13 ∉ comment := by
  have count := readLines_count h
  rw [prerequisites, references] at count
  obtain ⟨first, second, rfl⟩ : ∃ first second, lines = [first, second] := by
    refine List.length_eq_two.mp ?_
    simp only [List.length_cons, List.length_nil] at count
    omega
  rw [List.foldlM_cons] at h
  obtain ⟨middle, read, h⟩ := bind_eq_ok.mp h
  rw [List.foldlM_cons] at h
  obtain ⟨last, read', ended⟩ := bind_eq_ok.mp h
  obtain rfl := Except.ok.inj ended
  rcases readLine_eq_ok read with ⟨sha, comment, -, rfl, no_nul, no_cr, rfl⟩ | ⟨sha, -, rfl⟩
  · rcases readLine_eq_ok read' with ⟨sha', comment', -, -, -, -, rfl⟩ | ⟨sha', rfl, rfl⟩
    · cases references
    · cases prerequisites
      cases references
      exact ⟨comment, rfl, no_nul, no_cr⟩
  · rcases readLine_eq_ok read' with ⟨sha', comment', fresh, -⟩ | ⟨sha', -, rfl⟩
    · cases fresh
    · cases prerequisites

/-- The header of a bundle with one prerequisite and one reference. -/
def bundleHeader (workspaceSha producedSha : String) (comment : Bytes) : Bytes :=
  [lineFeed].intercalate [asciiBytes "# v2 git bundle", prerequisiteLine workspaceSha comment,
    referenceLine producedSha]

theorem lineFeed_not_mem_referenceLine {sha : String} (shape : isSha40 sha = true) :
    lineFeed ∉ referenceLine sha := by
  intro inside
  rcases List.mem_append.mp inside with first | second
  · exact not_mem_asciiBytes shape (by decide) first
  · revert second
    decide

theorem lineFeed_not_mem_prerequisiteLine {sha : String} {comment : Bytes}
    (shape : isSha40 sha = true) (free : lineFeed ∉ comment) :
    lineFeed ∉ prerequisiteLine sha comment := by
  intro inside
  rcases List.mem_append.mp inside with first | rest
  · revert first
    decide
  · rcases List.mem_append.mp rest with second | third
    · exact not_mem_asciiBytes shape (by decide) second
    · exact (List.mem_cons.mp third).elim (by decide) free

theorem bundleHeader_eq (workspaceSha producedSha : String) (comment : Bytes) :
    bundleHeader workspaceSha producedSha comment =
      asciiBytes "# v2 git bundle" ++ lineFeed :: (prerequisiteLine workspaceSha comment ++
        lineFeed :: referenceLine producedSha) := by
  simp [bundleHeader, List.intercalate, List.intersperse]

/-- The blank line behind a header is the first one. -/
theorem find_bundleHeader {workspaceSha producedSha : String} {comment rest : Bytes}
    (workspace : isSha40 workspaceSha = true) (produced : isSha40 producedSha = true)
    (free : lineFeed ∉ comment) :
    find [lineFeed, lineFeed] (bundleHeader workspaceSha producedSha comment ++
      lineFeed :: lineFeed :: rest) = some (bundleHeader workspaceSha producedSha comment).length := by
  obtain ⟨digit, digits, last⟩ : ∃ digit digits, referenceLine producedSha = digit :: digits :=
    List.exists_cons_of_length_pos (by simp [referenceLine])
  have other : digit ≠ lineFeed := by
    rintro rfl
    exact lineFeed_not_mem_referenceLine produced (last ▸ List.mem_cons_self)
  have third : find [lineFeed, lineFeed] (referenceLine producedSha ++ lineFeed :: lineFeed :: rest) =
      some (referenceLine producedSha).length :=
    find_last_line (lineFeed_not_mem_referenceLine produced)
  have second : find [lineFeed, lineFeed] (prerequisiteLine workspaceSha comment ++ lineFeed ::
      (referenceLine producedSha ++ lineFeed :: lineFeed :: rest)) =
      some ((referenceLine producedSha).length + ((prerequisiteLine workspaceSha comment).length + 1)) := by
    rw [last, List.cons_append,
      find_line (lineFeed_not_mem_prerequisiteLine workspace free) other, ← List.cons_append, ← last,
      third]
    rfl
  have first : find [lineFeed, lineFeed] (asciiBytes "# v2 git bundle" ++ lineFeed ::
      (prerequisiteLine workspaceSha comment ++ lineFeed ::
        (referenceLine producedSha ++ lineFeed :: lineFeed :: rest))) =
      some ((referenceLine producedSha).length + ((prerequisiteLine workspaceSha comment).length + 1) +
        ((asciiBytes "# v2 git bundle").length + 1)) := by
    have dash : prerequisiteLine workspaceSha comment =
        45 :: (asciiBytes workspaceSha ++ space :: comment) := rfl
    rw [dash, List.cons_append, find_line (by decide) (by decide), ← List.cons_append, ← dash,
      second]
    rfl
  rw [bundleHeader_eq]
  simp only [List.append_assoc, List.cons_append, first, List.length_append, List.length_cons,
    Option.some.injEq]
  omega

theorem validateBundleHeader_bundleHeader {workspaceSha producedSha : String} {comment rest : Bytes}
    (workspace : isSha40 workspaceSha = true) (produced : isSha40 producedSha = true)
    (clean : 0 ∉ comment ∧ 13 ∉ comment) (free : lineFeed ∉ comment)
    (short : (bundleHeader workspaceSha producedSha comment).length ≤ bundleHeaderLimit) :
    validateBundleHeader (bundleHeader workspaceSha producedSha comment ++
      lineFeed :: lineFeed :: (asciiBytes "PACK" ++ rest)) workspaceSha producedSha = .ok () := by
  have lines : (bundleHeader workspaceSha producedSha comment).splitOn lineFeed =
      [asciiBytes "# v2 git bundle", prerequisiteLine workspaceSha comment,
        referenceLine producedSha] := by
    refine List.splitOn_intercalate lineFeed (fun line inside => ?_) (by simp)
    rcases List.mem_cons.mp inside with rfl | inside
    · decide
    · rcases List.mem_cons.mp inside with rfl | inside
      · exact lineFeed_not_mem_prerequisiteLine workspace free
      · rw [List.mem_singleton.mp inside]
        exact lineFeed_not_mem_referenceLine produced
  have long : 0 < (bundleHeader workspaceSha producedSha comment).length := by
    rw [bundleHeader_eq, List.length_append]
    have some_ : 0 < (asciiBytes "# v2 git bundle").length := by decide
    omega
  rw [validateBundleHeader, find_bundleHeader workspace produced free]
  refine need_bind_eq_ok.mpr ⟨⟨workspace, produced⟩, need_bind_eq_ok.mpr ⟨⟨long, short, ?_⟩, ?_⟩⟩
  · rw [← List.drop_drop, List.drop_left]
    rfl
  · rw [List.take_left, lines]
    refine need_bind_eq_ok.mpr ⟨rfl, bind_eq_ok.mpr ⟨⟨[workspaceSha],
      [(producedSha, asciiBytes "HEAD")], true⟩, ?_, need_eq_ok.mpr ⟨rfl, rfl⟩⟩⟩
    rw [List.tail_cons, List.foldlM_cons, readLine_prerequisite rfl workspace clean, ok_bind,
      List.foldlM_cons, readLine_reference produced]
    rfl

/-- What is accepted has the form of the grammar. -/
theorem bundle_of_validateBundleHeader {bundle : Bytes} {workspaceSha producedSha : String}
    (h : validateBundleHeader bundle workspaceSha producedSha = .ok ()) :
    ∃ comment rest, bundle = bundleHeader workspaceSha producedSha comment ++
        lineFeed :: lineFeed :: (asciiBytes "PACK" ++ rest) ∧
      (0 ∉ comment ∧ 13 ∉ comment) ∧ lineFeed ∉ comment ∧
      ∃ offset ≤ bundleHeaderLimit, find [lineFeed, lineFeed] bundle = some offset := by
  rw [validateBundleHeader] at h
  obtain ⟨-, h⟩ := need_bind_eq_ok.mp h
  cases found : find [lineFeed, lineFeed] bundle with
  | none =>
    rw [found] at h
    cases h
  | some boundary =>
    rw [found] at h
    obtain ⟨⟨-, short, pack⟩, h⟩ := need_bind_eq_ok.mp h
    obtain ⟨first, h⟩ := need_bind_eq_ok.mp h
    obtain ⟨read, run, ended⟩ := bind_eq_ok.mp h
    obtain ⟨prerequisites, references⟩ := need_eq_ok.mp ended
    obtain ⟨before, after, rfl, rfl⟩ := find_eq_some found
    rw [List.take_left] at first run
    obtain ⟨comment, rest, clean⟩ := readLines_exact run prerequisites references
    have lines : before.splitOn lineFeed = [asciiBytes "# v2 git bundle",
        prerequisiteLine workspaceSha comment, referenceLine producedSha] := by
      cases all : before.splitOn lineFeed with
      | nil => exact absurd all (List.splitOn_ne_nil _ _)
      | cons line more =>
        rw [all] at first rest
        rw [List.head?_cons, Option.some.injEq] at first
        rw [first, ← rest]
        rfl
    have header : before = bundleHeader workspaceSha producedSha comment := by
      rw [bundleHeader, ← lines, List.intercalate_splitOn]
    have free : lineFeed ∉ comment := by
      intro inside
      have field : prerequisiteLine workspaceSha comment ∈ before.splitOn lineFeed := by
        rw [lines]
        exact List.mem_cons_of_mem _ List.mem_cons_self
      refine not_mem_of_mem_splitOn field ?_
      exact List.mem_append_right _ (List.mem_append_right _ (List.mem_cons_of_mem _ inside))
    refine ⟨comment, after.drop 4, ?_, clean, free, before.length, short, rfl⟩
    have stands : after.take 4 = asciiBytes "PACK" := by
      rw [← pack, ← List.drop_drop, List.drop_left]
      rfl
    rw [← header, ← stands, List.take_append_drop]
    rfl

/-- The header is accepted exactly where the bundle is of the grammar and its first blank line
stands within the limit. -/
theorem bundle_header_grammar {workspaceSha producedSha : String}
    (workspace : isSha40 workspaceSha = true) (produced : isSha40 producedSha = true)
    (bundle : Bytes) :
    validateBundleHeader bundle workspaceSha producedSha = .ok () ↔
      ∃ comment rest, bundle = bundleHeader workspaceSha producedSha comment ++
          lineFeed :: lineFeed :: (asciiBytes "PACK" ++ rest) ∧
        (0 ∉ comment ∧ 13 ∉ comment) ∧ lineFeed ∉ comment ∧
        ∃ offset ≤ bundleHeaderLimit, find [lineFeed, lineFeed] bundle = some offset := by
  constructor
  · exact bundle_of_validateBundleHeader
  · rintro ⟨comment, rest, rfl, clean, free, offset, short, found⟩
    rw [find_bundleHeader workspace produced free, Option.some.injEq] at found
    subst found
    exact validateBundleHeader_bundleHeader workspace produced clean free short

namespace Sample

def bundleBase : String := "0000000000000000000000000000000000000000"

def bundleHead : String := "1111111111111111111111111111111111111111"

def gitBundle : Bytes :=
  bundleHeader bundleBase bundleHead [] ++ lineFeed :: lineFeed :: asciiBytes "PACK"

end Sample

theorem bundle_header_accepted :
    validateBundleHeader Sample.gitBundle Sample.bundleBase Sample.bundleHead = .ok () :=
  (bundle_header_grammar (by decide) (by decide) _).mpr
    ⟨[], [], rfl, ⟨by decide, by decide⟩, by decide, _, by decide +kernel,
      find_bundleHeader (by decide) (by decide) (by decide)⟩

end WorkerPool
