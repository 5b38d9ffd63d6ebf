import WorkerPool.Envelopes
import WorkerPool.Lib.Search

/-!
# Paths of manifests

A path is checked by its components and is then written from them again. The components that a
`PurePosixPath` drops are not seen by the checks: paths of no component at all are accepted, and so
are several spellings of one path.
-/

namespace WorkerPool

open Search

/-- A path that is written from its components. -/
def joinPath (parts : List String) : String := if parts = [] then "." else "/".intercalate parts

/-- A component that is not dropped and passes the checks. -/
structure SafePart (part : String) : Prop where
  named : part ≠ ""
  whole : '/' ∉ part.toList
  visible : part.toList.head? ≠ some '.'

/-- What both functions ask of a text. -/
structure SafeText (text : String) : Prop where
  nonempty : 1 ≤ text.length
  bound : text.length ≤ 240
  relative : text.toList.head? ≠ some '/'
  posix : '\\' ∉ text.toList
  inside : ".." ∉ pathParts text
  visible : ∀ part ∈ pathParts text, part.toList.head? ≠ some '.'

/-- A normalised relative path. -/
def NormalPath (path : String) : Prop :=
  ∀ part ∈ path.toList.splitOn '/', part ≠ [] ∧ part.head? ≠ some '.'

/-- The paths that were made of texts: each is normalised, and no two are the same. -/
structure Faithful (safes : List String) : Prop where
  normal : ∀ path ∈ safes, NormalPath path
  distinct : safes.Nodup

/-- Every text has a component, and no two have the same ones. -/
structure SpelledApart (texts : List String) : Prop where
  components : ∀ text ∈ texts, pathParts text ≠ []
  distinct : (texts.map pathParts).Nodup

/-- The manifest holds the hash of each path of the raw one, under a path of its own. -/
structure KeepsPaths (before : List (String × Json)) (m : TaskManifest) : Prop where
  each : List.Forall₂ (fun f e => safePath f.1 = .ok e.1 ∧ f.2 = .str e.2) before m.beforeSha256
  faithful : Faithful (m.beforeSha256.map Prod.fst)

/-! ### Components -/

theorem mem_pathParts {text part : String} :
    part ∈ pathParts text ↔ part.toList ∈ text.toList.splitOn '/' ∧ part ≠ "" ∧ part ≠ "." := by
  simp only [pathParts, List.mem_filter, List.mem_map, Bool.and_eq_true, decide_eq_true_eq]
  constructor
  · rintro ⟨⟨cs, held, rfl⟩, kept⟩
    exact ⟨by simpa using held, kept⟩
  · rintro ⟨held, kept⟩
    exact ⟨⟨_, held, String.ofList_toList⟩, kept⟩

theorem SafeText.parts {text : String} (safe : SafeText text) :
    ∀ part ∈ pathParts text, SafePart part := by
  intro part inside
  obtain ⟨held, named, -⟩ := mem_pathParts.mp inside
  exact ⟨named, not_mem_of_mem_splitOn held, safe.visible part inside⟩

section Parts

variable {parts : List String}

theorem splitOn_joinPath (some_part : parts ≠ []) (each : ∀ part ∈ parts, SafePart part) :
    (joinPath parts).toList.splitOn '/' = parts.map String.toList := by
  rw [joinPath, if_neg some_part, String.toList_intercalate]
  refine List.splitOn_intercalate '/' (fun cs inside => ?_) (by simpa using some_part)
  obtain ⟨part, held, rfl⟩ := List.mem_map.mp inside
  exact (each part held).whole

/-- The components of a path are those it was written from. -/
theorem pathParts_joinPath (each : ∀ part ∈ parts, SafePart part) : pathParts (joinPath parts) = parts := by
  by_cases empty : parts = []
  · subst empty
    decide
  · have names : (parts.map String.toList).map String.ofList = parts := by
      rw [List.map_map]
      exact (List.map_congr_left fun part _ => String.ofList_toList).trans (List.map_id parts)
    rw [pathParts, splitOn_joinPath empty each, names, List.filter_eq_self]
    intro part inside
    have dot : part ≠ "." := by
      rintro rfl
      exact (each _ inside).visible rfl
    simpa using ⟨(each part inside).named, dot⟩

theorem normalPath_joinPath (each : ∀ part ∈ parts, SafePart part) :
    NormalPath (joinPath parts) ↔ parts ≠ [] := by
  constructor
  · rintro normal rfl
    exact absurd (normal ['.'] (by decide)).2 (by decide)
  · intro some_part cs inside
    rw [splitOn_joinPath some_part each] at inside
    obtain ⟨part, held, rfl⟩ := List.mem_map.mp inside
    refine ⟨fun empty => (each part held).named ?_, (each part held).visible⟩
    exact String.toList_injective empty

end Parts

/-! ### Both functions -/

theorem safePath_eq_ok {text path : String} :
    safePath text = .ok path ↔ SafeText text ∧ path = joinPath (pathParts text) := by
  simp only [safePath, need_bind_eq_ok]
  constructor
  · rintro ⟨⟨nonempty, bound⟩, ⟨relative, posix, inside⟩, visible, written⟩
    exact ⟨⟨nonempty, bound, relative, posix, inside, visible⟩, (Except.ok.inj written).symm⟩
  · rintro ⟨safe, rfl⟩
    exact ⟨⟨safe.nonempty, safe.bound⟩, ⟨safe.relative, safe.posix, safe.inside⟩, safe.visible, rfl⟩

theorem safeRelativePath_eq_ok {value : Json} {path : String} :
    safeRelativePath value = .ok path ↔
      ∃ text, value = .str text ∧ SafeText text ∧ path = joinPath (pathParts text) := by
  simp only [safeRelativePath, bind_eq_ok, needText_eq_ok, need_eq_ok, Bool.and_eq_true,
    decide_eq_true_eq]
  constructor
  · rintro ⟨text, ⟨rfl, nonempty, bound⟩, ⟨⟩, ⟨relative, posix, inside, visible⟩, written⟩
    exact ⟨text, rfl, ⟨nonempty, bound, relative, posix, inside, visible⟩, (Except.ok.inj written).symm⟩
  · rintro ⟨text, rfl, safe, rfl⟩
    exact ⟨text, ⟨rfl, safe.nonempty, safe.bound⟩, (),
      ⟨safe.relative, safe.posix, safe.inside, safe.visible⟩, rfl⟩

theorem length_joinPath {text : String} (nonempty : 1 ≤ text.length) :
    (joinPath (pathParts text)).length ≤ text.length := by
  by_cases empty : pathParts text = []
  · rw [joinPath, if_pos empty]
    exact nonempty
  · rw [joinPath, if_neg empty, ← String.length_toList, ← String.length_toList, String.toList_intercalate]
    have some_of : ((pathParts text).map String.toList).Sublist (text.toList.splitOn '/') := by
      have all : ((text.toList.splitOn '/').map String.ofList).map String.toList =
          text.toList.splitOn '/' := by
        rw [List.map_map]
        exact (List.map_congr_left fun cs _ => String.toList_ofList).trans (List.map_id _)
      rw [← all]
      exact List.filter_sublist.map _
    have shorter := @length_intercalate_sublist _ ['/'] _ _ some_of
    rwa [List.intercalate_splitOn] at shorter

/-- A path starts as its first component does. -/
theorem head?_joinPath {part : String} {rest : List String} (safe : SafePart part) :
    (joinPath (part :: rest)).toList.head? = part.toList.head? := by
  have named : part.toList ≠ [] := fun empty => safe.named (String.toList_injective empty)
  rw [joinPath, if_neg (List.cons_ne_nil _ _), String.toList_intercalate, List.map_cons]
  by_cases last : rest.map String.toList = []
  · rw [last, List.intercalate_singleton]
  · rw [List.intercalate_cons_of_ne_nil last, List.append_assoc, List.head?_append_of_ne_nil _ named]

/-- A path that was accepted is accepted again. -/
theorem SafeText.joinPath {text : String} (safe : SafeText text) :
    SafeText (joinPath (pathParts text)) := by
  have again := pathParts_joinPath safe.parts
  cases parts : pathParts text with
  | nil => exact ⟨by decide, by decide, by decide, by decide, by decide, by decide⟩
  | cons part rest =>
    have first : SafePart part := safe.parts part (parts ▸ List.mem_cons_self)
    have starts := @head?_joinPath part rest first
    have length := length_joinPath safe.nonempty
    rw [parts] at again length
    refine ⟨?_, Nat.le_trans length safe.bound, ?_, ?_, ?_, ?_⟩
    · rw [← String.length_toList]
      refine Nat.pos_of_ne_zero fun empty => first.named (String.toList_injective ?_)
      rw [List.length_eq_zero_iff.mp empty] at starts
      exact List.head?_eq_none_iff.mp starts.symm
    · rw [starts]
      exact fun slash => first.whole (List.mem_of_mem_head? slash)
    · intro slash
      rw [WorkerPool.joinPath, if_neg (List.cons_ne_nil _ _), String.toList_intercalate] at slash
      rcases mem_intercalate slash with between | ⟨cs, held, here⟩
      · exact absurd between (by decide)
      · obtain ⟨p, inside, rfl⟩ := List.mem_map.mp held
        have from_text := (mem_pathParts.mp (parts ▸ inside : p ∈ pathParts text)).1
        exact safe.posix (mem_of_mem_splitOn from_text here)
    · rw [again, ← parts]
      exact safe.inside
    · rw [again, ← parts]
      exact safe.visible

theorem safePath_idempotent {text path : String} (h : safePath text = .ok path) :
    safePath path = .ok path := by
  obtain ⟨safe, rfl⟩ := safePath_eq_ok.mp h
  exact safePath_eq_ok.mpr ⟨safe.joinPath, by rw [pathParts_joinPath safe.parts]⟩

theorem safeRelativePath_idempotent {value : Json} {path : String}
    (h : safeRelativePath value = .ok path) : safeRelativePath (.str path) = .ok path := by
  obtain ⟨text, rfl, safe, rfl⟩ := safeRelativePath_eq_ok.mp h
  exact safeRelativePath_eq_ok.mpr ⟨_, rfl, safe.joinPath, by rw [pathParts_joinPath safe.parts]⟩

/-- The texts are accepted, and the paths are written from them. -/
def Written (texts safes : List String) : Prop :=
  (∀ text ∈ texts, SafeText text) ∧ safes = (texts.map pathParts).map joinPath

/-- Paths are faithful to texts exactly if the texts are spelled apart. -/
theorem faithful_iff_spelledApart {texts safes : List String} (h : Written texts safes) :
    Faithful safes ↔ SpelledApart texts := by
  obtain ⟨safe, rfl⟩ := h
  have normal_iff : ∀ text ∈ texts, (NormalPath (joinPath (pathParts text)) ↔ pathParts text ≠ []) :=
    fun text inside => normalPath_joinPath (safe text inside).parts
  constructor
  · rintro ⟨normal, distinct⟩
    refine ⟨fun text inside => ?_, distinct.of_map _⟩
    exact (normal_iff text inside).mp (normal _ (List.mem_map_of_mem (List.mem_map_of_mem inside)))
  · rintro ⟨components, distinct⟩
    refine ⟨fun path inside => ?_, distinct.map_on fun a held b held' same => ?_⟩
    · obtain ⟨_, held, rfl⟩ := List.mem_map.mp inside
      obtain ⟨text, given, rfl⟩ := List.mem_map.mp held
      exact (normal_iff text given).mpr (components text given)
    · obtain ⟨text, inside, rfl⟩ := List.mem_map.mp held
      obtain ⟨text', inside', rfl⟩ := List.mem_map.mp held'
      have parts := congrArg pathParts same
      rwa [pathParts_joinPath (safe text inside).parts, pathParts_joinPath (safe text' inside').parts]
        at parts

theorem written_of_mapM {values : List Json} {safes : List String}
    (h : values.mapM safeRelativePath = .ok safes) :
    ∃ texts, values = texts.map .str ∧ Written texts safes := by
  induction values generalizing safes with
  | nil =>
    cases h
    exact ⟨[], rfl, fun _ nobody => (nomatch nobody), rfl⟩
  | cons value values ih =>
    rw [List.mapM_cons] at h
    obtain ⟨path, first, h⟩ := bind_eq_ok.mp h
    obtain ⟨paths, later, h⟩ := bind_eq_ok.mp h
    cases h
    obtain ⟨text, rfl, safe, rfl⟩ := safeRelativePath_eq_ok.mp first
    obtain ⟨texts, rfl, each, rfl⟩ := ih later
    exact ⟨text :: texts, rfl, List.forall_mem_cons.mpr ⟨safe, each⟩, rfl⟩

/-! ### The hashes of a manifest -/

/-- The entry that a raw one becomes. -/
def hashEntry (f : String × Json) : String × String :=
  (joinPath (pathParts f.1), (f.2.str?).getD "")

theorem readHash_ok_iff {normalized later : List (String × String)} {f : String × Json} :
    readHash normalized f = .ok later ↔ SafeText f.1 ∧ (∃ sha, f.2 = .str sha ∧ isSha256 sha = true) ∧
      later = assign normalized (hashEntry f).1 (hashEntry f).2 := by
  simp only [readHash, bind_eq_ok, needText_eq_ok, safePath_eq_ok]
  constructor
  · rintro ⟨path, ⟨safe, rfl⟩, sha, ⟨text, hex⟩, written⟩
    refine ⟨safe, ⟨sha, text, hex⟩, ?_⟩
    rw [hashEntry, text]
    exact (Except.ok.inj written).symm
  · rintro ⟨safe, ⟨sha, text, hex⟩, rfl⟩
    refine ⟨_, ⟨safe, rfl⟩, sha, ⟨text, hex⟩, ?_⟩
    rw [hashEntry, text]
    rfl

theorem assign_new {β : Type} {fields : List (String × β)} {key : String} (value : β)
    (absent : key ∉ fields.map Prod.fst) : assign fields key value = fields ++ [(key, value)] := by
  have none_same : fields.any (fun f => f.1 == key) = false := by
    refine List.any_eq_false.mpr fun f held => ?_
    simpa using fun same : f.1 = key => absent (same ▸ List.mem_map_of_mem held)
  rw [assign, none_same]
  rfl

theorem foldl_assign_new {β : Type} {entries fields : List (String × β)}
    (distinct : ((fields ++ entries).map Prod.fst).Nodup) :
    entries.foldl (fun held e => assign held e.1 e.2) fields = fields ++ entries := by
  induction entries generalizing fields with
  | nil => rw [List.foldl_nil, List.append_nil]
  | cons e entries ih =>
    rw [List.append_cons] at distinct
    have absent : e.1 ∉ fields.map Prod.fst := by
      rw [List.map_append, List.map_append] at distinct
      have first := (List.nodup_append.mp distinct).1
      exact fun inside => (List.nodup_append.mp first).2.2 _ inside _ (List.mem_singleton.mpr rfl) rfl
    rw [List.foldl_cons, assign_new e.2 absent, ih distinct, ← List.append_cons]

theorem readHashes_ok_iff {before : List (String × Json)} {normalized later : List (String × String)} :
    before.foldlM readHash normalized = .ok later ↔
      (∀ f ∈ before, SafeText f.1 ∧ ∃ sha, f.2 = .str sha ∧ isSha256 sha = true) ∧
      later = (before.map hashEntry).foldl (fun held e => assign held e.1 e.2) normalized := by
  induction before generalizing normalized with
  | nil =>
    constructor
    · intro h
      cases h
      exact ⟨fun _ nobody => (nomatch nobody), rfl⟩
    · rintro ⟨-, rfl⟩
      rfl
  | cons f before ih =>
    rw [List.foldlM_cons, bind_eq_ok]
    constructor
    · rintro ⟨between, first, rest⟩
      obtain ⟨safe, sha, rfl⟩ := readHash_ok_iff.mp first
      obtain ⟨each, rfl⟩ := ih.mp rest
      exact ⟨List.forall_mem_cons.mpr ⟨⟨safe, sha⟩, each⟩, rfl⟩
    · rintro ⟨each, rfl⟩
      obtain ⟨⟨safe, sha⟩, each⟩ := List.forall_mem_cons.mp each
      exact ⟨_, readHash_ok_iff.mpr ⟨safe, sha, rfl⟩, ih.mpr ⟨each, rfl⟩⟩

/-- The entries that keep a path and a hash each. -/
theorem eq_map_hashEntry {before : List (String × Json)} {hashes : List (String × String)}
    (kept : List.Forall₂ (fun f e => safePath f.1 = .ok e.1 ∧ f.2 = .str e.2) before hashes) :
    hashes = before.map hashEntry := by
  induction kept with
  | nil => rfl
  | @cons f e _ _ both _ ih =>
    have first : e = hashEntry f := by
      obtain ⟨-, path⟩ := safePath_eq_ok.mp both.1
      rw [hashEntry, both.2, ← path]
      rfl
    rw [List.map_cons, ← ih, first]

section Parse

variable {fields : List (String × Json)} {m : TaskManifest} {before : List (String × Json)}

/-- Every raw path keeps a path and a hash of its own exactly if they are spelled apart. -/
theorem keepsPaths_iff (accepted : TaskManifest.parse (.obj fields) = .ok m)
    (found : Json.field "before_sha256" fields = .obj before) :
    KeepsPaths before m ↔ SpelledApart (before.map Prod.fst) := by
  obtain ⟨_, _, same, reads, folded, -⟩ := TaskManifest.parse_reads accepted
  cases same
  obtain rfl := Json.obj.inj (found.symm.trans reads.before)
  obtain ⟨each, written⟩ := readHashes_ok_iff.mp folded
  have paths : (before.map hashEntry).map Prod.fst = ((before.map Prod.fst).map pathParts).map joinPath := by
    simp only [List.map_map]
    rfl
  have texts : Written (before.map Prod.fst) ((before.map hashEntry).map Prod.fst) := by
    refine ⟨fun text inside => ?_, paths⟩
    obtain ⟨f, held, rfl⟩ := List.mem_map.mp inside
    exact (each f held).1
  constructor
  · rintro ⟨kept, faithful⟩
    rw [eq_map_hashEntry kept] at faithful
    exact (faithful_iff_spelledApart texts).mp faithful
  · intro spelled
    have faithful := (faithful_iff_spelledApart texts).mpr spelled
    rw [foldl_assign_new (by simpa using faithful.distinct), List.nil_append] at written
    refine ⟨?_, written ▸ faithful⟩
    rw [written, List.forall₂_map_right_iff]
    refine List.forall₂_same.mpr fun f held => ?_
    obtain ⟨safe, sha, text, -⟩ := each f held
    refine ⟨safePath_eq_ok.mpr ⟨safe, rfl⟩, ?_⟩
    rw [hashEntry, text]
    rfl

end Parse

/-- A manifest that is accepted keeps its paths exactly if each has a component and no two have the same,
and so does a list of paths of a result; a path that is returned is returned again. -/
theorem paths_faithful (fields before : List (String × Json)) (m : TaskManifest) (texts safes : List String)
    (text path : String) (value : Json) :
    (TaskManifest.parse (.obj fields) = .ok m → Json.field "before_sha256" fields = .obj before →
      (KeepsPaths before m ↔ SpelledApart (before.map Prod.fst))) ∧
    ((texts.map Json.str).mapM safeRelativePath = .ok safes →
      (Faithful safes ↔ SpelledApart texts)) ∧
    (safePath text = .ok path → safePath path = .ok path) ∧
    (safeRelativePath value = .ok path → safeRelativePath (.str path) = .ok path) := by
  refine ⟨keepsPaths_iff, fun h => ?_, safePath_idempotent, safeRelativePath_idempotent⟩
  obtain ⟨texts', same, written⟩ := written_of_mapM h
  obtain rfl := List.map_injective_iff.mpr (fun _ _ => Json.str.inj) same
  exact faithful_iff_spelledApart written

theorem eq_ok_of_toOption {α : Type} {x : Except Raised α} {a : α} (h : x.toOption = some a) :
    x = .ok a := by
  cases x with
  | error e => cases h
  | ok b => exact congrArg Except.ok (Option.some.inj h)

/-- The paths of the sample manifest, of a result and of the working directory. -/
theorem sample_paths_faithful :
    (KeepsPaths [("docs//a.md", .str "4444444444444444444444444444444444444444444444444444444444444444")]
      Sample.manifest ↔ SpelledApart ["docs//a.md"]) ∧
    (Faithful ["docs/a.md", "src/b.py"] ↔ SpelledApart ["docs/a.md", "./src/b.py"]) ∧
    safePath "docs/a.md" = .ok "docs/a.md" ∧ safeRelativePath (.str ".") = .ok "." :=
  ⟨(paths_faithful _ _ Sample.manifest [] [] "" "" .null).1 Sample.parsed rfl,
    (paths_faithful [] [] Sample.manifest ["docs/a.md", "./src/b.py"] _ "" "" .null).2.1
      (eq_ok_of_toOption (by decide)),
    (paths_faithful [] [] Sample.manifest [] [] "docs//a.md" _ .null).2.2.1 (eq_ok_of_toOption (by decide)),
    (paths_faithful [] [] Sample.manifest [] [] "" _ (.str ".")).2.2.2 (eq_ok_of_toOption (by decide))⟩

def Sample.respelled : Json := .obj [
  ("schema_version", .int 1),
  ("task_id", .str "cwp-0123456789abcdef01234567"),
  ("repository", .str "example/product"),
  ("base_sha", .str "1111111111111111111111111111111111111111"),
  ("workspace_sha", .str "2222222222222222222222222222222222222222"),
  ("adapter_id", .str "adapter"),
  ("adapter_contract_sha256", .str "3333333333333333333333333333333333333333333333333333333333333333"),
  ("before_sha256", .obj [
    ("docs/a.md", .str "4444444444444444444444444444444444444444444444444444444444444444"),
    ("docs//a.md", .str "5555555555555555555555555555555555555555555555555555555555555555")])]

/-- Of two spellings of a path one hash is lost, and a path may have no component at all. -/
theorem sample_paths_lost :
    (∃ m, TaskManifest.parse Sample.respelled = .ok m ∧ m.beforeSha256 =
      [("docs/a.md", "5555555555555555555555555555555555555555555555555555555555555555")]) ∧
    safePath "." = .ok "." ∧ ¬ NormalPath "." := by
  refine ⟨?_, eq_ok_of_toOption (by decide), fun normal => ?_⟩
  · have kept : (TaskManifest.parse Sample.respelled).toOption.map (·.beforeSha256) =
        some [("docs/a.md", "5555555555555555555555555555555555555555555555555555555555555555")] := by
      decide
    obtain ⟨m, accepted, hashes⟩ := Option.map_eq_some_iff.mp kept
    exact ⟨m, eq_ok_of_toOption accepted, hashes⟩
  · exact (normal ['.'] (by decide)).2 rfl

end WorkerPool
