import Hearth.Client.Frozen

/-!
# What an accepted candidate holds

An accepted candidate holds exactly the files of its manifest when nothing escapes the listing of its directories:
the walk passes over what a link leads to and over everything that is neither file nor directory, and it reports
no directory.
-/

namespace Hearth.Client

open Hearth.Library
open Hearth.Library.RawPath (partsOf relativeText partsOf_relativeText)

variable {Ino : Type} {fs : FileSystem Ino ByteArray} {sha256 : ByteArray → String} {kind : InstallKind}
  {candidate : Ino}

/-! ## The steps of the validation -/

/-- A row that describes the file of its path. -/
def Holds (fs : FileSystem Ino ByteArray) (sha256 : ByteArray → String) (record : Json) (ino : Ino) : Prop :=
  record.isDict = true ∧ ∃ content mode, fs.node ino = .regular true content mode ∧
    Json.equal (.str (sha256 content)) (record.get "sha256") = true ∧
    Json.equal (.int (mode &&& 0o777 : ℕ)) (record.get "mode") = true

theorem isFile_eq_ok {root : Ino} {path : Parts} {file : Bool} :
    isFile fs root path = .ok file ↔ fs.stat root path ≠ .denied ∧
      (file = true ↔ ∃ ino, fs.stat root path = .found ino ∧ (fs.node ino).isRegular = true) := by
  unfold isFile
  cases hstat : fs.stat root path with
  | missing => cases file <;> simp
  | denied => simp
  | found ino =>
      simp only [Except.ok.injEq, ne_eq, reduceCtorEq, not_false_eq_true, Resolved.found.injEq,
        exists_eq_left', true_and]
      exact ⟨fun h => h ▸ Iff.rfl, fun h => (Bool.eq_iff_iff.mpr h).symm⟩

theorem readFile_eq_ok {root : Ino} {path : Parts} {content : ByteArray} {mode : ℕ} :
    readFile fs root path = .ok (content, mode) ↔ ∃ ino bits,
      fs.stat root path = .found ino ∧ fs.node ino = .regular true content bits ∧ mode = bits &&& 0o777 := by
  unfold readFile
  constructor
  · intro h
    split at h
    · rename_i ino hstat
      split at h
      · rename_i content' bits hnode
        cases h
        exact ⟨ino, bits, hstat, hnode, rfl⟩
      · cases h
    · cases h
  · rintro ⟨ino, bits, hstat, hnode, rfl⟩
    rw [hstat]
    dsimp only
    rw [hnode]

/-- The last name of a path through directories is looked up in the directory in front of it. -/
theorem lstat_of_plain {root ino : Ino} {path : Parts} (h : fs.plain root path = .found ino) :
    fs.lstat root path = .found ino := by
  unfold FileSystem.lstat
  cases hlast : path.getLast? with
  | none =>
      rw [List.getLast?_eq_none_iff.mp hlast] at h
      exact h
  | some name =>
      have hpath : path.dropLast ++ [name] = path := List.dropLast_append_getLast? name hlast
      rw [← hpath, FileSystem.plain_append] at h
      obtain ⟨parent, hparent, hentry⟩ := Resolved.bind_eq_found.mp h
      obtain ⟨child, hchild, hino⟩ := Resolved.bind_eq_found.mp hentry
      cases hino
      have hstat : fs.stat root path.dropLast = .found parent := by
        by_cases hnil : path.dropLast = []
        · rw [hnil] at hparent ⊢
          exact hparent
        · rw [FileSystem.stat_of_plain hnil hparent]
          exact FileSystem.followed_directory (FileSystem.isDirectory_of_entry hchild)
      show (fs.stat root path.dropLast).bind _ = _
      rw [hstat]
      exact hchild

/-- The check of a row passes where its path leads through directories to the file that it describes. -/
theorem checkRow_of_holds {path : Parts} {record : Json} {ino : Ino} (hpath : Parts.Spelled path) (hne : path ≠ [])
    (hplain : fs.plain candidate path = .found ino) (h : Holds fs sha256 record ino) :
    checkRow fs sha256 candidate (relativeText path, record) = .ok () := by
  obtain ⟨hdict, content, bits, hnode, hsha, hmode⟩ := h
  have hlink : (fs.node ino).isLink = false := by rw [hnode]; rfl
  have hstat : fs.stat candidate path = .found ino :=
    (FileSystem.stat_of_plain hne hplain).trans (FileSystem.followed_of_not_link hlink)
  have hsymlink : isSymlink fs candidate path = .ok false := by
    unfold isSymlink
    rw [lstat_of_plain hplain]
    exact congrArg _ hlink
  have hfile : isFile fs candidate path = .ok true := by
    unfold isFile
    rw [hstat]
    show Except.ok (fs.node ino).isRegular = _
    rw [hnode]
    rfl
  have hread : readFile fs candidate path = .ok (content, bits &&& 0o777) :=
    readFile_eq_ok.mpr ⟨ino, bits, hstat, hnode, rfl⟩
  unfold checkRow
  simp only [bind_eq_ok, guard_eq_ok]
  rw [partsOf_relativeText hpath]
  refine ⟨false, hsymlink, by simp, true, hfile, by simp, by simp [hdict], _, hread, by simp [hsha], ?_⟩
  rw [if_neg (by simp [hmode])]
  rfl

/-- A row that passed its check describes the file of its path. -/
theorem holds_of_checkRow {path : Parts} {record : Json} {ino : Ino} (hpath : Parts.Spelled path) (hne : path ≠ [])
    (hplain : fs.plain candidate path = .found ino)
    (h : checkRow fs sha256 candidate (relativeText path, record) = .ok ()) : Holds fs sha256 record ino := by
  unfold checkRow at h
  simp only [bind_eq_ok, guard_eq_ok] at h
  rw [partsOf_relativeText hpath] at h
  obtain ⟨link, hsymlink, hlink, file, hfile, htrue, hdict, ⟨content, mode⟩, hread, hsha, hmode⟩ := h
  have hnot : (fs.node ino).isLink = false := by
    unfold isSymlink at hsymlink
    rw [lstat_of_plain hplain] at hsymlink
    cases hsymlink
    simpa using hlink
  obtain ⟨found, bits, hstat, hnode, rfl⟩ := readFile_eq_ok.mp hread
  rw [FileSystem.stat_of_plain hne hplain, FileSystem.followed_of_not_link hnot] at hstat
  cases hstat
  refine ⟨by simpa using hdict, content, bits, hnode, by simpa using hsha, ?_⟩
  by_contra hcontra
  rw [if_pos (by simpa using hcontra)] at hmode
  cases hmode

/-- A path that leads to a file. -/
def FileAt (fs : FileSystem Ino ByteArray) (root : Ino) (path : Parts) : Prop :=
  ∃ ino, fs.stat root path = .found ino ∧ (fs.node ino).isRegular = true

theorem mem_filesAmong {root : Ino} {paths files : List Parts} (h : filesAmong fs root paths = .ok files) :
    (∀ path ∈ paths, fs.stat root path ≠ .denied) ∧ ∀ path, path ∈ files ↔ path ∈ paths ∧ FileAt fs root path := by
  induction paths generalizing files with
  | nil =>
      cases h
      exact ⟨fun _ hmem => absurd hmem List.not_mem_nil, fun _ => ⟨fun hmem => absurd hmem List.not_mem_nil, And.left⟩⟩
  | cons path paths ih =>
      unfold filesAmong at h
      simp only [bind_eq_ok] at h
      obtain ⟨file, hfile, rest, hrest, hfiles⟩ := h
      obtain ⟨hdenied, hregular⟩ := isFile_eq_ok.mp hfile
      obtain ⟨hothers, hmem⟩ := ih hrest
      refine ⟨List.forall_mem_cons.mpr ⟨hdenied, hothers⟩, fun other => ?_⟩
      cases hfiles
      cases file with
      | true =>
          rw [if_pos rfl, List.mem_cons, List.mem_cons, hmem]
          constructor
          · rintro (rfl | ⟨hother, hat⟩)
            · exact ⟨.inl rfl, hregular.mp rfl⟩
            · exact ⟨.inr hother, hat⟩
          · rintro ⟨rfl | hother, hat⟩
            · exact .inl rfl
            · exact .inr ⟨hother, hat⟩
      | false =>
          rw [if_neg Bool.false_ne_true, List.mem_cons, hmem]
          refine ⟨fun hother => ⟨.inr hother.1, hother.2⟩, ?_⟩
          rintro ⟨rfl | hother, hat⟩
          · exact absurd (hregular.mpr hat) Bool.false_ne_true
          · exact ⟨hother, hat⟩

theorem filesAmong_total {root : Ino} {paths : List Parts} (h : ∀ path ∈ paths, fs.stat root path ≠ .denied) :
    ∃ files, filesAmong fs root paths = .ok files := by
  induction paths with
  | nil => exact ⟨[], rfl⟩
  | cons path paths ih =>
      obtain ⟨files, hfiles⟩ := ih fun other hmem => h other (List.mem_cons_of_mem _ hmem)
      obtain ⟨file, hfile⟩ : ∃ file, isFile fs root path = .ok file := by
        have hdenied := h path List.mem_cons_self
        unfold isFile
        cases hstat : fs.stat root path with
        | missing => exact ⟨_, rfl⟩
        | denied => exact absurd hstat hdenied
        | found ino => exact ⟨_, rfl⟩
      exact ⟨_, by rw [filesAmong, hfile, hfiles]; rfl⟩

/-- What the validation of a candidate has established. -/
structure Accepted (fs : FileSystem Ino ByteArray) (sha256 : ByteArray → String) (kind : InstallKind)
    (candidate : Ino) (document expected : List (String × Json)) : Prop where
  manifest_file : FileAt fs candidate [kind.manifestName]
  manifest_read : readManifest fs candidate [kind.manifestName] = .ok document
  schema : Json.equal (Json.get (.obj document) "schema") (.str kind.schema) = true
  files : Json.get (.obj document) "files" = .obj expected
  allowed : ∀ path, fs.Shown candidate path → fs.stat candidate path ≠ .denied
  covered : ∀ text, text ∈ expected.map Prod.fst ↔
    ∃ path, fs.Shown candidate path ∧ path ≠ [kind.manifestName] ∧ FileAt fs candidate path ∧ relativeText path = text
  rows : ∀ row ∈ expected, checkRow fs sha256 candidate row = .ok ()

theorem mem_observed {files : List Parts} {manifest : Parts} {text : String} :
    text ∈ (files.filter (· ≠ manifest)).map relativeText ↔
      ∃ path ∈ files, path ≠ manifest ∧ relativeText path = text := by
  simp only [List.mem_map, List.mem_filter, decide_eq_true_eq, and_assoc]

theorem accepted_of_validate {document : List (String × Json)}
    (h : validateFrozenClientCandidate fs sha256 kind candidate = .ok document) :
    ∃ expected, Accepted fs sha256 kind candidate document expected := by
  unfold validateFrozenClientCandidate at h
  simp only [bind_eq_ok, guard_eq_ok] at h
  obtain ⟨file, hfile, htrue, read, hread, hschema, h⟩ := h
  split at h
  · rename_i expected hexpected
    simp only [bind_eq_ok, guard_eq_ok] at h
    obtain ⟨files, hfiles, hcover, _, hrows, hdocument⟩ := h
    cases hdocument
    obtain ⟨hdenied, hmem⟩ := mem_filesAmong hfiles
    have hmanifest : file = true := by simpa using htrue
    simp only [Bool.not_eq_true', decide_eq_false_iff_not, not_not] at hcover
    refine ⟨expected, (isFile_eq_ok.mp hfile).2.mp hmanifest, hread, by simpa using hschema, hexpected,
      fun path hshown => hdenied path (FileSystem.mem_rglob.mpr hshown), fun text => ?_, forM_eq_ok hrows⟩
    have htext : text ∈ expected.map Prod.fst ↔
        text ∈ (files.filter (· ≠ [kind.manifestName])).map relativeText :=
      ⟨fun h => hcover.2 h, fun h => hcover.1 h⟩
    simp only [htext, mem_observed, hmem, FileSystem.mem_rglob]
    exact ⟨fun ⟨path, ⟨hshown, hat⟩, hne, heq⟩ => ⟨path, hshown, hne, hat, heq⟩,
      fun ⟨path, hshown, hne, hat, heq⟩ => ⟨path, ⟨hshown, hat⟩, hne, heq⟩⟩
  · cases h

/-- The validation passes where everything that it establishes holds. -/
theorem validate_of_accepted {document expected : List (String × Json)}
    (h : Accepted fs sha256 kind candidate document expected) :
    validateFrozenClientCandidate fs sha256 kind candidate = .ok document := by
  obtain ⟨ino, hstat, hregular⟩ := h.manifest_file
  have hfile : isFile fs candidate [kind.manifestName] = .ok true :=
    isFile_eq_ok.mpr ⟨by rw [hstat]; nofun, iff_of_true rfl ⟨ino, hstat, hregular⟩⟩
  have hallowed : ∀ path ∈ fs.rglob candidate, fs.stat candidate path ≠ .denied :=
    fun path hpath => h.allowed path (FileSystem.mem_rglob.mp hpath)
  obtain ⟨files, hfiles⟩ := filesAmong_total hallowed
  obtain ⟨-, hmem⟩ := mem_filesAmong hfiles
  have hobserved : ∀ text, text ∈ (files.filter (· ≠ [kind.manifestName])).map relativeText ↔
      text ∈ expected.map Prod.fst := by
    intro text
    simp only [h.covered, mem_observed, hmem, FileSystem.mem_rglob]
    exact ⟨fun ⟨path, ⟨hshown, hat⟩, hne, heq⟩ => ⟨path, hshown, hne, hat, heq⟩,
      fun ⟨path, hshown, hne, hat, heq⟩ => ⟨path, ⟨hshown, hat⟩, hne, heq⟩⟩
  unfold validateFrozenClientCandidate
  simp only [bind_eq_ok, guard_eq_ok]
  refine ⟨true, hfile, by simp, document, h.manifest_read, by simp [h.schema], ?_⟩
  rw [h.files]
  simp only [bind_eq_ok, guard_eq_ok]
  refine ⟨files, hfiles, ?_, ⟨⟩, forM_ok h.rows, trivial⟩
  simp only [Bool.not_eq_true', decide_eq_false_iff_not, not_not]
  exact ⟨fun text htext => (hobserved text).mp htext, fun text htext => (hobserved text).mpr htext⟩

/-! ## The rows of an accepted candidate -/

/-- The path of a row of the manifest. -/
def rowPath (row : String × Json) : Parts :=
  partsOf row.1.toList

section Rows

variable {document expected : List (String × Json)}

theorem Accepted.row_shown (h : Accepted fs sha256 kind candidate document expected) {row : String × Json}
    (hrow : row ∈ expected) : fs.Shown candidate (rowPath row) ∧ row.1 = relativeText (rowPath row) := by
  obtain ⟨path, hshown, -, -, htext⟩ := (h.covered row.1).mp (List.mem_map_of_mem hrow)
  have hpath : rowPath row = path := by
    unfold rowPath
    rw [← htext, partsOf_relativeText hshown.spelled]
  exact ⟨hpath ▸ hshown, hpath ▸ htext.symm⟩

theorem Accepted.plain (h : Accepted fs sha256 kind candidate document expected) {path : Parts}
    (hshown : fs.Shown candidate path) : ∃ ino, fs.plain candidate path = .found ino :=
  hshown.plain (h.allowed path hshown)

/-- A row describes the file that its path leads to through directories. -/
theorem Accepted.row_holds (h : Accepted fs sha256 kind candidate document expected) {row : String × Json}
    (hrow : row ∈ expected) :
    ∃ ino, fs.plain candidate (rowPath row) = .found ino ∧ Holds fs sha256 row.2 ino := by
  obtain ⟨hshown, htext⟩ := h.row_shown hrow
  obtain ⟨ino, hplain⟩ := h.plain hshown
  have hcheck := h.rows row hrow
  rw [show row = (relativeText (rowPath row), row.2) from Prod.ext htext rfl] at hcheck
  exact ⟨ino, hplain, holds_of_checkRow hshown.spelled hshown.ne_nil hplain hcheck⟩

theorem Accepted.exists_row (h : Accepted fs sha256 kind candidate document expected) {path : Parts}
    (hshown : fs.Shown candidate path) (hne : path ≠ [kind.manifestName]) (hat : FileAt fs candidate path) :
    ∃ row ∈ expected, rowPath row = path := by
  obtain ⟨row, hrow, htext⟩ := List.mem_map.mp ((h.covered _).mpr ⟨path, hshown, hne, hat, rfl⟩)
  refine ⟨row, hrow, ?_⟩
  unfold rowPath
  rw [htext, partsOf_relativeText hshown.spelled]

/-! ## Exactly the files of the manifest -/

/-- Every path beneath the candidate that can be resolved is the manifest, a directory that contains listed files,
or a listed file, reached without a link, as its row describes it. -/
def Exact (fs : FileSystem Ino ByteArray) (sha256 : ByteArray → String) (kind : InstallKind) (candidate : Ino)
    (expected : List (String × Json)) : Prop :=
  ∀ path ino, path ≠ [] → fs.stat candidate path = .found ino →
    path = [kind.manifestName] ∨ (∃ row ∈ expected, ∃ rest ≠ [], rowPath row = path ++ rest) ∨
      ∃ row ∈ expected, rowPath row = path ∧ fs.plain candidate path = .found ino ∧ Holds fs sha256 row.2 ino

/-- A file, or a directory beneath which a file lies. -/
def Ordinary (fs : FileSystem Ino ByteArray) (ino : Ino) : Prop :=
  (fs.node ino).isRegular = true ∨
    ∃ rest file, rest ≠ [] ∧ fs.plain ino rest = .found file ∧ (fs.node file).isRegular = true

/-- Nothing escapes the inventory: apart from the manifest there is nothing beneath the candidate but links that lead
nowhere, files, and directories that hold files, these two in directories that show their names. -/
def Contained (fs : FileSystem Ino ByteArray) (kind : InstallKind) (candidate : Ino) : Prop :=
  ∀ path ino, path ≠ [] → path ≠ [kind.manifestName] → fs.plain candidate path = .found ino →
    ((fs.node ino).isLink = true ∧ ∀ next, fs.follow ino ≠ .found next) ∨
      (Ordinary fs ino ∧ ∃ parent, fs.plain candidate path.dropLast = .found parent ∧ fs.Listable parent)

theorem Ordinary.not_link {ino : Ino} (h : Ordinary fs ino) : (fs.node ino).isLink = false := by
  rcases h with hregular | ⟨rest, file, hne, hplain, -⟩
  · cases hnode : fs.node ino with
    | link =>
        rw [hnode] at hregular
        cases hregular
    | _ => rfl
  · obtain ⟨name, rest, rfl⟩ := List.exists_cons_of_ne_nil hne
    obtain ⟨child, hentry, -⟩ := Resolved.bind_eq_found.mp hplain
    have hdir := FileSystem.isDirectory_of_entry hentry
    cases hnode : fs.node ino with
    | link =>
        rw [hnode] at hdir
        cases hdir
    | _ => rfl

/-- What stands in front of the last name of a shown path shows its names. -/
theorem listable_parent {path rest : Parts} (hne : path ≠ []) (h : fs.Shown candidate (path ++ rest)) :
    ∃ parent, fs.plain candidate path.dropLast = .found parent ∧ fs.Listable parent := by
  rw [← List.dropLast_append_getLast hne, List.append_assoc] at h
  obtain ⟨parent, hparent, hshown⟩ := h.front (by simp)
  exact ⟨parent, hparent, hshown.listable⟩

theorem Holds.isRegular {record : Json} {ino : Ino} (h : Holds fs sha256 record ino) :
    (fs.node ino).isRegular = true := by
  obtain ⟨-, content, mode, hnode, -⟩ := h
  rw [hnode]
  rfl

theorem contained_of_exact (h : Accepted fs sha256 kind candidate document expected)
    (hexact : Exact fs sha256 kind candidate expected) : Contained fs kind candidate := by
  intro path ino hne hmanifest hplain
  have hstat := FileSystem.stat_of_plain hne hplain
  -- a row beneath the path shows that it is a directory, a row of the path that it is a file
  have hrows : ∀ target, fs.stat candidate path = .found target →
      Ordinary fs ino ∧ ∃ parent, fs.plain candidate path.dropLast = .found parent ∧ fs.Listable parent := by
    intro target htarget
    rcases hexact path target hne htarget with heq | ⟨row, hrow, rest, hrest, hpath⟩ | ⟨row, hrow, hpath, hfile, hholds⟩
    · exact absurd heq hmanifest
    · obtain ⟨file, hfile, hholds⟩ := h.row_holds hrow
      rw [hpath, FileSystem.plain_append, hplain, Resolved.bind_found] at hfile
      exact ⟨.inr ⟨rest, file, hrest, hfile, hholds.isRegular⟩,
        listable_parent hne (hpath ▸ (h.row_shown hrow).1)⟩
    · rw [hplain] at hfile
      cases hfile
      have hshown := (h.row_shown hrow).1
      rw [hpath, ← List.append_nil path] at hshown
      exact ⟨.inl hholds.isRegular, listable_parent hne hshown⟩
  by_cases hlink : (fs.node ino).isLink = true
  · refine .inl ⟨hlink, fun next hnext => ?_⟩
    have hordinary := (hrows next (by rw [hstat, FileSystem.followed, if_pos hlink, hnext])).1.not_link
    rw [hlink] at hordinary
    cases hordinary
  · exact .inr (hrows ino (by rw [hstat, FileSystem.followed, if_neg hlink]))

/-- The manifest is a file, so that no path goes on behind it. -/
theorem Accepted.no_entry (h : Accepted fs sha256 kind candidate document expected) {next child : Ino} {name : String}
    (hstat : fs.stat candidate [kind.manifestName] = .found next) : fs.entry next name ≠ .found child := by
  intro hentry
  have hdir := FileSystem.isDirectory_of_entry hentry
  obtain ⟨ino, hino, hregular⟩ := h.manifest_file
  rw [hstat] at hino
  cases hino
  cases hnode : fs.node next with
  | regular => rw [hnode] at hdir; cases hdir
  | directory => rw [hnode] at hregular; cases hregular
  | link => rw [hnode] at hdir; cases hdir
  | special => rw [hnode] at hdir; cases hdir

/-- Where nothing escapes the inventory, every path that can be resolved leads through directories. -/
theorem plain_of_contained (h : Accepted fs sha256 kind candidate document expected)
    (hcontained : Contained fs kind candidate) {path : Parts} {ino : Ino} (hne : path ≠ [])
    (hstat : fs.stat candidate path = .found ino) :
    path = [kind.manifestName] ∨ fs.plain candidate path = .found ino := by
  induction path using List.reverseRecOn generalizing ino with
  | nil => exact absurd rfl hne
  | append_singleton front name ih =>
      rw [FileSystem.stat_append] at hstat
      obtain ⟨dir, hdir, hlast⟩ := Resolved.bind_eq_found.mp hstat
      obtain ⟨child, hchild, hnext⟩ := Resolved.bind_eq_found.mp hlast
      rw [show (fun next => fs.stat next []) = Resolved.found from rfl, Resolved.bind_self] at hnext
      have hfront : fs.plain candidate front = .found dir := by
        by_cases hnil : front = []
        · subst hnil
          exact hdir
        · rcases ih hnil hdir with rfl | hplain
          · exact absurd hchild (h.no_entry hdir)
          · exact hplain
      have hplain : fs.plain candidate (front ++ [name]) = .found child := by
        rw [FileSystem.plain_append, hfront, Resolved.bind_found, FileSystem.plain, hchild]
        rfl
      by_cases hmanifest : front ++ [name] = [kind.manifestName]
      · exact .inl hmanifest
      rcases hcontained _ child (by simp) hmanifest hplain with ⟨hlink, hnowhere⟩ | ⟨hordinary, -⟩
      · rw [FileSystem.followed, if_pos hlink] at hnext
        exact absurd hnext (hnowhere ino)
      · rw [FileSystem.followed_of_not_link hordinary.not_link] at hnext
        cases hnext
        exact .inr hplain

/-- Where nothing escapes the inventory, every file and every directory that holds one is shown. -/
theorem shown_of_contained (h : Accepted fs sha256 kind candidate document expected)
    (hcontained : Contained fs kind candidate) {path : Parts} {ino : Ino} (hne : path ≠ [])
    (hmanifest : path ≠ [kind.manifestName]) (hplain : fs.plain candidate path = .found ino)
    (hordinary : Ordinary fs ino) : fs.Shown candidate path := by
  refine FileSystem.shown_of_plain hne hplain fun front hfront hother middle hmiddle => ?_
  obtain ⟨rest, rfl⟩ := hfront
  obtain ⟨name, later, rfl⟩ := List.exists_cons_of_ne_nil (show rest ≠ [] by rintro rfl; simp at hother)
  have hassoc : front ++ name :: later = (front ++ [name]) ++ later := by simp
  rw [hassoc, FileSystem.plain_append] at hplain
  obtain ⟨child, hchild, hlater⟩ := Resolved.bind_eq_found.mp hplain
  have hlisted : Ordinary fs child → front ++ [name] ≠ [kind.manifestName] → fs.Listable middle := by
    intro hchildOrdinary hnot
    rcases hcontained _ child (by simp) hnot hchild with ⟨hlink, -⟩ | ⟨-, parent, hparent, hlist⟩
    · rw [hchildOrdinary.not_link] at hlink
      cases hlink
    · rw [List.dropLast_concat, hmiddle] at hparent
      cases hparent
      exact hlist
  by_cases hlast : later = []
  · subst hlast
    cases hlater
    exact hlisted hordinary (hassoc ▸ hmanifest)
  · obtain ⟨next, others, rfl⟩ := List.exists_cons_of_ne_nil hlast
    obtain ⟨_, hentry, -⟩ := Resolved.bind_eq_found.mp hlater
    have hfollowed := FileSystem.followed_directory (FileSystem.isDirectory_of_entry hentry)
    have hnot : front ++ [name] ≠ [kind.manifestName] := by
      intro heq
      refine h.no_entry ?_ hentry
      rw [← heq, FileSystem.stat_of_plain (by simp) hchild, hfollowed]
    rcases hcontained _ child (by simp) hnot hchild with ⟨hlink, -⟩ | ⟨hchildOrdinary, -⟩
    · rw [FileSystem.followed, if_pos hlink] at hfollowed
      rw [fs.follow_end hfollowed] at hlink
      cases hlink
    · exact hlisted hchildOrdinary hnot

theorem exact_of_contained (h : Accepted fs sha256 kind candidate document expected)
    (hcontained : Contained fs kind candidate) : Exact fs sha256 kind candidate expected := by
  intro path ino hne hstat
  rcases plain_of_contained h hcontained hne hstat with heq | hplain
  · exact .inl heq
  by_cases hmanifest : path = [kind.manifestName]
  · exact .inl hmanifest
  -- a file that is reached through directories has its row
  have hrow : ∀ {whole : Parts} {file : Ino}, whole ≠ [] → whole ≠ [kind.manifestName] →
      fs.plain candidate whole = .found file → (fs.node file).isRegular = true →
        ∃ row ∈ expected, rowPath row = whole ∧ Holds fs sha256 row.2 file := by
    intro whole file hwhole hnot hfile hregular
    have hordinary : Ordinary fs file := .inl hregular
    have hat : FileAt fs candidate whole :=
      ⟨file, (FileSystem.stat_of_plain hwhole hfile).trans (FileSystem.followed_of_not_link hordinary.not_link), hregular⟩
    obtain ⟨row, hmem, hpath⟩ := h.exists_row (shown_of_contained h hcontained hwhole hnot hfile hordinary) hnot hat
    obtain ⟨other, hother, hholds⟩ := h.row_holds hmem
    rw [hpath, hfile] at hother
    cases hother
    exact ⟨row, hmem, hpath, hholds⟩
  rcases hcontained path ino hne hmanifest hplain with ⟨hlink, hnowhere⟩ | ⟨hregular | hdirectory, -⟩
  · rw [FileSystem.stat_of_plain hne hplain, FileSystem.followed, if_pos hlink] at hstat
    exact absurd hstat (hnowhere ino)
  · obtain ⟨row, hmem, hpath, hholds⟩ := hrow hne hmanifest hplain hregular
    exact .inr (.inr ⟨row, hmem, hpath, hplain, hholds⟩)
  · obtain ⟨rest, file, hrest, hfile, hregular⟩ := hdirectory
    have hlong : path ++ rest ≠ [kind.manifestName] := by
      intro heq
      have hlength := congrArg List.length heq
      have hpos := List.length_pos_iff.mpr hne
      have hpos' := List.length_pos_iff.mpr hrest
      rw [List.length_append, List.length_singleton] at hlength
      omega
    obtain ⟨row, hmem, hpath, -⟩ := hrow (List.append_ne_nil_of_left_ne_nil hne _) hlong
      (by rw [FileSystem.plain_append, hplain]; exact hfile) hregular
    exact .inr (.inl ⟨row, hmem, rest, hrest, hpath⟩)

end Rows

end Hearth.Client
