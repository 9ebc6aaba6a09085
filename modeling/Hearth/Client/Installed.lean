import Hearth.Client.FrozenExact
import Hearth.Library.Pointwise

/-!
# The trees of the installer

The installer extracts an archive, records its files and puts the manifest beside them.  A tree so written is
accepted unless the archive itself holds a file under the manifest's name: the inventory lists this file, and the
manifest then takes its place.
-/

namespace Hearth.Client

open Hearth.Library
open Hearth.Library.RawPath (partsOf relativeText partsOf_relativeText)

variable {Ino : Type}

/-- Everything beneath an inode is a readable file or an open directory. -/
def AllOpen (fs : FileSystem Ino ByteArray) (ino : Ino) : Prop :=
  ∀ path next, fs.plain ino path = .found next →
    (∃ content mode, fs.node next = .regular true content mode) ∨
      ∃ entries, fs.node next = .directory true true entries

/-- `atomic_write_json`: the temporary file takes the place of a file that had the name, and no other inode
changes. -/
structure Written (before after : FileSystem Ino ByteArray) (root fresh : Ino) (name : String)
    (content : ByteArray) : Prop where
  fresh_node : ∃ mode, after.node fresh = .regular true content mode
  root_node : ∀ {entries}, before.node root = .directory true true entries →
    after.node root = .directory true true ((name, fresh) :: entries.filter (·.1 ≠ name))
  others : ∀ ino, ino ≠ root → ino ≠ fresh → after.node ino = before.node ino
  unused : ∀ path ino, before.plain root path = .found ino → ino ≠ fresh
  replaced : ∀ child, before.entry root name = .found child → (before.node child).isRegular = true

variable {sha256 : ByteArray → String} {kind : InstallKind} {before after : FileSystem Ino ByteArray} {root : Ino}

/-! ## Open trees -/

section Open

variable {fs : FileSystem Ino ByteArray}

theorem plain_cons {dir child : Ino} {name : String} (hentry : fs.entry dir name = .found child) (path : Parts) :
    fs.plain dir (name :: path) = fs.plain child path := by
  rw [FileSystem.plain, hentry, Resolved.bind_found]

theorem AllOpen.child (h : AllOpen fs root) {child : Ino} {name : String}
    (hentry : fs.entry root name = .found child) : AllOpen fs child :=
  fun path next hnext => h (name :: path) next ((plain_cons hentry path).trans hnext)

theorem AllOpen.not_link (h : AllOpen fs root) : (fs.node root).isLink = false := by
  rcases h [] root rfl with ⟨content, mode, hnode⟩ | ⟨entries, hnode⟩ <;> rw [hnode] <;> rfl

/-- In an open tree there is no link to follow. -/
theorem AllOpen.stat_eq (h : AllOpen fs root) (path : Parts) : fs.stat root path = fs.plain root path := by
  induction path generalizing root with
  | nil => rfl
  | cons name path ih =>
      show (fs.entry root name).bind _ = (fs.entry root name).bind _
      cases hentry : fs.entry root name with
      | missing => rfl
      | denied => rfl
      | found child =>
          rw [Resolved.bind_found, Resolved.bind_found, FileSystem.followed_of_not_link (h.child hentry).not_link,
            Resolved.bind_found]
          exact ih (h.child hentry)

/-- An open tree shows what it holds. -/
theorem AllOpen.plain_of_shown (h : AllOpen fs root) {path : Parts} (hshown : fs.Shown root path) :
    ∃ ino, fs.plain root path = .found ino := by
  induction hshown with
  | @here dir searchable entries name child hnode hmem =>
      have hopen : fs.node dir = .directory true true entries := by
        rcases h [] dir rfl with ⟨content, mode, hother⟩ | ⟨others, hother⟩
        · rw [hnode] at hother
          cases hother
        · rw [hnode] at hother ⊢
          cases hother
          rfl
      exact ⟨child, plain_cons (FileSystem.entry_eq_found.mpr ⟨_, _, hopen, hmem⟩) []⟩
  | @inside dir entries name child path hnode hmem hpath ih =>
      have hentry : fs.entry dir name = .found child := FileSystem.entry_eq_found.mpr ⟨_, _, hnode, hmem⟩
      obtain ⟨ino, hino⟩ := ih (h.child hentry)
      exact ⟨ino, (plain_cons hentry path).trans hino⟩

theorem AllOpen.shown_of_plain (h : AllOpen fs root) {path : Parts} {ino : Ino} (hne : path ≠ [])
    (hplain : fs.plain root path = .found ino) : fs.Shown root path := by
  refine FileSystem.shown_of_plain hne hplain fun front hfront hother middle hmiddle => ?_
  obtain ⟨rest, rfl⟩ := hfront
  obtain ⟨name, later, rfl⟩ := List.exists_cons_of_ne_nil (show rest ≠ [] by rintro rfl; simp at hother)
  rw [FileSystem.plain_append, hmiddle, Resolved.bind_found] at hplain
  obtain ⟨child, hentry, -⟩ := Resolved.bind_eq_found.mp hplain
  have hdir := FileSystem.isDirectory_of_entry hentry
  rcases h front middle hmiddle with ⟨content, mode, hnode⟩ | ⟨entries, hnode⟩
  · rw [hnode] at hdir
    cases hdir
  · exact ⟨true, entries, hnode⟩

/-- A directory beneath another is less high. -/
theorem height_lt_of_plain {dir ino : Ino} {path : Parts} (hne : path ≠ []) (hplain : fs.plain dir path = .found ino)
    (hdir : (fs.node ino).isDirectory = true) : fs.height ino < fs.height dir := by
  induction path generalizing dir with
  | nil => exact absurd rfl hne
  | cons name path ih =>
      obtain ⟨child, hentry, hrest⟩ := Resolved.bind_eq_found.mp hplain
      obtain ⟨listable, entries, hnode, hmem⟩ := FileSystem.entry_eq_found.mp hentry
      by_cases hnil : path = []
      · subst hnil
        cases hrest
        exact fs.height_lt hnode _ hmem hdir
      · obtain ⟨next, later, rfl⟩ := List.exists_cons_of_ne_nil hnil
        obtain ⟨_, hnext, -⟩ := Resolved.bind_eq_found.mp hrest
        exact (ih hnil hrest).trans (fs.height_lt hnode _ hmem (FileSystem.isDirectory_of_entry hnext))

end Open

/-! ## What the manifest leaves as it was -/

/-- The inodes beneath an inode are as before. -/
def Kept (before after : FileSystem Ino ByteArray) (ino : Ino) : Prop :=
  ∀ path next, before.plain ino path = .found next → after.node next = before.node next

theorem entry_congr {dir : Ino} (h : after.node dir = before.node dir) (name : String) :
    after.entry dir name = before.entry dir name := by
  unfold FileSystem.entry
  rw [h]

theorem Kept.plain_eq {ino : Ino} (h : Kept before after ino) (path : Parts) :
    after.plain ino path = before.plain ino path := by
  induction path generalizing ino with
  | nil => rfl
  | cons name path ih =>
      show (after.entry ino name).bind _ = (before.entry ino name).bind _
      rw [entry_congr (h [] ino rfl)]
      cases hentry : before.entry ino name with
      | missing => rfl
      | denied => rfl
      | found child => exact ih fun rest next hnext => h (name :: rest) next ((plain_cons hentry rest).trans hnext)

theorem kept_of_written {fresh child : Ino} {name other : String} {content : ByteArray}
    (hwritten : Written before after root fresh name content) (hroot : (before.node root).isDirectory = true)
    (hentry : before.entry root other = .found child) : Kept before after child := by
  intro path next hnext
  have hwhole : before.plain root (other :: path) = .found next := (plain_cons hentry path).trans hnext
  refine hwritten.others next ?_ (hwritten.unused _ _ hwhole)
  rintro rfl
  exact absurd (height_lt_of_plain (List.cons_ne_nil _ _) hwhole hroot) (lt_irrefl _)

theorem entry_root {fresh : Ino} {name : String} {content : ByteArray} {entries : List (String × Ino)}
    (hwritten : Written before after root fresh name content)
    (hroot : before.node root = .directory true true entries) (other : String) :
    after.entry root other = if other = name then .found fresh else before.entry root other := by
  unfold FileSystem.entry
  rw [hwritten.root_node hroot, hroot]
  dsimp only
  rw [if_pos rfl, if_pos rfl, List.lookup_cons]
  by_cases hname : other = name
  · rw [if_pos hname, beq_iff_eq.mpr hname]
  · rw [if_neg hname, beq_false_of_ne hname, lookup_filter_ne hname]

/-- A tree of an archive with its manifest. -/
structure Tree (kind : InstallKind) (before after : FileSystem Ino ByteArray) (root fresh : Ino)
    (content : ByteArray) : Prop where
  extracted : AllOpen before root
  directory : (before.node root).isDirectory = true
  written : Written before after root fresh kind.manifestName content

variable {fresh : Ino} {content : ByteArray}

namespace Tree

theorem entry_root (h : Tree kind before after root fresh content) (name : String) :
    after.entry root name = if name = kind.manifestName then .found fresh else before.entry root name := by
  rcases h.extracted [] root rfl with ⟨other, mode, hnode⟩ | ⟨entries, hnode⟩
  · have hdir := h.directory
    rw [hnode] at hdir
    cases hdir
  · exact Client.entry_root h.written hnode name

theorem fresh_entry (h : Tree kind before after root fresh content) (name : String) :
    after.entry fresh name = .missing := by
  obtain ⟨mode, hnode⟩ := h.written.fresh_node
  unfold FileSystem.entry
  rw [hnode]

/-- Behind the root a path leads where it led before; the name of the manifest leads to the manifest. -/
theorem plain_eq (h : Tree kind before after root fresh content) (name : String) (path : Parts) :
    after.plain root (name :: path) =
      if name = kind.manifestName then (if path = [] then .found fresh else .missing)
      else before.plain root (name :: path) := by
  show (after.entry root name).bind _ = _
  rw [h.entry_root]
  by_cases hname : name = kind.manifestName
  · rw [if_pos hname, if_pos hname, Resolved.bind_found]
    cases path with
    | nil => rfl
    | cons next path =>
        rw [if_neg (List.cons_ne_nil _ _), FileSystem.plain, h.fresh_entry, Resolved.bind_missing]
  · rw [if_neg hname, if_neg hname]
    show _ = (before.entry root name).bind _
    cases hentry : before.entry root name with
    | missing => rfl
    | denied => rfl
    | found child => exact (kept_of_written h.written h.directory hentry).plain_eq path

/-- What a path of another name leads to is as before. -/
theorem node_eq (h : Tree kind before after root fresh content) {name : String} {path : Parts} {ino : Ino}
    (hplain : before.plain root (name :: path) = .found ino) : after.node ino = before.node ino := by
  obtain ⟨child, hentry, hrest⟩ := Resolved.bind_eq_found.mp hplain
  exact kept_of_written h.written h.directory hentry path ino hrest

theorem allOpen (h : Tree kind before after root fresh content) : AllOpen after root := by
  intro path ino hplain
  cases path with
  | nil =>
      cases hplain
      rcases h.extracted [] root rfl with ⟨other, mode, hnode⟩ | ⟨entries, hnode⟩
      · have hdir := h.directory
        rw [hnode] at hdir
        cases hdir
      · exact .inr ⟨_, h.written.root_node hnode⟩
  | cons name path =>
      rw [h.plain_eq] at hplain
      split at hplain
      · split at hplain
        · cases hplain
          obtain ⟨mode, hnode⟩ := h.written.fresh_node
          exact .inl ⟨content, mode, hnode⟩
        · cases hplain
      · rw [h.node_eq hplain]
        exact h.extracted _ _ hplain

end Tree

/-! ## The inventory in the manifest -/

/-- What `_install_machine_client` and `_install_warm_hol_client` have done when they publish the tree: the archive
is extracted, and the manifest with its inventory is written. -/
structure Installs (sha256 : ByteArray → String) (kind : InstallKind) (identity : ClientIdentity)
    (before after : FileSystem Ino ByteArray) (root fresh : Ino) (content : ByteArray) (files : Json) : Prop where
  tree : Tree kind before after root fresh content
  inventory : frozenFileInventory before sha256 root = .ok files
  text : ∃ text, String.fromUTF8? content = some text ∧
    Json.loads text.toList = some (installDocument kind identity files)

theorem inventoryRow_eq_ok {path : Parts} {row : String × Json} (h : inventoryRow before sha256 root path = .ok row) :
    row.1 = relativeText path ∧ ∃ ino, before.stat root path = .found ino ∧ Holds before sha256 row.2 ino := by
  unfold inventoryRow at h
  simp only [bind_eq_ok] at h
  obtain ⟨⟨content, mode⟩, hread, hrow⟩ := h
  obtain ⟨ino, bits, hstat, hnode, rfl⟩ := readFile_eq_ok.mp hread
  cases hrow
  refine ⟨rfl, ino, hstat, rfl, content, bits, hnode, ?_, ?_⟩
  · rw [Json.get_dict]
    exact Json.equal_self _
  · rw [Json.get_dict]
    exact Json.equal_self _

theorem key_mem_sortFields {rows : List (String × Json)} {key : String} (h : key ∈ rows.map Prod.fst) :
    key ∈ (Json.sortFields rows).map Prod.fst := by
  cases hlookup : (Json.sortFields rows).lookup key with
  | some value => exact List.mem_map_of_mem (mem_of_lookup hlookup)
  | none =>
      rw [Json.lookup_sortFields] at hlookup
      obtain ⟨row, hrow, rfl⟩ := List.mem_map.mp h
      exact absurd (List.mem_reverse.mpr hrow) (lookup_eq_none.mp hlookup row.2)

/-- The inventory has a row for every file that is shown, and no other rows. -/
theorem mem_inventory {files : Json} (h : frozenFileInventory before sha256 root = .ok files) :
    ∃ fields, files = .obj fields ∧
      (∀ row ∈ fields, ∃ path, before.Shown root path ∧ FileAt before root path ∧
        inventoryRow before sha256 root path = .ok row) ∧
      ∀ path, before.Shown root path → FileAt before root path → relativeText path ∈ fields.map Prod.fst := by
  unfold frozenFileInventory at h
  simp only [bind_eq_ok] at h
  obtain ⟨paths, hpaths, rows, hrows, hfiles⟩ := h
  cases hfiles
  obtain ⟨-, hmem⟩ := mem_filesAmong hpaths
  have hforall := mapM_eq_ok.mp hrows
  refine ⟨Json.sortFields rows, rfl, fun row hrow => ?_, fun path hshown hat => ?_⟩
  · obtain ⟨path, hpath, hok⟩ := exists_mem_of_forall₂ hforall.flip (Json.mem_sortFields hrow)
    obtain ⟨hglob, hat⟩ := (hmem path).mp hpath
    exact ⟨path, FileSystem.mem_rglob.mp hglob, hat, hok⟩
  · have hpath : path ∈ paths := (hmem path).mpr ⟨FileSystem.mem_rglob.mpr hshown, hat⟩
    obtain ⟨row, hrow, hok⟩ := exists_mem_of_forall₂ hforall hpath
    rw [← (inventoryRow_eq_ok hok).1]
    exact key_mem_sortFields (List.mem_map_of_mem hrow)

theorem get_installDocument_files (kind : InstallKind) (identity : ClientIdentity) (files : Json) :
    (installDocument kind identity files).get "files" = files := by
  unfold installDocument
  rw [Json.get_dict, List.reverse_append, List.lookup_append]
  rfl

theorem get_installDocument_schema (kind : InstallKind) (identity : ClientIdentity) (files : Json) :
    (installDocument kind identity files).get "schema" = .str kind.schema := by
  unfold installDocument
  rw [Json.get_dict, List.reverse_append, List.lookup_append]
  rfl

theorem FileAt.of_plain {fs : FileSystem Ino ByteArray} {path : Parts} {ino : Ino} (h : AllOpen fs root)
    (hplain : fs.plain root path = .found ino) (hregular : (fs.node ino).isRegular = true) : FileAt fs root path :=
  ⟨ino, (h.stat_eq path).trans hplain, hregular⟩

namespace Installs

variable {identity : ClientIdentity} {files : Json}

/-- The document that the validation reads. -/
theorem read (h : Installs sha256 kind identity before after root fresh content files) :
    ∃ document, readManifest after root [kind.manifestName] = .ok document ∧
      Json.obj document = installDocument kind identity files := by
  obtain ⟨text, htext, hloads⟩ := h.text
  obtain ⟨mode, hnode⟩ := h.tree.written.fresh_node
  have hplain : after.plain root [kind.manifestName] = .found fresh := by
    rw [h.tree.plain_eq, if_pos rfl, if_pos rfl]
  have hread : readFile after root [kind.manifestName] = .ok (content, mode &&& 0o777) :=
    readFile_eq_ok.mpr ⟨fresh, mode, (h.tree.allOpen.stat_eq _).trans hplain, hnode, rfl⟩
  obtain ⟨document, hdocument⟩ : ∃ document, installDocument kind identity files = .obj document := ⟨_, rfl⟩
  have hjson : readJsonStrict content = some document := by
    unfold readJsonStrict
    rw [htext, Option.bind_eq_bind, Option.bind_some, hloads, hdocument]
    rfl
  refine ⟨document, ?_, hdocument.symm⟩
  unfold readManifest
  rw [hread]
  dsimp only
  rw [hjson]

/-- A path whose first name is not the manifest's is shown as before. -/
theorem shown_iff (h : Installs sha256 kind identity before after root fresh content files)
    (hmissing : before.entry root kind.manifestName = .missing) {path : Parts} (hne : path ≠ [kind.manifestName]) :
    after.Shown root path ↔ before.Shown root path := by
  have hplain : ∀ ino, path ≠ [] → (after.plain root path = .found ino ↔ before.plain root path = .found ino) := by
    intro ino hnil
    obtain ⟨name, rest, rfl⟩ := List.exists_cons_of_ne_nil hnil
    rw [h.tree.plain_eq]
    by_cases hname : name = kind.manifestName
    · subst hname
      have hrest : rest ≠ [] := fun heq => hne (heq ▸ rfl)
      rw [if_pos rfl, if_neg hrest, FileSystem.plain, hmissing, Resolved.bind_missing]
    · rw [if_neg hname]
  constructor
  · intro hshown
    obtain ⟨ino, hino⟩ := h.tree.allOpen.plain_of_shown hshown
    exact h.tree.extracted.shown_of_plain hshown.ne_nil ((hplain ino hshown.ne_nil).mp hino)
  · intro hshown
    obtain ⟨ino, hino⟩ := h.tree.extracted.plain_of_shown hshown
    exact h.tree.allOpen.shown_of_plain hshown.ne_nil ((hplain ino hshown.ne_nil).mpr hino)

/-- A file of the archive is the same file in the tree. -/
theorem plain_after (h : Installs sha256 kind identity before after root fresh content files)
    (hmissing : before.entry root kind.manifestName = .missing) {path : Parts} {ino : Ino} (hne : path ≠ [])
    (hplain : before.plain root path = .found ino) :
    after.plain root path = .found ino ∧ after.node ino = before.node ino := by
  obtain ⟨name, rest, rfl⟩ := List.exists_cons_of_ne_nil hne
  have hname : name ≠ kind.manifestName := by
    rintro rfl
    rw [FileSystem.plain, hmissing, Resolved.bind_missing] at hplain
    cases hplain
  rw [h.tree.plain_eq, if_neg hname]
  exact ⟨hplain, h.tree.node_eq hplain⟩

theorem accepted (h : Installs sha256 kind identity before after root fresh content files)
    (hmissing : before.entry root kind.manifestName = .missing) :
    ∃ document expected, Accepted after sha256 kind root document expected := by
  obtain ⟨document, hread, hdocument⟩ := h.read
  obtain ⟨expected, rfl, hrows, hkeys⟩ := mem_inventory h.inventory
  obtain ⟨mode, hnode⟩ := h.tree.written.fresh_node
  have hmanifest : after.plain root [kind.manifestName] = .found fresh := by
    rw [h.tree.plain_eq, if_pos rfl, if_pos rfl]
  have hfound : ∀ path, before.Shown root path → ∃ ino, before.plain root path = .found ino ∧
      before.stat root path = .found ino ∧ after.plain root path = .found ino ∧ after.node ino = before.node ino := by
    intro path hshown
    obtain ⟨ino, hino⟩ := h.tree.extracted.plain_of_shown hshown
    exact ⟨ino, hino, (h.tree.extracted.stat_eq path).trans hino, h.plain_after hmissing hshown.ne_nil hino⟩
  refine ⟨document, expected, .of_plain h.tree.allOpen hmanifest (by rw [hnode]; rfl), hread, ?_, ?_, ?_, ?_, ?_⟩
  · rw [hdocument, get_installDocument_schema]
    exact Json.equal_self _
  · rw [hdocument, get_installDocument_files]
  · intro path hshown
    obtain ⟨ino, hino⟩ := h.tree.allOpen.plain_of_shown hshown
    rw [h.tree.allOpen.stat_eq, hino]
    nofun
  · intro text
    constructor
    · intro htext
      obtain ⟨row, hrow, rfl⟩ := List.mem_map.mp htext
      obtain ⟨path, hshown, ⟨file, hfile, hregular⟩, hok⟩ := hrows row hrow
      obtain ⟨ino, hplain, hstat, hafter, hsame⟩ := hfound path hshown
      have hne : path ≠ [kind.manifestName] := by
        rintro rfl
        rw [FileSystem.plain, hmissing, Resolved.bind_missing] at hplain
        cases hplain
      rw [hstat] at hfile
      cases hfile
      exact ⟨path, (h.shown_iff hmissing hne).mpr hshown, hne,
        .of_plain h.tree.allOpen hafter (by rw [hsame]; exact hregular), (inventoryRow_eq_ok hok).1.symm⟩
    · rintro ⟨path, hshown, hne, ⟨file, hfile, hregular⟩, rfl⟩
      have hbefore := (h.shown_iff hmissing hne).mp hshown
      obtain ⟨ino, hplain, -, hafter, hsame⟩ := hfound path hbefore
      rw [h.tree.allOpen.stat_eq, hafter] at hfile
      cases hfile
      exact hkeys path hbefore (.of_plain h.tree.extracted hplain (by rw [← hsame]; exact hregular))
  · intro row hrow
    obtain ⟨path, hshown, -, hok⟩ := hrows row hrow
    obtain ⟨ino, -, hstat, hafter, hsame⟩ := hfound path hshown
    obtain ⟨htext, file, hfile, hdict, bytes, bits, hbytes, hsha, hmode⟩ := inventoryRow_eq_ok hok
    rw [hstat] at hfile
    cases hfile
    rw [show row = (relativeText path, row.2) from Prod.ext htext rfl]
    exact checkRow_of_holds hshown.spelled hshown.ne_nil hafter ⟨hdict, bytes, bits, hsame ▸ hbytes, hsha, hmode⟩

/-- The tree of the installer is accepted unless the archive holds the manifest's name. -/
theorem validate_iff (h : Installs sha256 kind identity before after root fresh content files) :
    (∃ document, validateFrozenClientCandidate after sha256 kind root = .ok document) ↔
      before.entry root kind.manifestName = .missing := by
  constructor
  · rintro ⟨document, hvalidate⟩
    obtain ⟨expected, haccepted⟩ := accepted_of_validate hvalidate
    obtain ⟨read, hread, hdocument⟩ := h.read
    rw [haccepted.manifest_read] at hread
    cases hread
    have hfiles := haccepted.files
    rw [hdocument, get_installDocument_files] at hfiles
    obtain ⟨fields, rfl, -, hkeys⟩ := mem_inventory h.inventory
    cases hfiles
    by_contra hentry
    obtain ⟨child, hchild⟩ : ∃ child, before.entry root kind.manifestName = .found child := by
      cases hplace : before.entry root kind.manifestName with
      | missing => exact absurd hplace hentry
      | found child => exact ⟨child, rfl⟩
      | denied =>
          rcases h.tree.extracted [] root rfl with ⟨other, mode, hnode⟩ | ⟨entries, hnode⟩ <;>
            unfold FileSystem.entry at hplace <;> rw [hnode] at hplace
          · cases hplace
          · dsimp only at hplace
            rw [if_pos rfl] at hplace
            split at hplace <;> cases hplace
    have hplain : before.plain root [kind.manifestName] = .found child := plain_cons hchild []
    have hkey := hkeys [kind.manifestName] (h.tree.extracted.shown_of_plain (List.cons_ne_nil _ _) hplain)
      (.of_plain h.tree.extracted hplain (h.tree.written.replaced child hchild))
    obtain ⟨path, hshown, hne, -, htext⟩ := (haccepted.covered _).mp hkey
    refine hne ?_
    rw [← partsOf_relativeText hshown.spelled, htext,
      partsOf_relativeText (List.forall_mem_singleton.mpr kind.component)]
  · intro hmissing
    obtain ⟨document, expected, haccepted⟩ := h.accepted hmissing
    exact ⟨document, validate_of_accepted haccepted⟩

end Installs

/-- The manifest of a client without files. -/
def emptyDocument : Json :=
  installDocument machineClient ⟨"/client", "/checkout", "0", "main", "origin/main", "url"⟩ (Json.dict [])

def emptyManifest : ByteArray :=
  (String.ofList (Json.render emptyDocument)).toUTF8

theorem fromUTF8_toUTF8 (text : String) : String.fromUTF8? text.toUTF8 = some text :=
  dif_pos text.isValidUTF8

theorem loads_emptyManifest : ∃ text, String.fromUTF8? emptyManifest = some text ∧
    Json.loads text.toList = some emptyDocument := by
  refine ⟨_, fromUTF8_toUTF8 _, ?_⟩
  rw [String.toList_ofList]
  refine Json.loads_render (Json.canonical_dict fun field hfield => ?_)
  simp only [machineClient, Bool.false_eq_true, if_false, List.nil_append, List.mem_cons, List.not_mem_nil,
    or_false] at hfield
  rcases hfield with rfl | rfl | rfl | rfl | rfl | rfl | rfl | rfl
  any_goals exact Json.canonical_str _
  exact Json.canonical_dict fun _ hmem => absurd hmem List.not_mem_nil

/-- A client without files: the directory 0, with the manifest 1 when it is written. -/
def emptyClient (written : Bool) : FileSystem ℕ ByteArray where
  node
    | 0 => .directory true true (if written then [(machineClient.manifestName, 1)] else [])
    | _ => .regular true emptyManifest 0o644
  follow := fun _ => .missing
  height := fun _ => 0
  follow_end := nofun
  names := by
    intro dir listable searchable entries h
    split at h <;> cases h
    cases written <;> decide
  spelled := by
    intro dir listable searchable entries h
    split at h <;> cases h
    cases written <;> decide
  height_lt := by
    intro dir listable searchable entries h
    split at h <;> cases h
    cases written <;> simp [Node.isDirectory]

theorem plain_emptyClient {path : Parts} {ino : ℕ} (h : (emptyClient false).plain 0 path = .found ino) :
    path = [] ∧ ino = 0 := by
  cases path with
  | nil =>
      cases h
      exact ⟨rfl, rfl⟩
  | cons name path =>
      obtain ⟨child, hentry, -⟩ := Resolved.bind_eq_found.mp h
      cases hentry

theorem emptyClient_installs :
    Installs (fun _ => "") machineClient ⟨"/client", "/checkout", "0", "main", "origin/main", "url"⟩
      (emptyClient false) (emptyClient true) 0 1 emptyManifest (Json.dict []) := by
  refine ⟨⟨fun path ino hplain => ?_, rfl, ⟨0o644, rfl⟩, ?_, ?_, ?_, ?_⟩, rfl, loads_emptyManifest⟩
  · obtain ⟨rfl, rfl⟩ := plain_emptyClient hplain
    exact .inr ⟨[], rfl⟩
  · intro entries h
    cases h
    rfl
  · intro ino hroot _
    obtain ⟨ino, rfl⟩ := Nat.exists_eq_succ_of_ne_zero hroot
    rfl
  · intro path ino hplain
    obtain ⟨-, rfl⟩ := plain_emptyClient hplain
    exact Nat.zero_ne_one
  · intro child hentry
    cases hentry

/-- A client without files that has a link to a directory with a module. -/
def linkedClient : FileSystem ℕ ByteArray where
  node
    | 0 => .directory true true [(machineClient.manifestName, 1), ("extra", 2)]
    | 1 => .regular true emptyManifest 0o644
    | 2 => .link
    | 3 => .directory true true [("evil.py", 4)]
    | _ => .regular true ByteArray.empty 0o644
  follow
    | 2 => .found 3
    | _ => .missing
  height
    | 0 => 1
    | _ => 0
  follow_end := by
    intro ino next h
    split at h
    · cases h
      rfl
    · cases h
  names := by
    intro dir listable searchable entries h
    split at h <;> cases h <;> decide
  spelled := by
    intro dir listable searchable entries h
    split at h <;> cases h <;> decide
  height_lt := by
    intro dir listable searchable entries h
    split at h <;> cases h <;> simp [Node.isDirectory]

theorem readManifest_linkedClient : ∃ document,
    readManifest linkedClient 0 [machineClient.manifestName] = .ok document ∧ Json.obj document = emptyDocument := by
  obtain ⟨text, htext, hloads⟩ := loads_emptyManifest
  obtain ⟨document, hdocument⟩ : ∃ document, emptyDocument = .obj document := ⟨_, rfl⟩
  have hread : readFile linkedClient 0 [machineClient.manifestName] = .ok (emptyManifest, 0o644 &&& 0o777) :=
    readFile_eq_ok.mpr ⟨1, 0o644, by decide, rfl, rfl⟩
  have hjson : readJsonStrict emptyManifest = some document := by
    unfold readJsonStrict
    rw [htext, Option.bind_eq_bind, Option.bind_some, hloads, hdocument]
    rfl
  refine ⟨document, ?_, hdocument.symm⟩
  unfold readManifest
  rw [hread]
  dsimp only
  rw [hjson]

theorem shown_linkedClient {path : Parts} (h : linkedClient.Shown 0 path) :
    path = [machineClient.manifestName] ∨ path = ["extra"] := by
  have hmem := FileSystem.mem_rglob.mpr h
  have hglob : linkedClient.rglob 0 = [[machineClient.manifestName], ["extra"]] := rfl
  rw [hglob] at hmem
  simpa using hmem

end Hearth.Client
