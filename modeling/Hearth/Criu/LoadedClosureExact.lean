import Hearth.Criu.LoadedClosureResolved
import Hearth.Diagnostics.Text
import Mathlib.Algebra.BigOperators.Group.List.Lemmas
import Mathlib.Algebra.BigOperators.Ring.Finset

/-!
# A resolved closure and its files

A resolved closure is valid while its files are as they were.  A document under the same strict digest is valid only
if it says the same of its entries and their files are the same.
-/

namespace Hearth.Criu.Loaded

open Hearth.Library
open Hearth.Library.RawPath (relativeText absoluteText ofString_absoluteText)

variable {world : World} {holdir : Parts} {records : List LoaderRecord} {candidates : List Candidate}
  {entries : List Json}

/-- A candidate with the name and the digest of the record. -/
def Resolves (world : World) (candidates : List Candidate) (record : LoaderRecord) (path : Parts) : Prop :=
  path ∈ pathsOf candidates record.basename ∧ Matches world.toFiles world.md5 record.loaderMd5 path

/-- The file of a path is the same. -/
structure SameAt (files other : Files) (path : Parts) : Prop where
  isFile : other.isFile path = files.isFile path
  read : other.read path = files.read path
  resolve : other.resolve path = files.resolve path

/-- The same system with other files. -/
def World.withFiles (world : World) (files : Files) : World :=
  { world with toFiles := files }

/-- The entries of a resolution, one for each record in order. -/
def Resolution (world : World) (holdir : Parts) (candidates : List Candidate) (records : List LoaderRecord)
    (entries : List Json) : Prop :=
  List.Forall₂ (fun record entry => resolveRecord world holdir candidates records record = .ok entry)
    (sortRecords records.dedup) entries

theorem resolve_eq_ok {given : GivenPath} {inputs : List SemanticInput} {closure : Json}
    (h : resolveLoadedClosure world records given inputs = .ok closure) :
    records ≠ [] ∧ ∃ candidates entries,
      candidateMap world (world.lexicalAbsolute given) (records.map LoaderRecord.basename) inputs = .ok candidates ∧
        Resolution world (world.lexicalAbsolute given) candidates records entries ∧
        closure = closureOf world records entries := by
  unfold resolveLoadedClosure at h
  simp only [bind_eq_ok, guard_eq_ok] at h
  obtain ⟨hne, directory, -, -, candidates, hcandidates, entries, hentries, hclosure⟩ := h
  cases hclosure
  exact ⟨hne, candidates, entries, hcandidates, mapM_eq_ok.mp hentries, rfl⟩

/-! ## Records in order -/

theorem sortRecords_perm (records : List LoaderRecord) : (sortRecords records).Perm records :=
  List.perm_insertionSort _ _

theorem mem_sortRecords {record : LoaderRecord} : record ∈ sortRecords records.dedup ↔ record ∈ records := by
  rw [(sortRecords_perm _).mem_iff, List.mem_dedup]

theorem sum_counts (records : List LoaderRecord) :
    ((sortRecords records.dedup).map fun record => (records.count record : ℤ)).sum = records.length := by
  rw [((sortRecords_perm records.dedup).map _).sum_eq]
  have hsum := List.sum_map_count_dedup_eq_length records
  calc (records.dedup.map fun record => (records.count record : ℤ)).sum
      = ((records.dedup.map fun record => records.count record).sum : ℕ) := by
        rw [Nat.cast_list_sum, List.map_map]
        rfl
    _ = records.length := congrArg _ hsum

/-! ## The entries of a resolution -/

section Document

variable (world records entries)

theorem get_closureOf_schema :
    (closureOf world records entries).get "schema" = .str "hol-workbench.loaded-closure.v1" :=
  (Json.get_dict _ _).trans rfl

theorem get_closureOf_entries : (closureOf world records entries).get "entries" = .arr entries :=
  (Json.get_dict _ _).trans rfl

theorem get_closureOf_recordCount : (closureOf world records entries).get "record_count" = .int records.length :=
  (Json.get_dict _ _).trans rfl

theorem get_closureOf_uniqueCount :
    (closureOf world records entries).get "unique_record_count" = .int entries.length :=
  (Json.get_dict _ _).trans rfl

theorem get_closureOf_digest :
    (closureOf world records entries).get "strict_sha256" =
      .str (canonicalDigest world (.arr (entries.map (Json.pick strictKeys)))) :=
  (Json.get_dict _ _).trans rfl

end Document

theorem occurrencesOf_entry {record : LoaderRecord} {entry : Json}
    (h : resolveRecord world holdir candidates records record = .ok entry) :
    occurrencesOf entry = records.count record := by
  obtain ⟨path, content, resolved, -, -, -, rfl⟩ := resolveRecord_eq_ok h
  unfold occurrencesOf
  rw [get_entryOf_occurrences]

theorem loaderKey_entry {record : LoaderRecord} {entry : Json} (other : World)
    (h : resolveRecord world holdir candidates records record = .ok entry) :
    loaderKey other entry = (record.basename, record.loaderMd5) := by
  obtain ⟨path, content, resolved, -, -, -, rfl⟩ := resolveRecord_eq_ok h
  exact Prod.ext (textOf_str get_entryOf_basename) (textOf_str get_entryOf_loaderMd5)

theorem Resolution.map_eq {β : Type} {f : Json → β} {g : LoaderRecord → β}
    (h : Resolution world holdir candidates records entries)
    (hfg : ∀ record entry, resolveRecord world holdir candidates records record = .ok entry → f entry = g record) :
    entries.map f = (sortRecords records.dedup).map g := by
  unfold Resolution at h
  generalize sortRecords records.dedup = sorted at h
  induction h with
  | nil => rfl
  | cons hentry _ ih => rw [List.map_cons, List.map_cons, hfg _ _ hentry, ih]

/-- The entry of a record is valid while its file is the same. -/
theorem valid_entry {record : LoaderRecord} {entry : Json} {files : Files}
    (hcandidates : ∀ candidate ∈ candidates, Absolute candidate.path ∧ nameOf candidate.path = candidate.name)
    (hrecord : record ∈ records) (h : resolveRecord world holdir candidates records record = .ok entry)
    (hsame : ∀ path, Resolves world candidates record path → SameAt world.toFiles files path) :
    Valid (world.withFiles files) holdir entry := by
  obtain ⟨path, content, resolved, hone, hread, hresolve, rfl⟩ := resolveRecord_eq_ok h
  have hmatch : Resolves world candidates record path := (hone path).mpr rfl
  obtain ⟨candidate, hmem, hname, rfl⟩ := mem_pathsOf.mp hmatch.1
  obtain ⟨habsolute, hnamed⟩ := hcandidates candidate hmem
  obtain ⟨hfile, found, hfound, hmd5⟩ := hmatch.2
  rw [hread] at hfound
  cases hfound
  have hfiles := hsame _ hmatch
  refine ⟨entryOf_isDict, ⟨records.count record, ?_, get_entryOf_occurrences⟩, ?_, fun key hkey => field_entryOf hkey⟩
  · have hpositive : 0 < records.count record := List.count_pos_iff.mpr hrecord
    omega
  · refine ⟨candidate.path, content, resolved, entryPath_of_stored habsolute get_entryOf_pathKind get_entryOf_path,
      ?_, hfiles.isFile.trans hfile, hfiles.read.trans hread, ?_, get_entryOf_sha256, hfiles.resolve.trans hresolve,
      get_entryOf_resolvedPath⟩
    · rw [get_entryOf_basename, hnamed, hname]
    · rw [get_entryOf_loaderMd5, ← hmd5]
      rfl

/-! ## The same document -/

/-- Documents that agree in the hashed fields of their entries. -/
def SameEntries (one other : List Json) : Prop :=
  List.Forall₂ (fun entry entry' => ∀ key ∈ strictKeys, Json.Same (entry.get key) (entry'.get key)) one other

/-- The strict digest determines the hashed fields. -/
theorem sameEntries_of_digest (hinjective : Function.Injective world.sha256) {one other : List Json}
    (h : canonicalDigest world (.arr (one.map (Json.pick strictKeys))) =
      canonicalDigest world (.arr (other.map (Json.pick strictKeys)))) : SameEntries one other := by
  have hbytes := hinjective h
  rw [String.toUTF8_eq_toByteArray, String.toUTF8_eq_toByteArray, String.toByteArray_inj] at hbytes
  have htext := congrArg String.toList hbytes
  rw [String.toList_ofList, String.toList_ofList] at htext
  have hitems := Json.Same.items (Json.same_of_dumps htext)
  rw [List.forall₂_map_left_iff, List.forall₂_map_right_iff] at hitems
  refine hitems.imp ?_
  intro entry entry' hpick key hkey
  exact hpick.of_pick hkey

theorem eq_of_same_str {value : String} {other : Json} (h : Json.Same (.str value) other) : other = .str value := by
  unfold Json.Same at h
  rw [Json.canonical_str] at h
  cases other with
  | str text => rw [Json.canonical_str] at h; exact h.symm
  | null => rw [Json.canonical_null] at h; cases h
  | bool value => rw [Json.canonical_bool] at h; cases h
  | int value => rw [Json.canonical_int] at h; cases h
  | arr items => rw [Json.canonical_arr] at h; cases h
  | obj fields => rw [Json.canonical_obj] at h; cases h

/-- A valid entry that says the same has found the same file. -/
theorem sameAt_of_valid (hinjective : Function.Injective world.sha256) {record : LoaderRecord} {entry other : Json}
    {files : Files} {path : Parts}
    (hcandidates : ∀ candidate ∈ candidates, Absolute candidate.path ∧ nameOf candidate.path = candidate.name)
    (h : resolveRecord world holdir candidates records record = .ok entry)
    (hsame : ∀ key ∈ strictKeys, Json.Same (entry.get key) (other.get key))
    (hvalid : Valid (world.withFiles files) holdir other) (hpath : Resolves world candidates record path) :
    SameAt world.toFiles files path := by
  obtain ⟨found, content, resolved, hone, hread, hresolve, rfl⟩ := resolveRecord_eq_ok h
  obtain rfl := (hone path).mp hpath
  obtain ⟨candidate, hmem, -, rfl⟩ := mem_pathsOf.mp hpath.1
  have hfield : ∀ {key value}, key ∈ strictKeys → (entryOf world record (records.count record)
      (storedPathIdentity candidate.path holdir) resolved (rolesOf candidates record.basename candidate.path)
        content).get key = .str value → other.get key = .str value := by
    intro key value hkey hget
    exact eq_of_same_str (hget ▸ hsame key hkey)
  obtain ⟨path', content', resolved', hentry, -, hfile', hread', -, hsha', hresolve', htext'⟩ := hvalid.file
  have hstored : loadedClosureEntryPath (world.withFiles files) other holdir = .ok candidate.path :=
    entryPath_of_stored (hcandidates candidate hmem).1 (hfield (by decide) get_entryOf_pathKind)
      (hfield (by decide) get_entryOf_path)
  rw [hstored] at hentry
  cases hentry
  rw [hfield (by decide) get_entryOf_sha256] at hsha'
  rw [hfield (by decide) get_entryOf_resolvedPath] at htext'
  have hcontent : content = content' := hinjective (Json.str.inj hsha')
  have hresolved : resolved = resolved' := by
    have hone := ofString_absoluteText (world.resolve_spelled _ _ hresolve)
    have hother := ofString_absoluteText (files.resolve_spelled _ _ hresolve')
    rw [Json.str.inj htext', hother] at hone
    exact (congrArg RawPath.parts hone).symm
  refine ⟨hfile'.trans hpath.2.1.symm, ?_, ?_⟩
  · rw [hread, hcontent]
    exact hread'
  · rw [hresolve, hresolved]
    exact hresolve'

theorem canonical_closureOf (h : Resolution world holdir candidates records entries) :
    Json.Canonical (closureOf world records entries) := by
  have hentries : Json.Canonical (.arr entries) := by
    refine Json.canonical_items fun entry hentry => ?_
    obtain ⟨record, -, hok⟩ := exists_mem_of_forall₂ (List.Forall₂.flip h) hentry
    obtain ⟨path, content, resolved, -, -, -, rfl⟩ := resolveRecord_eq_ok hok
    have hroles : Json.Canonical (.arr ((rolesOf candidates record.basename path).map .str)) := by
      refine Json.canonical_items fun role hrole => ?_
      obtain ⟨text, -, rfl⟩ := List.mem_map.mp hrole
      exact Json.canonical_str text
    refine Json.canonical_dict fun field hfield => ?_
    simp only [List.mem_cons, List.not_mem_nil, or_false] at hfield
    rcases hfield with rfl | rfl | rfl | rfl | rfl | rfl | rfl | rfl | rfl
    any_goals first | exact Json.canonical_str _ | exact Json.canonical_int _
    exact hroles
  refine Json.canonical_dict fun field hfield => ?_
  simp only [List.mem_cons, List.not_mem_nil, or_false] at hfield
  rcases hfield with rfl | rfl | rfl | rfl | rfl | rfl
  any_goals first | exact Json.canonical_str _ | exact Json.canonical_int _
  exact hentries

/-- A resolved closure.  Each record has one path among the candidates, and the occurrences sum to the number of
records; the closure is valid, also when it is written and read, while the files of these paths are the same; and a
document under its strict digest that is valid says the same in every hashed field, of files that are the same. -/
theorem resolveLoadedClosure_exact {given : GivenPath} {inputs : List SemanticInput} {closure : Json}
    (h : resolveLoadedClosure world records given inputs = .ok closure) :
    ∃ candidates entries,
      candidateMap world (world.lexicalAbsolute given) (records.map LoaderRecord.basename) inputs = .ok candidates ∧
      closure.get "entries" = .arr entries ∧
      (∀ record ∈ records, ∃! path, Resolves world candidates record path) ∧
      (entries.map occurrencesOf).sum = records.length ∧
      (∀ files, (∀ record ∈ records, ∀ path, Resolves world candidates record path → SameAt world.toFiles files path) →
        validateLoadedClosure (world.withFiles files) closure given = .ok [] ∧
        ∀ document, Json.loads (Json.dumps closure) = some document →
          validateLoadedClosure (world.withFiles files) document given = .ok []) ∧
      (Function.Injective world.sha256 → ∀ files document,
        document.get "strict_sha256" = closure.get "strict_sha256" →
        validateLoadedClosure (world.withFiles files) document given = .ok [] →
          (∃ others, document.get "entries" = .arr others ∧ SameEntries entries others) ∧
          ∀ record ∈ records, ∀ path, Resolves world candidates record path → SameAt world.toFiles files path) := by
  obtain ⟨hne, candidates, entries, hmap, hentries, rfl⟩ := resolve_eq_ok h
  have hcandidates : ∀ candidate ∈ candidates, Absolute candidate.path ∧ nameOf candidate.path = candidate.name :=
    fun candidate hmem => candidateMap_absolute (absolute_lexicalAbsolute world given) hmap hmem
  have hsum : (entries.map occurrencesOf).sum = records.length := by
    rw [hentries.map_eq fun record entry => occurrencesOf_entry]
    exact sum_counts records
  have hrecord : ∀ record ∈ records, ∃ entry ∈ entries,
      resolveRecord world (world.lexicalAbsolute given) candidates records record = .ok entry :=
    fun record hmem => exists_mem_of_forall₂ hentries (mem_sortRecords.mpr hmem)
  have hentry : ∀ entry ∈ entries, ∃ record ∈ records,
      resolveRecord world (world.lexicalAbsolute given) candidates records record = .ok entry := by
    intro entry hmem
    obtain ⟨record, hsorted, hok⟩ := exists_mem_of_forall₂ hentries.flip hmem
    exact ⟨record, mem_sortRecords.mp hsorted, hok⟩
  have hvalid : ∀ files, (∀ record ∈ records, ∀ path, Resolves world candidates record path →
      SameAt world.toFiles files path) →
        validateLoadedClosure (world.withFiles files) (closureOf world records entries) given = .ok [] := by
    intro files hsame
    refine validate_iff.mpr ⟨entries, get_closureOf_schema .., get_closureOf_entries .., ?_, ⟨?_, ?_⟩, ?_, ?_,
      get_closureOf_digest ..⟩
    · obtain ⟨record, hmem⟩ := List.exists_mem_of_ne_nil records hne
      obtain ⟨entry, hentry, -⟩ := hrecord record hmem
      exact List.ne_nil_of_mem hentry
    · intro entry hmem
      obtain ⟨record, hrecord, hok⟩ := hentry entry hmem
      exact ⟨valid_entry hcandidates hrecord hok (hsame record hrecord), List.not_mem_nil⟩
    · rw [hentries.map_eq fun record entry => loaderKey_entry (world.withFiles files)]
      refine List.Nodup.map ?_ ((sortRecords_perm _).nodup_iff.mpr (List.nodup_dedup records))
      intro one other heq
      cases one
      cases other
      cases heq
      rfl
    · rw [get_closureOf_recordCount, hsum]
      exact Json.equal_self _
    · rw [get_closureOf_uniqueCount]
      exact Json.equal_self _
  refine ⟨candidates, entries, hmap, get_closureOf_entries .., ?_, hsum, ?_, ?_⟩
  · intro record hmem
    obtain ⟨entry, -, hok⟩ := hrecord record hmem
    obtain ⟨path, content, resolved, hone, -⟩ := resolveRecord_eq_ok hok
    exact ⟨path, (hone path).mpr rfl, fun other hother => (hone other).mp hother⟩
  · intro files hsame
    refine ⟨hvalid files hsame, fun document hread => ?_⟩
    have hcanonical : Json.Canonical (closureOf world records entries) := canonical_closureOf hentries
    rw [Json.dumps, hcanonical, Json.loads_render hcanonical] at hread
    cases hread
    exact hvalid files hsame
  · intro hinjective files document hdigest hdocument
    obtain ⟨others, hsound⟩ := validate_iff.mp hdocument
    rw [hsound.digest, get_closureOf_digest] at hdigest
    have hsame : SameEntries entries others := sameEntries_of_digest hinjective (Json.str.inj hdigest).symm
    refine ⟨⟨others, hsound.entries_eq, hsame⟩, fun record hmem path hpath => ?_⟩
    have hboth : List.Forall₂ (fun record other => ∃ entry,
        resolveRecord world (world.lexicalAbsolute given) candidates records record = .ok entry ∧
          ∀ key ∈ strictKeys, Json.Same (entry.get key) (other.get key)) (sortRecords records.dedup) others :=
      forall₂_trans (fun _ entry _ hok hfields => ⟨entry, hok, hfields⟩) hentries hsame
    obtain ⟨other, hother, entry, hok, hfields⟩ := exists_mem_of_forall₂ hboth (mem_sortRecords.mpr hmem)
    exact sameAt_of_valid hinjective hcandidates hok hfields (hsound.valid.1 other hother).1 hpath

/-! ## One file -/

/-- A directory with one file, and a place that may not be searched. -/
def oneFile : Files where
  isDir := fun path => .ok (path = ["hol"])
  isFile := fun path => if path = ["locked", "a.ml"] then .error .os else .ok (path = ["hol", "a.ml"])
  walk := fun top => if top = ["hol"] then [(["hol"], ["a.ml"])] else []
  read := fun path => if path = ["hol", "a.ml"] then some ByteArray.empty else none
  resolve := fun path => if path = ["hol", "a.ml"] then some path else none
  walk_beneath := by
    intro top row hrow
    split at hrow
    · rename_i htop
      rw [List.mem_singleton.mp hrow, htop]
      exact ⟨[], rfl, by decide, by decide⟩
    · exact absurd hrow List.not_mem_nil
  resolve_spelled := by
    intro path resolved h
    split at h
    · rename_i hpath
      cases h
      rw [hpath]
      decide
    · cases h

/-- The digest of a file without bytes is its MD5; the stand-in for SHA-256 writes the bytes out. -/
def oneFileWorld : World where
  toFiles := oneFile
  expanduser := id
  cwd := ⟨⟨.root, []⟩, by decide⟩
  md5 := fun _ => "d41d8cd98f00b204e9800998ecf8427e"
  sha256 := fun bytes => String.ofList (Diagnostics.hex bytes.data.toList)
  text := fun
    | .str value => value
    | _ => ""
  text_str := fun _ => rfl

def holDirectory : GivenPath :=
  ⟨⟨.root, ["hol"]⟩, by decide⟩

def recordA : LoaderRecord :=
  ⟨"a.ml", "d41d8cd98f00b204e9800998ecf8427e"⟩

def entryA : Json :=
  entryOf oneFileWorld recordA 1 ("holdir_relative", "a.ml") ["hol", "a.ml"] ["holdir"] ByteArray.empty

theorem resolve_oneFile :
    resolveLoadedClosure oneFileWorld [recordA] holDirectory [] = .ok (closureOf oneFileWorld [recordA] [entryA]) := by
  rfl

theorem injective_oneFileWorld : Function.Injective oneFileWorld.sha256 := by
  intro one other h
  have hhex := congrArg (fun text => Diagnostics.fromHex (String.toList text)) h
  simp only [oneFileWorld, String.toList_ofList, Diagnostics.fromHex_hex, Option.some.injEq] at hhex
  exact ByteArray.ext (Array.toList_inj.mp hhex)

theorem resolveLoadedClosure_oneFile : ∃ candidates entries,
    candidateMap oneFileWorld ["hol"] ["a.ml"] [] = .ok candidates ∧
    (closureOf oneFileWorld [recordA] [entryA]).get "entries" = .arr entries ∧
    ∃! path, Resolves oneFileWorld candidates recordA path := by
  obtain ⟨candidates, entries, hmap, hentries, hone, -⟩ := resolveLoadedClosure_exact resolve_oneFile
  exact ⟨candidates, entries, hmap, hentries, hone recordA List.mem_cons_self⟩

/-- The entry with its path moved to a place that may not be searched, under the old strict digest. -/
def movedDocument : Json :=
  (closureOf oneFileWorld [recordA] [entryA]).extend
    [("entries", .arr [entryA.extend [("path_kind", .str "absolute"), ("path", .str "/locked/a.ml")]])]

/-- No list of failures is returned for the moved entry: the error of `is_file` is not caught. -/
theorem movedDocument_raises :
    Function.Injective oneFileWorld.sha256 ∧
      resolveLoadedClosure oneFileWorld [recordA] holDirectory [] = .ok (closureOf oneFileWorld [recordA] [entryA]) ∧
      movedDocument.get "strict_sha256" = (closureOf oneFileWorld [recordA] [entryA]).get "strict_sha256" ∧
      validateLoadedClosure oneFileWorld movedDocument holDirectory = .error .os := by
  refine ⟨injective_oneFileWorld, resolve_oneFile, ?_, ?_⟩
  · unfold movedDocument closureOf
    rw [Json.extend_dict, Json.get_dict, Json.get_dict]
    rfl
  · rfl

end Hearth.Criu.Loaded
