import Hearth.Criu.LoadedClosureFacts
import Mathlib.Data.List.Dedup

/-!
# What is resolved

A record is resolved to the one candidate that has its name and its digest, and the entry that is written names this
candidate so that the validation finds it again.
-/

namespace Hearth.Criu.Loaded

open Hearth.Library
open Hearth.Library.RawPath (relativeText absoluteText ofString_absoluteText ofString_relativeText
  relativeText_ne_empty)

variable {world : World} {holdir : Parts}

/-! ## Candidates -/

/-- A file of the digest. -/
def Matches (files : Files) (md5 : ByteArray → String) (loaderMd5 : String) (path : Parts) : Prop :=
  files.isFile path = .ok true ∧ ∃ content, files.read path = some content ∧ md5 content = loaderMd5

theorem matching_eq_ok {loaderMd5 : String} {paths out : List Parts} (h : matching world loaderMd5 paths = .ok out) :
    out.Sublist paths ∧ ∀ path, path ∈ out ↔ path ∈ paths ∧ Matches world.toFiles world.md5 loaderMd5 path := by
  induction paths generalizing out with
  | nil =>
      cases h
      exact ⟨.slnil, fun _ => ⟨fun hmem => absurd hmem List.not_mem_nil, And.left⟩⟩
  | cons path paths ih =>
      obtain ⟨file, hfile, h⟩ := bind_eq_ok.mp h
      cases file with
      | false =>
          obtain ⟨hsub, hmem⟩ := ih h
          refine ⟨hsub.cons path, fun other => ?_⟩
          rw [hmem, List.mem_cons]
          refine ⟨fun hother => ⟨.inr hother.1, hother.2⟩, ?_⟩
          rintro ⟨rfl | hother, hmatches⟩
          · rw [hmatches.1] at hfile
            cases hfile
          · exact ⟨hother, hmatches⟩
      | true =>
          rw [if_neg (by decide)] at h
          split at h
          · cases h
          rename_i content hread
          obtain ⟨rest, hrest, h⟩ := bind_eq_ok.mp h
          obtain ⟨hsub, hmem⟩ := ih hrest
          cases h
          by_cases hmd5 : world.md5 content = loaderMd5
          · rw [if_pos hmd5]
            refine ⟨hsub.cons_cons path, fun other => ?_⟩
            rw [List.mem_cons, List.mem_cons, hmem]
            constructor
            · rintro (rfl | hother)
              · exact ⟨.inl rfl, hfile, content, hread, hmd5⟩
              · exact ⟨.inr hother.1, hother.2⟩
            · rintro ⟨rfl | hother, hmatches⟩
              · exact .inl rfl
              · exact .inr ⟨hother, hmatches⟩
          · rw [if_neg hmd5]
            refine ⟨hsub.cons path, fun other => ?_⟩
            rw [List.mem_cons, hmem]
            refine ⟨fun hother => ⟨.inr hother.1, hother.2⟩, ?_⟩
            rintro ⟨rfl | hother, hisFile, found, hfound, hfoundMd5⟩
            · rw [hread] at hfound
              cases hfound
              exact absurd hfoundMd5 hmd5
            · exact ⟨hother, hisFile, found, hfound, hfoundMd5⟩

/-- The record has one match among the candidates of its name, and its entry describes it. -/
theorem resolveRecord_eq_ok {candidates : List Candidate} {records : List LoaderRecord} {record : LoaderRecord}
    {entry : Json} (h : resolveRecord world holdir candidates records record = .ok entry) :
    ∃ path content resolved,
      (∀ other, other ∈ pathsOf candidates record.basename ∧
        Matches world.toFiles world.md5 record.loaderMd5 other ↔ other = path) ∧
      world.read path = some content ∧ world.resolve path = some resolved ∧
      entry = entryOf world record (records.count record) (storedPathIdentity path holdir) resolved
        (rolesOf candidates record.basename path) content := by
  obtain ⟨paths, hpaths, h⟩ := bind_eq_ok.mp h
  obtain ⟨-, hmem⟩ := matching_eq_ok hpaths
  split at h
  · cases h
  · rename_i path
    have hone : ∀ other, other ∈ pathsOf candidates record.basename ∧
        Matches world.toFiles world.md5 record.loaderMd5 other ↔ other = path := by
      intro other
      rw [← hmem, List.mem_singleton]
    split at h
    · cases h
    · cases h
    · rename_i content resolved hread hresolve
      cases h
      exact ⟨path, content, resolved, hone, hread, hresolve, rfl⟩
  · cases h

/-- A path as the candidates have them. -/
def Absolute (path : Parts) : Prop :=
  Parts.Clean path ∧ Parts.Spelled path

theorem absolute_lexicalAbsolute (world : World) (path : GivenPath) : Absolute (world.lexicalAbsolute path) := by
  refine ⟨Parts.abspath_isClean _, Parts.Spelled.abspath ?_⟩
  split
  · exact (world.expanduser path).spelled
  · exact world.cwd.spelled.append (world.expanduser path).spelled

theorem nameOf_append (path : Parts) (name : String) : nameOf (path ++ [name]) = name := by
  unfold nameOf
  rw [List.getLast?_concat]
  rfl

theorem candidatesBeneath_absolute {wanted : List String} {role : String} {top : Parts} (h : Absolute top)
    {candidate : Candidate} (hmem : candidate ∈ candidatesBeneath world wanted role top) :
    Absolute candidate.path ∧ nameOf candidate.path = candidate.name := by
  obtain ⟨row, hrow, hmem⟩ := List.mem_flatMap.mp hmem
  obtain ⟨name, hname, rfl⟩ := List.mem_map.mp hmem
  have hname : name ∈ row.2 := (List.mem_filter.mp hname).1
  obtain ⟨rest, htop, hspelled, hclean⟩ := world.walk_beneath top row hrow
  have hpath : Absolute (row.1 ++ [name]) := by
    rw [htop]
    constructor
    · intro hdots
      rcases List.mem_append.mp hdots with hdots | hdots
      · rcases List.mem_append.mp hdots with hdots | hdots
        · exact h.1 hdots
        · exact hclean (List.mem_append_left _ hdots)
      · exact hclean (List.mem_append_right _ (List.mem_singleton.mp hdots ▸ hname))
    · intro part hpart
      rcases List.mem_append.mp hpart with hpart | hpart
      · rcases List.mem_append.mp hpart with hpart | hpart
        · exact h.2 part hpart
        · exact hspelled part (List.mem_append_left _ hpart)
      · exact hspelled part (List.mem_append_right _ (List.mem_singleton.mp hpart ▸ hname))
  show Absolute (Parts.abspath _) ∧ nameOf (Parts.abspath _) = name
  rw [Parts.abspath_clean hpath.1]
  exact ⟨hpath, nameOf_append _ _⟩

theorem candidateMap_absolute {wanted : List String} {inputs : List SemanticInput} {candidates : List Candidate}
    (hholdir : Absolute holdir) (h : candidateMap world holdir wanted inputs = .ok candidates)
    {candidate : Candidate} (hmem : candidate ∈ candidates) :
    Absolute candidate.path ∧ nameOf candidate.path = candidate.name := by
  obtain ⟨more, hmore, h⟩ := bind_eq_ok.mp h
  cases h
  rcases List.mem_append.mp hmem with hmem | hmem
  · exact candidatesBeneath_absolute hholdir hmem
  obtain ⟨found, hfound, hmem⟩ := List.mem_flatten.mp hmem
  obtain ⟨item, -, hitem⟩ := exists_mem_of_forall₂ (mapM_eq_ok.mp hmore).flip hfound
  obtain ⟨directory, -, hitem⟩ := bind_eq_ok.mp hitem
  have habsolute := absolute_lexicalAbsolute world item.path
  cases directory with
  | true =>
      cases hitem
      exact candidatesBeneath_absolute habsolute hmem
  | false =>
      cases hitem
      split at hmem
      · rw [List.mem_singleton.mp hmem]
        exact ⟨habsolute, rfl⟩
      · exact absurd hmem List.not_mem_nil

theorem mem_pathsOf {candidates : List Candidate} {basename : String} {path : Parts} :
    path ∈ pathsOf candidates basename ↔ ∃ candidate ∈ candidates, candidate.name = basename ∧ candidate.path = path := by
  unfold pathsOf
  rw [List.mem_dedup, List.mem_map]
  simp only [List.mem_filter, decide_eq_true_eq, and_assoc]

/-! ## Entries -/

section Entries

variable {record : LoaderRecord} {occurrences : ℕ} {identity : String × String} {resolved : Parts}
  {roles : List String} {content : ByteArray}

theorem entryOf_isDict : (entryOf world record occurrences identity resolved roles content).isDict = true := rfl

theorem get_entryOf_basename :
    (entryOf world record occurrences identity resolved roles content).get "basename" = .str record.basename :=
  (Json.get_dict _ _).trans rfl

theorem get_entryOf_loaderMd5 :
    (entryOf world record occurrences identity resolved roles content).get "loader_md5" = .str record.loaderMd5 :=
  (Json.get_dict _ _).trans rfl

theorem get_entryOf_occurrences :
    (entryOf world record occurrences identity resolved roles content).get "occurrences" = .int occurrences :=
  (Json.get_dict _ _).trans rfl

theorem get_entryOf_pathKind :
    (entryOf world record occurrences identity resolved roles content).get "path_kind" = .str identity.1 :=
  (Json.get_dict _ _).trans rfl

theorem get_entryOf_path :
    (entryOf world record occurrences identity resolved roles content).get "path" = .str identity.2 :=
  (Json.get_dict _ _).trans rfl

theorem get_entryOf_resolvedPath :
    (entryOf world record occurrences identity resolved roles content).get "resolved_path" =
      .str (absoluteText resolved) :=
  (Json.get_dict _ _).trans rfl

theorem get_entryOf_sha256 :
    (entryOf world record occurrences identity resolved roles content).get "sha256" = .str (world.sha256 content) :=
  (Json.get_dict _ _).trans rfl

theorem field_entryOf {key : String} (h : key ∈ strictKeys) :
    ((entryOf world record occurrences identity resolved roles content).field key).isSome = true := by
  unfold entryOf
  rw [Json.field_dict]
  simp only [strictKeys, List.mem_cons, List.not_mem_nil, or_false] at h
  rcases h with rfl | rfl | rfl | rfl | rfl | rfl | rfl | rfl <;> rfl

end Entries

/-- A text is read as it stands, also the empty one. -/
theorem textOf_str {entry : Json} {key value : String} (h : entry.get key = .str value) :
    textOf world entry key = value := by
  have hself : Json.orElse (.str value) (.str "") = .str value := by
    unfold Json.orElse
    split
    · rfl
    · rename_i hempty
      have hvalue : value = "" := by simpa [Json.truthy] using hempty
      rw [hvalue]
  unfold textOf
  rw [h, hself, world.text_str]

/-- The path that is stored is the path that is read. -/
theorem entryPath_of_stored {entry : Json} {path : Parts} (hpath : Absolute path)
    (hkind : entry.get "path_kind" = .str (storedPathIdentity path holdir).1)
    (hstored : entry.get "path" = .str (storedPathIdentity path holdir).2) :
    loadedClosureEntryPath world entry holdir = .ok path := by
  unfold loadedClosureEntryPath
  dsimp only
  rw [textOf_str hstored, hkind]
  unfold storedPathIdentity
  split
  · rename_i hwithin
    obtain ⟨rest, rfl⟩ := hwithin
    have hrest : Absolute rest :=
      ⟨hpath.1.of_append_right, fun part hpart => hpath.2 part (List.mem_append_right _ hpart)⟩
    dsimp only
    rw [Parts.relativeTo_append, ofString_relativeText hrest.2, if_pos rfl, if_neg]
    rintro (hempty | habsolute | hdots)
    · exact relativeText_ne_empty hrest.2 hempty
    · cases habsolute
    · exact hrest.1 hdots
  · dsimp only
    rw [ofString_absoluteText hpath.2, if_neg (by decide), if_pos ⟨rfl, rfl⟩]

end Hearth.Criu.Loaded
