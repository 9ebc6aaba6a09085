import Hearth.Criu.LoadedClosure
import Hearth.Library.Pointwise
import Mathlib.Algebra.BigOperators.Ring.Finset

/-!
# A resolved closure is exact

What the validation accepts is stated entry by entry: an entry that describes the file of its path adds its share
to the tally and no failure.  From there, a resolved closure is valid while its files are as they were, and a
document under the same strict digest is valid only if it says the same of the same files.
-/

namespace Hearth.Criu.Loaded

open Hearth.Library
open Hearth.Library.RawPath (relativeText absoluteText)

variable {world : World} {holdir : Parts}

/-! ## What the validation accepts -/

/-- The entry describes the file of its path. -/
structure Valid (world : World) (holdir : Parts) (entry : Json) : Prop where
  dict : entry.isDict = true
  occurrences : ∃ count : ℤ, 1 ≤ count ∧ entry.get "occurrences" = .int count
  file : ∃ path content resolved, loadedClosureEntryPath world entry holdir = .ok path ∧
    entry.get "basename" = .str (nameOf path) ∧ world.isFile path = .ok true ∧ world.read path = some content ∧
    entry.get "loader_md5" = .str (world.md5 content) ∧ entry.get "sha256" = .str (world.sha256 content) ∧
    world.resolve path = some resolved ∧ entry.get "resolved_path" = .str (absoluteText resolved)
  fields : ∀ key ∈ strictKeys, (entry.field key).isSome = true

/-- The occurrences that an entry counts. -/
def occurrencesOf (entry : Json) : ℤ :=
  match entry.get "occurrences" with
  | .int count => count
  | _ => 0

/-- The tally with the share of an entry. -/
def Tally.add (world : World) (tally : Tally) (entry : Json) : Tally where
  failures := tally.failures
  strictEntries := tally.strictEntries ++ [Json.pick strictKeys entry]
  loaderKeys := loaderKey world entry :: tally.loaderKeys
  occurrenceTotal := tally.occurrenceTotal + occurrencesOf entry

@[simp] theorem Tally.fail_failures (tally : Tally) (failure : ClosureFailure) :
    (tally.fail failure).failures ≠ [] :=
  List.append_ne_nil_of_right_ne_nil _ (List.cons_ne_nil _ _)

theorem Tally.require_failures {tally : Tally} {condition : Prop} [Decidable condition] {failure : ClosureFailure} :
    (tally.require condition failure).failures = [] ↔ tally.failures = [] ∧ condition := by
  unfold Tally.require
  split
  · rename_i h
    exact ⟨fun hnil => ⟨hnil, h⟩, And.left⟩
  · rename_i h
    exact ⟨fun hnil => absurd hnil (tally.fail_failures failure), fun hboth => absurd hboth.2 h⟩

theorem Tally.require_eq {tally : Tally} {condition : Prop} [Decidable condition] {failure : ClosureFailure}
    (h : condition) : tally.require condition failure = tally :=
  if_pos h

theorem Tally.require_strictEntries {tally : Tally} {condition : Prop} [Decidable condition]
    {failure : ClosureFailure} : (tally.require condition failure).strictEntries = tally.strictEntries := by
  unfold Tally.require
  split <;> rfl

theorem tallyOccurrences_failures {index : ℕ} {entry : Json} {tally : Tally}
    (h : (tallyOccurrences index entry tally).failures = []) :
    tally.failures = [] ∧ ∃ count : ℤ, 1 ≤ count ∧ entry.get "occurrences" = .int count := by
  unfold tallyOccurrences at h
  split at h
  · rename_i count hcount
    split at h
    · exact absurd h (tally.fail_failures _)
    · rename_i hpositive
      exact ⟨h, count, by omega, hcount⟩
  · exact absurd h (tally.fail_failures _)

theorem tallyOccurrences_eq {index : ℕ} {entry : Json} {tally : Tally} {count : ℤ} (hpositive : 1 ≤ count)
    (h : entry.get "occurrences" = .int count) :
    tallyOccurrences index entry tally = { tally with occurrenceTotal := tally.occurrenceTotal + occurrencesOf entry } := by
  unfold tallyOccurrences occurrencesOf
  rw [h]
  exact if_neg (by omega)

/-- The checks of a file pass where the entry describes it. -/
theorem tallyFile_failures {entry : Json} {path : Parts} {tally : Tally} :
    (tallyFile world entry path tally).failures = [] ↔ tally.failures = [] ∧ ∃ content resolved,
      world.read path = some content ∧ entry.get "loader_md5" = .str (world.md5 content) ∧
        entry.get "sha256" = .str (world.sha256 content) ∧ world.resolve path = some resolved ∧
          entry.get "resolved_path" = .str (absoluteText resolved) := by
  unfold tallyFile
  cases hread : world.read path with
  | none =>
      cases world.resolve path with
      | none => simp
      | some resolved => simp [Tally.require_failures]
  | some content =>
      cases world.resolve path with
      | none => simp
      | some resolved => simp [Tally.require_failures, and_assoc]

theorem tallyFile_eq {entry : Json} {path resolved : Parts} {content : ByteArray} {tally : Tally}
    (hread : world.read path = some content) (hmd5 : entry.get "loader_md5" = .str (world.md5 content))
    (hsha : entry.get "sha256" = .str (world.sha256 content)) (hresolve : world.resolve path = some resolved)
    (htext : entry.get "resolved_path" = .str (absoluteText resolved)) : tallyFile world entry path tally = tally := by
  unfold tallyFile
  rw [hread, hresolve]
  dsimp only
  rw [Tally.require_eq hmd5, Tally.require_eq hsha, Tally.require_eq htext]

theorem find_strictKeys {entry : Json} :
    (strictKeys.find? fun key => (entry.field key).isNone) = none ↔
      ∀ key ∈ strictKeys, (entry.field key).isSome = true := by
  rw [List.find?_eq_none]
  refine forall₂_congr fun key _ => ?_
  cases entry.field key <;> simp

theorem tallyStrict_failures {index : ℕ} {entry : Json} {tally : Tally}
    (h : (tallyStrict index entry tally).failures = []) :
    tally.failures = [] ∧ ∀ key ∈ strictKeys, (entry.field key).isSome = true := by
  unfold tallyStrict at h
  split at h
  · exact absurd h (tally.fail_failures _)
  · rename_i hfind
    exact ⟨h, find_strictKeys.mp hfind⟩

theorem tallyStrict_eq {index : ℕ} {entry : Json} {tally : Tally}
    (h : ∀ key ∈ strictKeys, (entry.field key).isSome = true) :
    tallyStrict index entry tally =
      { tally with strictEntries := tally.strictEntries ++ [Json.pick strictKeys entry] } := by
  unfold tallyStrict
  rw [find_strictKeys.mpr h]

/-- A round without failure has a valid entry of a new loader identity. -/
theorem tallyEntry_failures {index : ℕ} {entry : Json} {tally after : Tally}
    (h : tallyEntry world holdir index entry tally = .ok after) (hnone : after.failures = []) :
    tally.failures = [] ∧ Valid world holdir entry ∧ loaderKey world entry ∉ tally.loaderKeys := by
  unfold tallyEntry at h
  split at h
  · cases h
    exact absurd hnone (tally.fail_failures _)
  rename_i hdict
  dsimp only at h
  split at h
  · cases h
    exact absurd hnone (Tally.fail_failures _ _)
  rename_i path hpath
  obtain ⟨file, hfile, h⟩ := bind_eq_ok.mp h
  cases h
  obtain ⟨hchecked, hfields⟩ := tallyStrict_failures hnone
  cases file with
  | false => exact absurd hchecked (Tally.fail_failures _ _)
  | true =>
      rw [if_pos rfl, tallyFile_failures] at hchecked
      obtain ⟨hnamed, content, resolved, hread, hmd5, hsha, hresolve, htext⟩ := hchecked
      obtain ⟨hcounted, hname⟩ := Tally.require_failures.mp hnamed
      obtain ⟨hkeyed, hcount⟩ := tallyOccurrences_failures hcounted
      obtain ⟨hfailures, hkey⟩ := Tally.require_failures.mp hkeyed
      exact ⟨hfailures, ⟨by simpa using hdict, hcount,
        ⟨path, content, resolved, hpath, hname, hfile, hread, hmd5, hsha, hresolve, htext⟩, hfields⟩, hkey⟩

/-- A valid entry of a new loader identity adds its share and no failure. -/
theorem tallyEntry_eq {index : ℕ} {entry : Json} {tally : Tally} (h : Valid world holdir entry)
    (hkey : loaderKey world entry ∉ tally.loaderKeys) :
    tallyEntry world holdir index entry tally = .ok (tally.add world entry) := by
  obtain ⟨count, hpositive, hcount⟩ := h.occurrences
  obtain ⟨path, content, resolved, hpath, hname, hfile, hread, hmd5, hsha, hresolve, htext⟩ := h.file
  unfold tallyEntry
  rw [if_neg (by simp [h.dict]), hpath]
  dsimp only
  rw [tallyKey, Tally.require_eq hkey, tallyOccurrences_eq hpositive hcount, Tally.require_eq hname, hfile]
  show Except.ok (tallyStrict index entry (tallyFile world entry path _)) = _
  rw [tallyFile_eq hread hmd5 hsha hresolve htext, tallyStrict_eq h.fields]
  rfl

/-! ## The loop -/

/-- The tally with the shares of entries. -/
def Tally.addAll (world : World) (tally : Tally) (entries : List Json) : Tally :=
  entries.foldl (Tally.add world) tally

theorem Tally.addAll_eq (tally : Tally) (entries : List Json) :
    tally.addAll world entries =
      ⟨tally.failures, tally.strictEntries ++ entries.map (Json.pick strictKeys),
        (entries.map (loaderKey world)).reverse ++ tally.loaderKeys,
        tally.occurrenceTotal + (entries.map occurrencesOf).sum⟩ := by
  induction entries generalizing tally with
  | nil => simp [Tally.addAll]
  | cons entry entries ih =>
      show (tally.add world entry).addAll world entries = _
      rw [ih]
      simp [Tally.add, Int.add_assoc]

/-- The entries are valid, and their loader identities differ from each other and from those before. -/
def AllValid (world : World) (holdir : Parts) (keys : List (String × String)) (entries : List Json) : Prop :=
  (∀ entry ∈ entries, Valid world holdir entry ∧ loaderKey world entry ∉ keys) ∧
    (entries.map (loaderKey world)).Nodup

theorem allValid_cons {keys : List (String × String)} {entry : Json} {entries : List Json} :
    AllValid world holdir keys (entry :: entries) ↔
      (Valid world holdir entry ∧ loaderKey world entry ∉ keys) ∧
        AllValid world holdir (loaderKey world entry :: keys) entries := by
  unfold AllValid
  rw [List.forall_mem_cons, List.map_cons, List.nodup_cons]
  constructor
  · rintro ⟨⟨hentry, hentries⟩, hnot, hnodup⟩
    refine ⟨hentry, fun other hother => ⟨(hentries other hother).1, ?_⟩, hnodup⟩
    rw [List.mem_cons, not_or]
    exact ⟨fun heq => hnot (heq ▸ List.mem_map_of_mem hother), (hentries other hother).2⟩
  · rintro ⟨hentry, hentries, hnodup⟩
    refine ⟨⟨hentry, fun other hother => ⟨(hentries other hother).1, ?_⟩⟩, ?_, hnodup⟩
    · exact fun hmem => (hentries other hother).2 (List.mem_cons_of_mem _ hmem)
    · intro hmem
      obtain ⟨other, hother, heq⟩ := List.mem_map.mp hmem
      exact (hentries other hother).2 (heq ▸ List.mem_cons_self)

theorem tallyEntries_failures {index : ℕ} {entries : List Json} {tally after : Tally}
    (h : tallyEntries world holdir index entries tally = .ok after) (hnone : after.failures = []) :
    tally.failures = [] ∧ AllValid world holdir tally.loaderKeys entries := by
  induction entries generalizing index tally with
  | nil =>
      cases h
      exact ⟨hnone, by simp [AllValid]⟩
  | cons entry entries ih =>
      obtain ⟨middle, hentry, hrest⟩ := bind_eq_ok.mp h
      obtain ⟨hmiddle, hall⟩ := ih hrest
      obtain ⟨hfailures, hvalid, hkey⟩ := tallyEntry_failures hentry hmiddle
      rw [tallyEntry_eq hvalid hkey] at hentry
      cases hentry
      exact ⟨hfailures, allValid_cons.mpr ⟨⟨hvalid, hkey⟩, hall⟩⟩

theorem tallyEntries_eq {index : ℕ} {entries : List Json} {tally : Tally}
    (h : AllValid world holdir tally.loaderKeys entries) :
    tallyEntries world holdir index entries tally = .ok (tally.addAll world entries) := by
  induction entries generalizing index tally with
  | nil => rfl
  | cons entry entries ih =>
      obtain ⟨⟨hvalid, hkey⟩, hall⟩ := allValid_cons.mp h
      show (tallyEntry world holdir index entry tally >>= fun tally => _) = _
      rw [tallyEntry_eq hvalid hkey]
      exact ih hall

/-! ## Acceptance -/

/-- What a closure without failures says. -/
structure Sound (world : World) (holdir : Parts) (closure : Json) (entries : List Json) : Prop where
  schema : closure.get "schema" = .str "hol-workbench.loaded-closure.v1"
  entries_eq : closure.get "entries" = .arr entries
  nonempty : entries ≠ []
  valid : AllValid world holdir [] entries
  recordCount : Json.equal (closure.get "record_count") (.int (entries.map occurrencesOf).sum) = true
  uniqueCount : Json.equal (closure.get "unique_record_count") (.int entries.length) = true
  digest : closure.get "strict_sha256" = .str (canonicalDigest world (.arr (entries.map (Json.pick strictKeys))))

theorem validate_iff {closure : Json} {given : GivenPath} :
    validateLoadedClosure world closure given = .ok [] ↔
      ∃ entries, Sound world (world.lexicalAbsolute given) closure entries := by
  constructor
  · intro h
    unfold validateLoadedClosure at h
    split at h
    · cases h
    rename_i hschema
    split at h
    · rename_i entry entries hentries
      obtain ⟨tally, htally, h⟩ := bind_eq_ok.mp h
      have hfailures := Except.ok.inj h
      rw [Tally.require_failures, Tally.require_failures, Tally.require_failures] at hfailures
      obtain ⟨⟨⟨hnone, hrecords⟩, hunique⟩, hdigest⟩ := hfailures
      obtain ⟨-, hvalid⟩ := tallyEntries_failures htally hnone
      rw [tallyEntries_eq hvalid, Tally.addAll_eq] at htally
      cases htally
      dsimp only at hrecords hunique hdigest
      rw [Int.zero_add] at hrecords
      rw [Tally.require_strictEntries, Tally.require_strictEntries, List.nil_append] at hdigest
      exact ⟨entry :: entries, not_not.mp hschema, hentries, List.cons_ne_nil _ _, hvalid, hrecords, hunique, hdigest⟩
    · cases h
  · rintro ⟨entries, h⟩
    obtain ⟨entry, entries, rfl⟩ := List.exists_cons_of_ne_nil h.nonempty
    unfold validateLoadedClosure
    rw [if_neg (not_not.mpr h.schema), h.entries_eq]
    dsimp only
    rw [tallyEntries_eq h.valid, Tally.addAll_eq]
    refine congrArg Except.ok ?_
    rw [Tally.require_failures, Tally.require_failures, Tally.require_failures]
    dsimp only
    rw [Tally.require_strictEntries, Tally.require_strictEntries, Int.zero_add, List.nil_append]
    exact ⟨⟨⟨rfl, h.recordCount⟩, h.uniqueCount⟩, h.digest⟩

end Hearth.Criu.Loaded
