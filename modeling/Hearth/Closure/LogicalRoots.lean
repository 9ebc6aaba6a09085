import Hearth.Closure.Resolve
import Hearth.Library.JsonDict

/-!
# Declared logical source roots

`logical_source_root_declarations` admits the rows of a profile, and
`logical_source_root_identity` is the document that a closure keeps of them.  A row that
was admitted is admitted again as it is, so the document of admitted rows is valid.
-/

namespace Hearth.Closure

open Hearth.Library

/-- `LOGICAL_SOURCE_ROOT_SCHEMA`. -/
def logicalSourceRootSchema : String := "hol-workbench.logical-source-roots.v4"

/-- `_MAX_ROOTS`. -/
def maxLogicalRoots : ℕ := 16

/-- `str(value)`; `repr` writes lists and dictionaries. -/
def str (repr : Json → String) : Json → String
  | .str value => value
  | .int value => String.ofList (Json.renderInt value)
  | .bool true => "True"
  | .bool false => "False"
  | .null => "None"
  | value => repr value

@[simp] theorem str_str (repr : Json → String) (value : String) : str repr (.str value) = value := rfl

/-! ## Spellings -/

/-- `_ALIAS.fullmatch`. -/
def isLogicalAlias (text : String) : Bool :=
  match text.toList with
  | [] => false
  | first :: rest =>
      first.isAlpha && 1 ≤ rest.length && rest.length ≤ 63 &&
        rest.all fun char => char.isAlphanum || char = '_' || char = '-'

/-- `_REVISION.fullmatch` and `_TREE.fullmatch`. -/
def isGitObjectName (text : String) : Bool :=
  text.toList.length = 40 && text.toList.all fun char =>
    char.isDigit || ('a' ≤ char && char ≤ 'f')

/-- The subdirectory of a repository is `.`, or a clean relative path in normal form. -/
def isSafeSubdirectory (text : String) : Bool :=
  text = "." ||
    (!(RawPath.ofString text).isAbsolute && (RawPath.ofString text).parts ≠ [] &&
      RawPath.relativeText (RawPath.ofString text).parts = text &&
      decide (Parts.Clean (RawPath.ofString text).parts))

/-- The fields of a row of this source role. -/
def declarationFields (sourceRole : String) : List String :=
  ["alias", "execution_role", "source_role"] ++
    if sourceRole = "managed_mirror" then ["remote", "revision", "tree"]
    else if sourceRole = "entrypoint_repository" then ["project_subdir", "source_subdir"]
    else []

/-- The keys of a dictionary. -/
def keys : Json → List String
  | .obj fields => fields.map Prod.fst
  | _ => []

/-! ## Rows -/

/-- The checks of a row that has the fields of its role. -/
def admitsDeclaration (aliases : List String) (sourceRole : String) (field : String → String) : Bool :=
  isLogicalAlias (field "alias") && field "alias" ∉ aliases &&
    (sourceRole = "managed_mirror" || sourceRole = "entrypoint_repository") &&
    (field "execution_role" = "none" || field "execution_role" = "profile_cwd") &&
    (sourceRole ≠ "managed_mirror" ||
      ("https://".toList.isPrefixOf (field "remote").toList && isGitObjectName (field "revision") &&
        isGitObjectName (field "tree"))) &&
    (sourceRole ≠ "entrypoint_repository" ||
      (isSafeSubdirectory (field "source_subdir") && isSafeSubdirectory (field "project_subdir")))

/-- `source_role` of a row that is not admitted yet. -/
def rawSourceRole (repr : Json → String) (raw : Json) : String :=
  str repr ((raw.get "source_role").orElse (.str ""))

/-- The row with every field a text. -/
def declarationRow (repr : Json → String) (raw : Json) : Json :=
  Json.dict ((declarationFields (rawSourceRole repr raw)).map fun key =>
    (key, .str (str repr (raw.get key))))

/-- One row behind the rows of these aliases. -/
def admitDeclaration (repr : Json → String) (aliases : List String) (raw : Json) : Option Json :=
  if raw.isDict && decide (keys raw ⊆ declarationFields (rawSourceRole repr raw)) &&
      decide (declarationFields (rawSourceRole repr raw) ⊆ keys raw) &&
      admitsDeclaration aliases (rawSourceRole repr raw) (fun key => str repr (raw.get key)) then
    some (declarationRow repr raw)
  else none

/-- The alias of an admitted row. -/
def aliasOf (row : Json) : String :=
  match row.get "alias" with
  | .str value => value
  | _ => ""

def admitDeclarations (repr : Json → String) : List String → List Json → Option (List Json)
  | _, [] => some []
  | aliases, raw :: raws => do
      let row ← admitDeclaration repr aliases raw
      let rows ← admitDeclarations repr (aliasOf row :: aliases) raws
      return row :: rows

/-- `logical_source_root_declarations`; `none` is a `LogicalSourceRootError`. -/
def logicalSourceRootDeclarations (repr : Json → String) : Json → Option (List Json)
  | .null => some []
  | .arr raws => if maxLogicalRoots < raws.length then none else admitDeclarations repr [] raws
  | _ => none

/-- `logical_source_root_identity`. -/
def logicalSourceRootIdentity (declarations : List Json) : Json :=
  Json.dict [("schema", .str logicalSourceRootSchema), ("roots", .arr declarations)]

/-- `logical_source_root_identity_is_valid`. -/
def logicalSourceRootIdentityIsValid (repr : Json → String) (value : Json) : Bool :=
  value.isDict && value.get "schema" = .str logicalSourceRootSchema &&
    (logicalSourceRootDeclarations repr (value.get "roots")).any fun rows =>
      Json.equal value (logicalSourceRootIdentity rows)

/-! ## Admitted rows -/

theorem mem_keys_dict {fields : List (String × Json)} {key : String} :
    key ∈ keys (Json.dict fields) ↔ key ∈ fields.map Prod.fst := by
  show key ∈ (Json.sortFields fields).map Prod.fst ↔ _
  constructor
  · intro h
    obtain ⟨field, hfield, rfl⟩ := List.mem_map.mp h
    exact List.mem_map_of_mem (Json.mem_sortFields hfield)
  · intro h
    cases hlookup : (Json.sortFields fields).lookup key with
    | some value => exact List.mem_map.mpr ⟨(key, value), mem_of_lookup hlookup, rfl⟩
    | none =>
        rw [Json.lookup_sortFields, lookup_eq_none] at hlookup
        obtain ⟨field, hfield, rfl⟩ := List.mem_map.mp h
        exact absurd (List.mem_reverse.mpr hfield) (hlookup field.2)

/-- The checks of a row read nothing but the fields of its role. -/
theorem admitsDeclaration_congr (aliases : List String) {sourceRole : String}
    {field other : String → String} (h : ∀ key ∈ declarationFields sourceRole, field key = other key) :
    admitsDeclaration aliases sourceRole field = admitsDeclaration aliases sourceRole other := by
  have halias : field "alias" = other "alias" := h _ (by simp [declarationFields])
  have hexecution : field "execution_role" = other "execution_role" :=
    h _ (by simp [declarationFields])
  unfold admitsDeclaration
  rw [halias, hexecution]
  by_cases hmanaged : sourceRole = "managed_mirror"
  · subst hmanaged
    rw [h "remote" (by simp [declarationFields]), h "revision" (by simp [declarationFields]),
      h "tree" (by simp [declarationFields])]
    simp
  by_cases hentrypoint : sourceRole = "entrypoint_repository"
  · subst hentrypoint
    rw [h "source_subdir" (by simp [declarationFields]),
      h "project_subdir" (by simp [declarationFields])]
    simp
  · simp [hmanaged, hentrypoint]

section

variable {repr : Json → String} {aliases : List String} {raw row : Json}

theorem get_declarationRow {key : String} (h : key ∈ declarationFields (rawSourceRole repr raw)) :
    (declarationRow repr raw).get key = .str (str repr (raw.get key)) := by
  have hlookup : ((declarationFields (rawSourceRole repr raw)).map fun key =>
      (key, Json.str (str repr (raw.get key)))).reverse.lookup key =
        some (.str (str repr (raw.get key))) := by
    apply lookup_eq_some_of_agree
    · rw [List.mem_reverse]
      exact List.mem_map.mpr ⟨key, h, rfl⟩
    · intro other hother
      rw [List.mem_reverse] at hother
      obtain ⟨name, -, hname⟩ := List.mem_map.mp hother
      cases hname
      rfl
  unfold declarationRow
  rw [Json.get_dict, hlookup]
  rfl

theorem canonical_declarationRow : (declarationRow repr raw).Canonical := by
  apply Json.canonical_dict
  intro field hfield
  obtain ⟨key, -, rfl⟩ := List.mem_map.mp hfield
  exact Json.canonical_str _

theorem admitDeclaration_eq_some (h : admitDeclaration repr aliases raw = some row) :
    admitsDeclaration aliases (rawSourceRole repr raw) (fun key => str repr (raw.get key)) = true ∧
      row = declarationRow repr raw := by
  unfold admitDeclaration at h
  split at h
  · rename_i hcheck
    rw [Bool.and_eq_true] at hcheck
    cases h
    exact ⟨hcheck.2, rfl⟩
  · cases h

/-- The role of an admitted row is that of the row it was made from. -/
theorem rawSourceRole_declarationRow
    (h : admitsDeclaration aliases (rawSourceRole repr raw) (fun key => str repr (raw.get key)) = true) :
    rawSourceRole repr (declarationRow repr raw) = rawSourceRole repr raw := by
  have hrole : rawSourceRole repr raw ≠ "" := by
    intro hempty
    rw [hempty] at h
    simp [admitsDeclaration] at h
  have htext : str repr (raw.get "source_role") = rawSourceRole repr raw := by
    unfold rawSourceRole Json.orElse at hrole ⊢
    split
    · rfl
    · rename_i hfalsy
      rw [if_neg hfalsy] at hrole
      exact absurd rfl hrole
  have htruthy : Json.truthy (.str (rawSourceRole repr raw)) = true := decide_eq_true hrole
  have hget : (declarationRow repr raw).get "source_role" = .str (rawSourceRole repr raw) := by
    rw [get_declarationRow (by simp [declarationFields]), htext]
  show str repr (((declarationRow repr raw).get "source_role").orElse (.str "")) = _
  rw [hget, Json.orElse, if_pos htruthy, str_str]

/-- A row that was admitted is admitted as it is. -/
theorem admitDeclaration_fixed (h : admitDeclaration repr aliases raw = some row) :
    admitDeclaration repr aliases row = some row := by
  obtain ⟨hadmits, rfl⟩ := admitDeclaration_eq_some h
  have hrole := rawSourceRole_declarationRow hadmits
  have hfields : ∀ key ∈ declarationFields (rawSourceRole repr raw),
      str repr ((declarationRow repr raw).get key) = str repr (raw.get key) := by
    intro key hkey
    rw [get_declarationRow hkey, str_str]
  have hkeys : ∀ key, key ∈ keys (declarationRow repr raw) ↔
      key ∈ declarationFields (rawSourceRole repr raw) := by
    intro key
    unfold declarationRow
    rw [mem_keys_dict]
    simp
  have hrow : declarationRow repr (declarationRow repr raw) = declarationRow repr raw := by
    rw [declarationRow, hrole]
    unfold declarationRow at hfields ⊢
    congr 1
    apply List.map_congr_left
    intro key hkey
    rw [hfields key hkey]
  have hagain : admitsDeclaration aliases (rawSourceRole repr raw)
      (fun key => str repr ((declarationRow repr raw).get key)) = true := by
    rw [admitsDeclaration_congr aliases hfields, hadmits]
  have hdict : (declarationRow repr raw).isDict = true := rfl
  have hleft : keys (declarationRow repr raw) ⊆ declarationFields (rawSourceRole repr raw) :=
    fun key hkey => (hkeys key).mp hkey
  have hright : declarationFields (rawSourceRole repr raw) ⊆ keys (declarationRow repr raw) :=
    fun key hkey => (hkeys key).mpr hkey
  unfold admitDeclaration
  rw [hrole, hrow, hdict, decide_eq_true hleft, decide_eq_true hright, hagain]
  rfl

end

theorem admitDeclarations_cons {repr : Json → String} {aliases : List String} {raw : Json}
    {raws rows : List Json} :
    admitDeclarations repr aliases (raw :: raws) = some rows ↔
      ∃ row later, admitDeclaration repr aliases raw = some row ∧
        admitDeclarations repr (aliasOf row :: aliases) raws = some later ∧ rows = row :: later := by
  simp only [admitDeclarations, Option.bind_eq_bind, Option.bind_eq_some_iff, Option.pure_def,
    Option.some.injEq]
  constructor
  · rintro ⟨row, hrow, later, hlater, rfl⟩
    exact ⟨row, later, hrow, hlater, rfl⟩
  · rintro ⟨row, later, hrow, hlater, rfl⟩
    exact ⟨row, hrow, later, hlater, rfl⟩

/-- Rows that were admitted are admitted again as they are. -/
theorem admitDeclarations_fixed {repr : Json → String} {raws : List Json} :
    ∀ {aliases : List String} {rows : List Json}, admitDeclarations repr aliases raws = some rows →
      admitDeclarations repr aliases rows = some rows ∧ rows.length = raws.length ∧
        ∀ row ∈ rows, row.Canonical := by
  induction raws with
  | nil =>
      intro aliases rows h
      cases h
      exact ⟨rfl, rfl, nofun⟩
  | cons raw raws ih =>
      intro aliases rows h
      obtain ⟨row, later, hrow, hlater, rfl⟩ := admitDeclarations_cons.mp h
      obtain ⟨hfixed, hlength, hcanonical⟩ := ih hlater
      refine ⟨admitDeclarations_cons.mpr ⟨row, later, admitDeclaration_fixed hrow, hfixed, rfl⟩,
        by rw [List.length_cons, List.length_cons, hlength], ?_⟩
      intro other hother
      rcases List.mem_cons.mp hother with rfl | hother
      · obtain ⟨-, rfl⟩ := admitDeclaration_eq_some hrow
        exact canonical_declarationRow
      · exact hcanonical other hother

theorem logicalSourceRootDeclarations_fixed {repr : Json → String} {value : Json}
    {declarations : List Json} (h : logicalSourceRootDeclarations repr value = some declarations) :
    logicalSourceRootDeclarations repr (.arr declarations) = some declarations ∧
      ∀ row ∈ declarations, row.Canonical := by
  unfold logicalSourceRootDeclarations at h
  split at h
  · cases h
    exact ⟨rfl, nofun⟩
  · rename_i raws
    split at h
    · cases h
    · rename_i hroom
      obtain ⟨hfixed, hlength, hcanonical⟩ := admitDeclarations_fixed h
      refine ⟨?_, hcanonical⟩
      show (if maxLogicalRoots < declarations.length then none
        else admitDeclarations repr [] declarations) = _
      rw [hlength, if_neg hroom, hfixed]
  · cases h

theorem get_logicalSourceRootIdentity_roots (declarations : List Json) :
    (logicalSourceRootIdentity declarations).get "roots" = .arr declarations := by
  unfold logicalSourceRootIdentity
  rw [Json.get_dict]
  rfl

theorem get_logicalSourceRootIdentity_schema (declarations : List Json) :
    (logicalSourceRootIdentity declarations).get "schema" = .str logicalSourceRootSchema := by
  unfold logicalSourceRootIdentity
  rw [Json.get_dict]
  rfl

/-- The document of admitted rows is valid. -/
theorem logicalSourceRootIdentity_isValid {repr : Json → String} {value : Json}
    {declarations : List Json} (h : logicalSourceRootDeclarations repr value = some declarations) :
    logicalSourceRootIdentityIsValid repr (logicalSourceRootIdentity declarations) = true := by
  obtain ⟨hfixed, -⟩ := logicalSourceRootDeclarations_fixed h
  have hdict : (logicalSourceRootIdentity declarations).isDict = true := rfl
  unfold logicalSourceRootIdentityIsValid
  rw [hdict, get_logicalSourceRootIdentity_schema, get_logicalSourceRootIdentity_roots, hfixed]
  simp

end Hearth.Closure
