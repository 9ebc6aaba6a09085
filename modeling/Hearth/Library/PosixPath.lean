import Mathlib.Data.List.Basic
import Mathlib.Data.List.Infix

/-!
# Lexical POSIX paths

A path without symbolic links is the list of its components below `/`.  The text of a
path is split at its slashes; empty components and `.` disappear, `..` stays until the
path is normalized.  Normalization is a pass over the components with the components
kept so far on a stack, so that what follows a clean base is normalized on top of it.
-/

namespace Hearth.Library

/-- The components of an absolute path below `/`, or of a relative one. -/
abbrev Parts := List String

/-- What a path starts with; POSIX keeps exactly two leading slashes apart. -/
inductive Anchor
  | relative | root | doubleRoot
  deriving DecidableEq, Repr

/-- A path as it is written. -/
structure RawPath where
  anchor : Anchor
  parts : Parts
  deriving DecidableEq, Repr

namespace RawPath

def isAbsolute (raw : RawPath) : Bool :=
  raw.anchor ≠ .relative

/-- The text split at each slash; a text without one is a single piece. -/
def splitSlash : List Char → List (List Char)
  | [] => [[]]
  | char :: rest =>
      if char = '/' then [] :: splitSlash rest
      else
        match splitSlash rest with
        | [] => [[char]]
        | piece :: pieces => (char :: piece) :: pieces

attribute [grind =] splitSlash

def anchorOf : List Char → Anchor
  | '/' :: '/' :: '/' :: _ => .root
  | '/' :: '/' :: _ => .doubleRoot
  | '/' :: _ => .root
  | _ => .relative

/-- The components that count. -/
def partsOf (text : List Char) : Parts :=
  ((splitSlash text).map String.ofList).filter fun part => part ≠ "" && part ≠ "."

def ofString (text : String) : RawPath :=
  ⟨anchorOf text.toList, partsOf text.toList⟩

/-- The text of a relative path. -/
def relativeText (parts : Parts) : String :=
  if parts = [] then "." else "/".intercalate parts

/-- The text of an absolute path. -/
def absoluteText (parts : Parts) : String :=
  "/" ++ "/".intercalate parts

/-- `str(path)`. -/
def text (raw : RawPath) : String :=
  match raw.anchor with
  | .relative => relativeText raw.parts
  | .root => absoluteText raw.parts
  | .doubleRoot => "/" ++ absoluteText raw.parts

/-- `path.parent`. -/
def parent (raw : RawPath) : RawPath :=
  { raw with parts := raw.parts.dropLast }

end RawPath

namespace Parts

/-- No component is `..`. -/
def Clean (path : Parts) : Prop :=
  ".." ∉ path

instance (path : Parts) : Decidable (Clean path) :=
  inferInstanceAs (Decidable (".." ∉ path))

/-- The directory that holds the path; `/` holds itself. -/
def parent (path : Parts) : Parts :=
  path.dropLast

/-- `path` is `root` or lies below it. -/
def Within (path root : Parts) : Prop :=
  root <+: path

instance (path root : Parts) : Decidable (Within path root) :=
  inferInstanceAs (Decidable (root <+: path))

/-- The components of `path` below `root`. -/
def relativeTo (path root : Parts) : Parts :=
  path.drop root.length

/-- One component on the stack of an absolute path: the parent of `/` is `/`. -/
def pushAbsolute (stack : Parts) (part : String) : Parts :=
  if part = ".." then stack.tail else part :: stack

/-- The normal form of an absolute path. -/
def abspath (path : Parts) : Parts :=
  (path.foldl pushAbsolute []).reverse

/-- One component on the stack of a relative path: what climbs above the start stays. -/
def pushRelative (stack : Parts) (part : String) : Parts :=
  if part = ".." then
    match stack with
    | [] => [".."]
    | top :: below => if top = ".." then ".." :: stack else below
  else part :: stack

/-- The normal form of a relative path. -/
def normpath (path : Parts) : Parts :=
  (path.foldl pushRelative []).reverse

/-- The directories above a path, the path itself first and `/` last. -/
def ancestors (path : Parts) : List Parts :=
  path.inits.reverse

/-- The way from `base` to `path`: up to the directory that they share, and down. -/
def relpath : Parts → Parts → Parts
  | part :: path, other :: base =>
      if part = other then relpath path base
      else (other :: base).map (fun _ => "..") ++ part :: path
  | path, base => base.map (fun _ => "..") ++ path

attribute [grind =] relpath

/-- The directory that two paths share. -/
def commonpath : Parts → Parts → Parts
  | part :: path, other :: rest => if part = other then part :: commonpath path rest else []
  | _, _ => []

/-- A component that a text can spell. -/
def Component (part : String) : Prop :=
  part ≠ "" ∧ part ≠ "." ∧ '/' ∉ part.toList

/-- Every component can be spelled, so that the text of the path determines it. -/
def Spelled (path : Parts) : Prop :=
  ∀ part ∈ path, Component part

instance (part : String) : Decidable (Component part) :=
  inferInstanceAs (Decidable (_ ∧ _ ∧ _))

instance (path : Parts) : Decidable (Spelled path) :=
  inferInstanceAs (Decidable (∀ part ∈ path, Component part))

/-! ## Clean paths -/

theorem Clean.append {path rest : Parts} (hpath : Clean path) (hrest : Clean rest) :
    Clean (path ++ rest) := by
  simp only [Clean, List.mem_append, not_or]
  exact ⟨hpath, hrest⟩

theorem Clean.of_append_left {path rest : Parts} (h : Clean (path ++ rest)) : Clean path :=
  fun hmem => h (List.mem_append_left _ hmem)

theorem Clean.of_append_right {path rest : Parts} (h : Clean (path ++ rest)) : Clean rest :=
  fun hmem => h (List.mem_append_right _ hmem)

theorem Clean.parent {path : Parts} (h : Clean path) : Clean (parent path) :=
  fun hmem => h (List.dropLast_subset _ hmem)

/-- On clean components normalization only stacks. -/
theorem foldl_pushAbsolute_clean {path : Parts} (h : Clean path) (stack : Parts) :
    path.foldl pushAbsolute stack = path.reverse ++ stack := by
  induction path generalizing stack with
  | nil => rfl
  | cons part path ih =>
      have hpart : part ≠ ".." := fun heq => h (heq ▸ List.mem_cons_self)
      have hpath : Clean path := fun hmem => h (List.mem_cons_of_mem _ hmem)
      rw [List.foldl_cons, ih hpath]
      simp [pushAbsolute, hpart]

theorem abspath_clean {path : Parts} (h : Clean path) : abspath path = path := by
  unfold abspath
  rw [foldl_pushAbsolute_clean h]
  simp

/-- Normalization leaves no `..` behind. -/
theorem foldl_pushAbsolute_isClean (path : Parts) {stack : Parts} (h : Clean stack) :
    Clean (path.foldl pushAbsolute stack) := by
  induction path generalizing stack with
  | nil => exact h
  | cons part path ih =>
      apply ih
      unfold pushAbsolute
      split
      · exact fun hmem => h (List.mem_of_mem_tail hmem)
      · rename_i hpart
        intro hmem
        rcases List.mem_cons.mp hmem with heq | hmem
        · exact hpart heq.symm
        · exact h hmem

theorem abspath_isClean (path : Parts) : Clean (abspath path) := by
  intro hmem
  have hclean : Clean (path.foldl pushAbsolute []) := foldl_pushAbsolute_isClean path (by decide)
  exact hclean (List.mem_reverse.mp hmem)

/-! ## Paths below a base -/

theorem within_append (root path : Parts) : Within (root ++ path) root :=
  List.prefix_append root path

theorem Within.eq_append {path root : Parts} (h : Within path root) :
    path = root ++ relativeTo path root := by
  obtain ⟨rest, rfl⟩ := h
  simp [relativeTo]

@[simp] theorem relativeTo_append (root path : Parts) : relativeTo (root ++ path) root = path := by
  simp [relativeTo]

theorem Within.trans {path middle root : Parts} (h : Within path middle) (h' : Within middle root) :
    Within path root :=
  List.IsPrefix.trans h' h

theorem mem_ancestors {path directory : Parts} : directory ∈ ancestors path ↔ Within path directory := by
  unfold ancestors Within
  rw [List.mem_reverse, List.mem_inits]

theorem within_commonpath (path other : Parts) : Within path (commonpath path other) := by
  induction path generalizing other with
  | nil => exact List.nil_prefix
  | cons part path ih =>
      cases other with
      | nil => exact List.nil_prefix
      | cons first rest =>
          unfold commonpath
          split
          · exact (List.prefix_cons_inj part).mpr (ih rest)
          · exact List.nil_prefix

theorem within_commonpath_right (path other : Parts) : Within other (commonpath path other) := by
  induction path generalizing other with
  | nil => exact List.nil_prefix
  | cons part path ih =>
      cases other with
      | nil => exact List.nil_prefix
      | cons first rest =>
          unfold commonpath
          split
          · rename_i heq
            rw [heq]
            exact (List.prefix_cons_inj first).mpr (ih rest)
          · exact List.nil_prefix

/-- What contains both paths contains the directory that they share. -/
theorem Within.commonpath {path other directory : Parts} (hpath : Within path directory)
    (hother : Within other directory) : Within (commonpath path other) directory := by
  induction directory generalizing path other with
  | nil => exact List.nil_prefix
  | cons part directory ih =>
      obtain ⟨rest, rfl⟩ := hpath
      obtain ⟨later, rfl⟩ := hother
      have hshared : Parts.commonpath (part :: directory ++ rest) (part :: directory ++ later) =
          part :: Parts.commonpath (directory ++ rest) (directory ++ later) := if_pos rfl
      rw [hshared]
      exact (List.prefix_cons_inj part).mpr (ih (within_append _ _) (within_append _ _))

/-- The deepest directory that contains all these paths. -/
structure CommonRoot (paths : Parts → Prop) (root : Parts) : Prop where
  contains : ∀ path, paths path → Within path root
  deepest : ∀ directory, (∀ path, paths path → Within path directory) → Within root directory

theorem CommonRoot.unique {paths : Parts → Prop} {root other : Parts} (h : CommonRoot paths root)
    (h' : CommonRoot paths other) : root = other :=
  (h'.deepest root h.contains).eq_of_length_le (h.deepest other h'.contains).length_le

/-! ## Spelled paths -/

theorem Spelled.of_within {path root : Parts} (h : Spelled path) (hwithin : Within path root) :
    Spelled root :=
  fun part hpart => h part (hwithin.subset hpart)

theorem Spelled.append {path rest : Parts} (hpath : Spelled path) (hrest : Spelled rest) :
    Spelled (path ++ rest) := by
  intro part hpart
  rcases List.mem_append.mp hpart with hpart | hpart
  · exact hpath part hpart
  · exact hrest part hpart

theorem mem_foldl_pushAbsolute {path stack : Parts} {part : String} (h : part ∈ path.foldl pushAbsolute stack) :
    part ∈ path ∨ part ∈ stack := by
  induction path generalizing stack with
  | nil => exact .inr h
  | cons first path ih =>
      rcases ih h with hmem | hmem
      · exact .inl (List.mem_cons_of_mem _ hmem)
      · unfold pushAbsolute at hmem
        split at hmem
        · exact .inr (List.mem_of_mem_tail hmem)
        · rcases List.mem_cons.mp hmem with rfl | hmem
          · exact .inl List.mem_cons_self
          · exact .inr hmem

/-- Normalization adds no components. -/
theorem Spelled.abspath {path : Parts} (h : Spelled path) : Spelled (abspath path) := by
  intro part hpart
  rcases mem_foldl_pushAbsolute (List.mem_reverse.mp hpart) with hmem | hmem
  · exact h part hmem
  · exact absurd hmem List.not_mem_nil

end Parts

namespace RawPath

open Parts

/-- A piece without a slash is split off at the slash behind it. -/
theorem splitSlash_append {piece : List Char} (h : '/' ∉ piece) (rest : List Char) :
    splitSlash (piece ++ '/' :: rest) = piece :: splitSlash rest := by
  induction piece with
  | nil =>
      show splitSlash ('/' :: rest) = _
      rw [splitSlash, if_pos rfl]
  | cons char piece ih =>
      have hchar : char ≠ '/' := fun heq => h (heq ▸ List.mem_cons_self)
      rw [List.cons_append, splitSlash, if_neg hchar, ih fun hmem => h (List.mem_cons_of_mem _ hmem)]

theorem splitSlash_eq_self {piece : List Char} (h : '/' ∉ piece) : splitSlash piece = [piece] := by
  induction piece with
  | nil => rfl
  | cons char piece ih =>
      have hchar : char ≠ '/' := fun heq => h (heq ▸ List.mem_cons_self)
      rw [splitSlash, if_neg hchar, ih fun hmem => h (List.mem_cons_of_mem _ hmem)]

theorem not_mem_of_mem_splitSlash {text piece : List Char} (h : piece ∈ splitSlash text) :
    '/' ∉ piece := by
  induction text generalizing piece with
  | nil =>
      rw [List.mem_singleton.mp h]
      exact List.not_mem_nil
  | cons char text ih =>
      unfold splitSlash at h
      split at h
      · rcases List.mem_cons.mp h with rfl | h
        · exact List.not_mem_nil
        · exact ih h
      · rename_i hchar
        split at h
        · rw [List.mem_singleton.mp h]
          exact fun hmem => hchar (List.mem_singleton.mp hmem).symm
        · rename_i first pieces hpieces
          rcases List.mem_cons.mp h with rfl | h
          · intro hmem
            rcases List.mem_cons.mp hmem with heq | hmem
            · exact hchar heq.symm
            · exact ih (hpieces ▸ List.mem_cons_self) hmem
          · exact ih (hpieces ▸ List.mem_cons_of_mem _ h)

theorem splitSlash_intercalate {pieces : List (List Char)} (hne : pieces ≠ [])
    (h : ∀ piece ∈ pieces, '/' ∉ piece) : splitSlash (['/'].intercalate pieces) = pieces := by
  induction pieces with
  | nil => exact absurd rfl hne
  | cons piece pieces ih =>
      have hpiece : '/' ∉ piece := h piece List.mem_cons_self
      cases pieces with
      | nil =>
          rw [List.intercalate_singleton]
          exact splitSlash_eq_self hpiece
      | cons next pieces =>
          have hrest := ih (List.cons_ne_nil _ _) fun other hother => h other (List.mem_cons_of_mem _ hother)
          rw [List.intercalate_cons_cons, List.append_assoc, List.singleton_append,
            splitSlash_append hpiece, hrest]

/-- The components of a text can be spelled. -/
theorem spelled_partsOf (text : List Char) : Spelled (partsOf text) := by
  intro part hpart
  unfold partsOf at hpart
  rw [List.mem_filter, Bool.and_eq_true, decide_eq_true_eq, decide_eq_true_eq] at hpart
  obtain ⟨hmem, hne, hdot⟩ := hpart
  obtain ⟨piece, hpiece, rfl⟩ := List.mem_map.mp hmem
  refine ⟨hne, hdot, ?_⟩
  rw [String.toList_ofList]
  exact not_mem_of_mem_splitSlash hpiece

theorem partsOf_slash_intercalate {path : Parts} (h : Spelled path) :
    partsOf ('/' :: ['/'].intercalate (path.map String.toList)) = path := by
  have hsplit : splitSlash ('/' :: ['/'].intercalate (path.map String.toList)) =
      [] :: splitSlash (['/'].intercalate (path.map String.toList)) := by
    rw [splitSlash, if_pos rfl]
  have hkept : path.filter (fun part => part ≠ "" && part ≠ ".") = path := by
    apply List.filter_eq_self.mpr
    intro part hpart
    obtain ⟨hne, hdot, -⟩ := h part hpart
    simp [hne, hdot]
  unfold partsOf
  rw [hsplit, List.map_cons, List.filter_cons_of_neg (by decide)]
  by_cases hempty : path = []
  · subst hempty
    rfl
  · have hpieces : ∀ piece ∈ path.map String.toList, '/' ∉ piece := by
      intro piece hpiece
      obtain ⟨part, hpart, rfl⟩ := List.mem_map.mp hpiece
      exact (h part hpart).2.2
    have hne : path.map String.toList ≠ [] := fun hnil => hempty (List.map_eq_nil_iff.mp hnil)
    rw [splitSlash_intercalate hne hpieces, List.map_map]
    have hid : path.map (String.ofList ∘ String.toList) = path := by
      calc path.map (String.ofList ∘ String.toList)
          = path.map id := List.map_congr_left fun part _ => String.ofList_toList
        _ = path := List.map_id path
    rw [hid, hkept]

/-- The text of a relative path is read as the path. -/
theorem partsOf_relativeText {path : Parts} (h : Spelled path) : partsOf (relativeText path).toList = path := by
  unfold relativeText
  split
  · rename_i hempty
    rw [hempty]
    decide
  · have hslash : partsOf ('/' :: ['/'].intercalate (path.map String.toList)) =
        partsOf (['/'].intercalate (path.map String.toList)) := by
      unfold partsOf
      rw [splitSlash, if_pos rfl, List.map_cons, List.filter_cons_of_neg (by decide)]
    rw [String.toList_intercalate]
    exact hslash.symm.trans (partsOf_slash_intercalate h)

/-- The text of a path starts with a character that is no slash. -/
theorem head_intercalate {part : String} {path : Parts} (h : Spelled (part :: path)) :
    ∃ char later, ['/'].intercalate ((part :: path).map String.toList) = char :: later ∧ char ≠ '/' := by
  obtain ⟨hne, -, hslash⟩ := h part List.mem_cons_self
  cases hpart : part.toList with
  | nil => exact absurd (String.toList_eq_nil_iff.mp hpart) hne
  | cons char rest =>
      have hchar : char ≠ '/' := by
        intro heq
        rw [hpart, heq] at hslash
        exact hslash List.mem_cons_self
      rw [List.map_cons, hpart]
      cases path with
      | nil => exact ⟨char, rest, by rw [List.map_nil, List.intercalate_singleton], hchar⟩
      | cons next path =>
          rw [List.map_cons, List.intercalate_cons_cons]
          exact ⟨char, _, rfl, hchar⟩

/-- The text of a relative path is read as a relative path. -/
theorem ofString_relativeText {path : Parts} (h : Spelled path) :
    ofString (relativeText path) = ⟨.relative, path⟩ := by
  have hanchor : anchorOf (relativeText path).toList = .relative := by
    unfold relativeText
    split
    · rfl
    · rename_i hempty
      obtain ⟨part, path, rfl⟩ := List.exists_cons_of_ne_nil hempty
      obtain ⟨char, later, hlater, hchar⟩ := head_intercalate h
      rw [String.toList_intercalate]
      show anchorOf (['/'].intercalate _) = _
      rw [hlater]
      unfold anchorOf
      split
      · rename_i heq
        injection heq with heq _
        exact absurd heq hchar
      · rename_i heq
        injection heq with heq _
        exact absurd heq hchar
      · rename_i heq
        injection heq with heq _
        exact absurd heq hchar
      · rfl
  unfold ofString
  rw [hanchor, partsOf_relativeText h]

theorem relativeText_ne_empty {path : Parts} (h : Spelled path) : relativeText path ≠ "" := by
  intro hempty
  have hparts := partsOf_relativeText h
  rw [hempty, show partsOf "".toList = [] from by decide] at hparts
  rw [← hparts] at hempty
  exact absurd hempty (by decide)

/-- The text of an absolute path is read as the path. -/
theorem ofString_absoluteText {path : Parts} (h : Spelled path) :
    ofString (absoluteText path) = ⟨.root, path⟩ := by
  have htext : (absoluteText path).toList = '/' :: ['/'].intercalate (path.map String.toList) := by
    unfold absoluteText
    rw [String.toList_append, String.toList_intercalate]
    rfl
  have hanchor : anchorOf ('/' :: ['/'].intercalate (path.map String.toList)) = .root := by
    cases path with
    | nil => rfl
    | cons part path =>
        obtain ⟨char, later, hlater, hchar⟩ := head_intercalate h
        rw [hlater]
        unfold anchorOf
        split
        · rename_i heq
          injection heq with _ heq
          injection heq with heq _
          exact absurd heq hchar
        · rename_i heq
          injection heq with _ heq
          injection heq with heq _
          exact absurd heq hchar
        · rfl
        · rename_i hnone
          exact absurd rfl (hnone _)
  unfold ofString
  rw [htext, hanchor, partsOf_slash_intercalate h]

theorem absoluteText_ne_empty (path : Parts) : absoluteText path ≠ "" := by
  intro h
  have htext := congrArg String.toList h
  unfold absoluteText at htext
  rw [String.toList_append] at htext
  exact absurd htext (by simp)

/-! ## The characters of a path -/

theorem mem_of_mem_splitSlash {text piece : List Char} {char : Char} (h : piece ∈ splitSlash text)
    (hchar : char ∈ piece) : char ∈ text := by
  induction text generalizing piece with
  | nil =>
      rw [List.mem_singleton.mp h] at hchar
      exact absurd hchar List.not_mem_nil
  | cons first text ih =>
      unfold splitSlash at h
      split at h
      · rcases List.mem_cons.mp h with rfl | h
        · exact absurd hchar List.not_mem_nil
        · exact List.mem_cons_of_mem _ (ih h hchar)
      · split at h
        · rw [List.mem_singleton.mp h] at hchar
          exact List.mem_cons.mpr ((List.mem_cons.mp hchar).imp_right fun hnil => absurd hnil List.not_mem_nil)
        · next piece' pieces heq =>
            rcases List.mem_cons.mp h with rfl | h
            · rcases List.mem_cons.mp hchar with rfl | hchar
              · exact List.mem_cons_self
              · exact List.mem_cons_of_mem _ (ih (heq ▸ List.mem_cons_self) hchar)
            · exact List.mem_cons_of_mem _ (ih (heq ▸ List.mem_cons_of_mem _ h) hchar)

theorem mem_intercalate {pieces : List (List Char)} {separator char : Char}
    (h : char ∈ [separator].intercalate pieces) : char = separator ∨ ∃ piece ∈ pieces, char ∈ piece := by
  induction pieces with
  | nil => exact absurd h List.not_mem_nil
  | cons piece pieces ih =>
      cases pieces with
      | nil =>
          rw [List.intercalate_singleton] at h
          exact .inr ⟨piece, List.mem_cons_self, h⟩
      | cons next pieces =>
          rw [List.intercalate_cons_cons, List.append_assoc, List.singleton_append, List.mem_append,
            List.mem_cons] at h
          rcases h with h | h | h
          · exact .inr ⟨piece, List.mem_cons_self, h⟩
          · exact .inl h
          · exact (ih h).imp_right fun ⟨other, hmem, hother⟩ => ⟨other, List.mem_cons_of_mem _ hmem, hother⟩

/-- The text of a path with components of another text has no characters of its own but slashes. -/
theorem mem_absoluteText {parts : Parts} {text : List Char} {char : Char} (hparts : parts ⊆ partsOf text)
    (h : char ∈ (absoluteText parts).toList) : char = '/' ∨ char ∈ text := by
  rw [absoluteText, String.toList_append, String.toList_intercalate, List.mem_append] at h
  rcases h with h | h
  · exact .inl (List.mem_singleton.mp h)
  · refine (mem_intercalate h).imp_right ?_
    rintro ⟨piece, hmem, hchar⟩
    obtain ⟨part, hpart, rfl⟩ := List.mem_map.mp hmem
    obtain ⟨source, hsource, rfl⟩ := List.mem_map.mp (List.mem_filter.mp (hparts hpart)).1
    rw [String.toList_ofList] at hchar
    exact mem_of_mem_splitSlash hsource hchar

end RawPath

end Hearth.Library
