import Hearth.Library.Association
import Hearth.Library.PosixPath
import Mathlib.Data.List.Nodup

/-!
# File systems with symbolic links

A file system gives what stands at each inode.  The entries of a directory carry names; a path is resolved along
them, either with every symbolic link followed or with none.  Where a link leads in the end is data of the file
system: nothing, a place that may not be searched, or an inode that is no link.  Directories have one parent, so
that the directories beneath a directory are less high than it, and the walk through them ends.
-/

namespace Hearth.Library

/-- What stands at an inode. -/
inductive Node (Ino Content : Type)
  /-- with its permission bits and whether it may be read -/
  | regular (readable : Bool) (content : Content) (mode : ℕ)
  /-- whether its names may be listed and whether they may be searched -/
  | directory (listable searchable : Bool) (entries : List (String × Ino))
  | link
  /-- a pipe, a socket or a device -/
  | special

namespace Node

variable {Ino Content : Type}

def isLink : Node Ino Content → Bool
  | .link => true
  | _ => false

def isRegular : Node Ino Content → Bool
  | .regular .. => true
  | _ => false

def isDirectory : Node Ino Content → Bool
  | .directory .. => true
  | _ => false

end Node

/-- What the resolution of a path comes to. -/
inductive Resolved (Ino : Type)
  | missing
  | denied
  | found (ino : Ino)
  deriving DecidableEq

namespace Resolved

variable {Ino : Type}

def bind (place : Resolved Ino) (next : Ino → Resolved Ino) : Resolved Ino :=
  match place with
  | .missing => .missing
  | .denied => .denied
  | .found ino => next ino

@[simp] theorem bind_found (ino : Ino) (next : Ino → Resolved Ino) : (found ino).bind next = next ino := rfl

@[simp] theorem bind_missing (next : Ino → Resolved Ino) : (missing : Resolved Ino).bind next = .missing := rfl

@[simp] theorem bind_denied (next : Ino → Resolved Ino) : (denied : Resolved Ino).bind next = .denied := rfl

theorem bind_eq_found {place : Resolved Ino} {next : Ino → Resolved Ino} {ino : Ino} :
    place.bind next = .found ino ↔ ∃ middle, place = .found middle ∧ next middle = .found ino := by
  constructor
  · intro h
    cases place with
    | missing => cases h
    | denied => cases h
    | found middle => exact ⟨middle, rfl, h⟩
  · rintro ⟨middle, rfl, h⟩
    exact h

theorem bind_assoc (place : Resolved Ino) (next after : Ino → Resolved Ino) :
    (place.bind next).bind after = place.bind fun ino => (next ino).bind after := by
  cases place <;> rfl

theorem bind_self (place : Resolved Ino) : place.bind .found = place := by
  cases place <;> rfl

end Resolved

structure FileSystem (Ino Content : Type) where
  node : Ino → Node Ino Content
  /-- where a symbolic link leads when all links are followed -/
  follow : Ino → Resolved Ino
  height : Ino → ℕ
  follow_end : ∀ {ino next}, follow ino = .found next → (node next).isLink = false
  names : ∀ {dir listable searchable entries}, node dir = .directory listable searchable entries →
    (entries.map Prod.fst).Nodup
  spelled : ∀ {dir listable searchable entries}, node dir = .directory listable searchable entries →
    ∀ entry ∈ entries, Parts.Component entry.1
  height_lt : ∀ {dir listable searchable entries}, node dir = .directory listable searchable entries →
    ∀ entry ∈ entries, (node entry.2).isDirectory = true → height entry.2 < height dir

namespace FileSystem

variable {Ino Content : Type}

/-! ## Paths -/

section Paths

variable (fs : FileSystem Ino Content)

/-- The inode that a name has in a directory. -/
def entry (dir : Ino) (name : String) : Resolved Ino :=
  match fs.node dir with
  | .directory _ searchable entries =>
      if searchable then
        match entries.lookup name with
        | some child => .found child
        | none => .missing
      else .denied
  | _ => .missing

/-- The inode itself, or where the link leads. -/
def followed (ino : Ino) : Resolved Ino :=
  if (fs.node ino).isLink then fs.follow ino else .found ino

/-- What a path leads to when every link is followed. -/
def stat : Ino → Parts → Resolved Ino
  | ino, [] => .found ino
  | ino, name :: path => (fs.entry ino name).bind fun child => (fs.followed child).bind fun next => stat next path

/-- What a path leads to when the links on the way to its last name are followed. -/
def lstat (dir : Ino) (path : Parts) : Resolved Ino :=
  match path.getLast? with
  | none => .found dir
  | some name => (fs.stat dir path.dropLast).bind fun parent => fs.entry parent name

/-- What a path leads to through directories alone. -/
def plain : Ino → Parts → Resolved Ino
  | ino, [] => .found ino
  | ino, name :: path => (fs.entry ino name).bind fun child => plain child path

/-- The paths beneath a directory, to a number of levels; a directory that may not be listed shows nothing. -/
def walk : ℕ → Ino → List Parts
  | 0, _ => []
  | levels + 1, dir =>
      match fs.node dir with
      | .directory true searchable entries =>
          entries.flatMap fun entry =>
            [entry.1] :: if searchable then (walk levels entry.2).map (entry.1 :: ·) else []
      | _ => []

/-- All paths beneath a directory that the listing of directories shows; links are shown and not followed. -/
def rglob (dir : Ino) : List Parts :=
  fs.walk (fs.height dir + 1) dir

/-- A directory whose names are shown. -/
def Listable (dir : Ino) : Prop :=
  ∃ searchable entries, fs.node dir = .directory true searchable entries

/-- A path that the listing of directories shows. -/
inductive Shown : Ino → Parts → Prop
  | here {dir : Ino} {searchable : Bool} {entries : List (String × Ino)} {name : String} {child : Ino}
      (hnode : fs.node dir = .directory true searchable entries) (hmem : (name, child) ∈ entries) :
      Shown dir [name]
  | inside {dir : Ino} {entries : List (String × Ino)} {name : String} {child : Ino} {path : Parts}
      (hnode : fs.node dir = .directory true true entries) (hmem : (name, child) ∈ entries)
      (hpath : Shown child path) : Shown dir (name :: path)

end Paths

variable {fs : FileSystem Ino Content}

theorem mem_walk {levels : ℕ} {dir : Ino} {path : Parts} (h : fs.height dir < levels) :
    path ∈ fs.walk levels dir ↔ fs.Shown dir path := by
  induction levels generalizing dir path with
  | zero => omega
  | succ levels ih =>
      constructor
      · intro hmem
        unfold walk at hmem
        split at hmem
        · rename_i searchable entries hnode
          obtain ⟨⟨name, child⟩, hentry, hmem⟩ := List.mem_flatMap.mp hmem
          rcases List.mem_cons.mp hmem with rfl | hmem
          · exact .here hnode hentry
          split at hmem
          · rename_i hsearch
            obtain ⟨rest, hrest, rfl⟩ := List.mem_map.mp hmem
            subst hsearch
            by_cases hdir : (fs.node child).isDirectory = true
            · have hlt := fs.height_lt hnode _ hentry hdir
              exact .inside hnode hentry ((ih (hlt.trans_le (Nat.le_of_lt_succ h))).mp hrest)
            · refine absurd hrest ?_
              cases levels with
              | zero => exact List.not_mem_nil
              | succ levels =>
                  unfold walk
                  split
                  · rename_i hchild
                    rw [hchild] at hdir
                    exact absurd rfl hdir
                  · exact List.not_mem_nil
          · exact absurd hmem List.not_mem_nil
        · exact absurd hmem List.not_mem_nil
      · intro hshown
        cases hshown with
        | here hnode hentry =>
            unfold walk
            rw [hnode]
            exact List.mem_flatMap.mpr ⟨_, hentry, List.mem_cons_self⟩
        | @inside _ entries name child path hnode hentry hpath =>
            have hdir : (fs.node child).isDirectory = true := by
              cases hpath with
              | here hchild => rw [hchild]; rfl
              | inside hchild => rw [hchild]; rfl
            have hlt : fs.height child < fs.height dir := fs.height_lt hnode _ hentry hdir
            unfold walk
            rw [hnode]
            refine List.mem_flatMap.mpr ⟨_, hentry, List.mem_cons_of_mem _ ?_⟩
            exact List.mem_map_of_mem ((ih (hlt.trans_le (Nat.le_of_lt_succ h))).mpr hpath)

theorem mem_rglob {dir : Ino} {path : Parts} : path ∈ fs.rglob dir ↔ fs.Shown dir path :=
  mem_walk (Nat.lt_succ_self _)

/-! ## Resolution step by step -/

theorem entry_eq_found {dir child : Ino} {name : String} :
    fs.entry dir name = .found child ↔
      ∃ listable entries, fs.node dir = .directory listable true entries ∧ (name, child) ∈ entries := by
  unfold entry
  constructor
  · intro h
    split at h
    · rename_i listable searchable entries hnode
      split at h
      · rename_i hsearch
        subst hsearch
        split at h
        · rename_i other hlookup
          cases h
          exact ⟨listable, entries, hnode, mem_of_lookup hlookup⟩
        · cases h
      · cases h
    · cases h
  · rintro ⟨listable, entries, hnode, hmem⟩
    have hlookup : entries.lookup name = some child := lookup_eq_some_of_agree hmem fun other hother =>
      congrArg Prod.snd (List.inj_on_of_nodup_map (fs.names hnode) hother hmem rfl)
    rw [hnode]
    dsimp only
    rw [if_pos rfl, hlookup]

theorem isDirectory_of_entry {dir child : Ino} {name : String} (h : fs.entry dir name = .found child) :
    (fs.node dir).isDirectory = true := by
  obtain ⟨listable, entries, hnode, -⟩ := entry_eq_found.mp h
  rw [hnode]
  rfl

theorem followed_directory {ino : Ino} (h : (fs.node ino).isDirectory = true) : fs.followed ino = .found ino := by
  unfold followed
  cases hnode : fs.node ino with
  | link =>
      rw [hnode] at h
      cases h
  | _ => rfl

theorem followed_of_not_link {ino : Ino} (h : (fs.node ino).isLink = false) : fs.followed ino = .found ino := by
  unfold followed
  rw [h]
  rfl

theorem plain_append (dir : Ino) (path rest : Parts) :
    fs.plain dir (path ++ rest) = (fs.plain dir path).bind fun middle => fs.plain middle rest := by
  induction path generalizing dir with
  | nil => rfl
  | cons name path ih =>
      show (fs.entry dir name).bind (fun child => fs.plain child (path ++ rest)) = _
      simp only [ih]
      exact (Resolved.bind_assoc _ _ _).symm

theorem stat_append (dir : Ino) (path rest : Parts) :
    fs.stat dir (path ++ rest) = (fs.stat dir path).bind fun middle => fs.stat middle rest := by
  induction path generalizing dir with
  | nil => rfl
  | cons name path ih =>
      show (fs.entry dir name).bind (fun child => (fs.followed child).bind fun next => fs.stat next (path ++ rest)) = _
      simp only [ih, stat, Resolved.bind_assoc]

/-- On a path through directories only the last name can be a link. -/
theorem stat_of_plain {dir ino : Ino} {path : Parts} (hne : path ≠ []) (h : fs.plain dir path = .found ino) :
    fs.stat dir path = fs.followed ino := by
  induction path generalizing dir with
  | nil => exact absurd rfl hne
  | cons name path ih =>
      obtain ⟨child, hchild, hrest⟩ := Resolved.bind_eq_found.mp h
      show (fs.entry dir name).bind _ = _
      rw [hchild, Resolved.bind_found]
      cases path with
      | nil =>
          cases hrest
          exact Resolved.bind_self _
      | cons next path =>
          obtain ⟨_, hentry, -⟩ := Resolved.bind_eq_found.mp hrest
          rw [followed_directory (isDirectory_of_entry hentry), Resolved.bind_found]
          exact ih (List.cons_ne_nil _ _) hrest

/-! ## What the listing of directories shows -/

theorem Shown.isDirectory {dir : Ino} {path : Parts} (h : fs.Shown dir path) :
    (fs.node dir).isDirectory = true := by
  cases h with
  | here hnode => rw [hnode]; rfl
  | inside hnode => rw [hnode]; rfl

theorem Shown.listable {dir : Ino} {path : Parts} (h : fs.Shown dir path) : fs.Listable dir := by
  cases h with
  | here hnode => exact ⟨_, _, hnode⟩
  | inside hnode => exact ⟨_, _, hnode⟩

theorem Shown.ne_nil {dir : Ino} {path : Parts} (h : fs.Shown dir path) : path ≠ [] := by
  cases h <;> exact List.cons_ne_nil _ _

theorem Shown.spelled {dir : Ino} {path : Parts} (h : fs.Shown dir path) : Parts.Spelled path := by
  induction h with
  | here hnode hmem => exact List.forall_mem_singleton.mpr (fs.spelled hnode _ hmem)
  | inside hnode hmem hpath ih => exact List.forall_mem_cons.mpr ⟨fs.spelled hnode _ hmem, ih⟩

/-- A shown path that is not denied leads through directories. -/
theorem Shown.plain {dir : Ino} {path : Parts} (h : fs.Shown dir path) (hstat : fs.stat dir path ≠ .denied) :
    ∃ ino, fs.plain dir path = .found ino := by
  induction h with
  | @here dir searchable entries name child hnode hmem =>
      cases searchable with
      | true =>
          have hentry : fs.entry dir name = .found child := entry_eq_found.mpr ⟨_, _, hnode, hmem⟩
          exact ⟨child, by rw [FileSystem.plain, hentry]; rfl⟩
      | false =>
          have hentry : fs.entry dir name = .denied := by
            unfold entry
            rw [hnode]
            rfl
          refine absurd ?_ hstat
          rw [stat, hentry]
          rfl
  | @inside dir entries name child path hnode hmem hpath ih =>
      have hentry : fs.entry dir name = .found child := entry_eq_found.mpr ⟨_, _, hnode, hmem⟩
      have hnext : fs.stat dir (name :: path) = fs.stat child path := by
        rw [stat, hentry, Resolved.bind_found, followed_directory hpath.isDirectory, Resolved.bind_found]
      obtain ⟨ino, hino⟩ := ih (hnext ▸ hstat)
      exact ⟨ino, by rw [FileSystem.plain, hentry]; exact hino⟩

/-- A path is shown when all directories on it show their names. -/
theorem shown_of_plain {dir ino : Ino} {path : Parts} (hne : path ≠ []) (h : fs.plain dir path = .found ino)
    (hlist : ∀ front, front <+: path → front ≠ path → ∀ middle, fs.plain dir front = .found middle →
      fs.Listable middle) : fs.Shown dir path := by
  induction path generalizing dir with
  | nil => exact absurd rfl hne
  | cons name path ih =>
      obtain ⟨child, hchild, hrest⟩ := Resolved.bind_eq_found.mp h
      obtain ⟨listable, entries, hnode, hmem⟩ := entry_eq_found.mp hchild
      obtain ⟨searchable, others, hdir⟩ := hlist [] List.nil_prefix (by simp) dir rfl
      rw [hnode] at hdir
      cases hdir
      by_cases hlast : path = []
      · subst hlast
        exact .here hnode hmem
      · refine .inside hnode hmem (ih hlast hrest fun front hfront hother middle hmiddle => ?_)
        refine hlist (name :: front) (List.cons_prefix_cons.mpr ⟨rfl, hfront⟩) (by simpa using hother) middle ?_
        rw [FileSystem.plain, hchild]
        exact hmiddle

/-- What stands in front of a shown path is a directory that shows its names. -/
theorem Shown.front {dir : Ino} {path rest : Parts} (h : fs.Shown dir (path ++ rest)) (hrest : rest ≠ []) :
    ∃ middle, fs.plain dir path = .found middle ∧ fs.Shown middle rest := by
  induction path generalizing dir with
  | nil => exact ⟨dir, rfl, h⟩
  | cons name path ih =>
      generalize hwhole : name :: path ++ rest = whole at h
      cases h with
      | here =>
          rw [List.cons_append, List.cons.injEq] at hwhole
          exact absurd (List.append_eq_nil_iff.mp hwhole.2).2 hrest
      | @inside _ entries _ child later hnode hmem hpath =>
          rw [List.cons_append, List.cons.injEq] at hwhole
          obtain ⟨rfl, rfl⟩ := hwhole
          obtain ⟨middle, hmiddle, hshown⟩ := ih hpath
          refine ⟨middle, ?_, hshown⟩
          rw [FileSystem.plain, entry_eq_found.mpr ⟨_, _, hnode, hmem⟩]
          exact hmiddle

end FileSystem

end Hearth.Library
