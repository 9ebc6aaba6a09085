import Hearth.Closure.SecureRead

/-!
# Reads in a tree at rest

Where nobody changes the tree and no call fails for a reason of its own, the read of `SecureRead.lean` returns
exactly what the path names: there is a file to return precisely if every directory on the way is a directory that
may be listed and searched, and the last name is that of a readable regular file.  In particular a path with a link
on it, wherever the link leads, is refused.
-/

namespace Hearth.Closure

open Hearth.Library

variable {Ino Byte : Type}

/-- Nobody changes the tree, and no call fails for a reason of its own. -/
def AtRest (history : History Ino Byte) (fs : FileSystem Ino (List Byte)) : Prop :=
  ∀ time, (history time).fs = fs ∧ (history time).fails = false ∧ (history time).closeFails = false

/-- The directory that a path leads to through directories that can be opened. -/
def descend (fs : FileSystem Ino (List Byte)) : Ino → Parts → Option Ino
  | dir, [] => some dir
  | dir, name :: path =>
      match fs.entry dir name with
      | .found child => if openable true (fs.node child) then descend fs child path else none
      | _ => none

/-- The path names a readable regular file beneath the trusted directory. -/
def NamesFile (fs : FileSystem Ino (List Byte)) (rootIno : Ino) (root path : Parts) (content : List Byte) : Prop :=
  Parts.Within path root ∧ path ≠ root ∧ openable true (fs.node rootIno) ∧ ∃ dir leaf mode,
    descend fs rootIno path.dropLast = some dir ∧ fs.entry dir (path.getLastD "") = .found leaf ∧
      fs.node leaf = .regular true content mode

variable {fs : FileSystem Ino (List Byte)} {history : History Ino Byte} {caller after : Caller Ino}
  {descriptor : Descriptor Ino} {current leaf : ℕ} {path : Parts}

theorem descend_cons (dir : Ino) (name : String) (path : Parts) :
    descend fs dir (name :: path) =
      match fs.entry dir name with
      | .found child => if openable true (fs.node child) then descend fs child path else none
      | _ => none := rfl

theorem descend_append (dir : Ino) (path rest : Parts) :
    descend fs dir (path ++ rest) = (descend fs dir path).bind fun middle => descend fs middle rest := by
  induction path generalizing dir with
  | nil => rfl
  | cons name path ih =>
      rw [List.cons_append, descend_cons, descend_cons]
      cases fs.entry dir name with
      | found child =>
          by_cases hopens : openable true (fs.node child)
          · simp only [if_pos hopens]
            exact ih child
          · simp only [if_neg hopens]
            rfl
      | _ => rfl

/-- The names on the way stand in directories. -/
theorem component_of_descend {dir ino : Ino} (h : descend fs dir path = some ino) :
    ∀ part ∈ path, Parts.Component part := by
  induction path generalizing dir with
  | nil => simp
  | cons name path ih =>
      unfold descend at h
      cases hentry : fs.entry dir name with
      | found child =>
          rw [hentry] at h
          simp only at h
          split at h
          · obtain ⟨listable, entries, hnode, hmem⟩ := FileSystem.entry_eq_found.mp hentry
            intro part hpart
            rcases List.mem_cons.mp hpart with rfl | hrest
            · exact fs.spelled hnode _ hmem
            · exact ih h part hrest
          · cases h
      | missing => rw [hentry] at h; cases h
      | denied => rw [hentry] at h; cases h

/-! ## The calls at rest -/

theorem openAt_rest (hrest : AtRest history fs) (hcurrent : caller.descriptor? current = some descriptor)
    (directory : Bool) (name : String) :
    openAt history directory current name caller =
      match fs.entry descriptor.ino name with
      | .found child =>
          if openable directory (fs.node child) then (some caller.freeNumber, caller.install child)
          else (none, caller.tick)
      | _ => (none, caller.tick) := by
  obtain ⟨hfs, hfails, -⟩ := hrest caller.clock
  unfold openAt
  simp only [hcurrent, hfs, hfails, Bool.false_or]
  cases fs.entry descriptor.ino name with
  | found child => by_cases hopens : openable directory (fs.node child) <;> simp [hopens]
  | _ => rfl

/-- The first loop follows `descend`. -/
theorem openChain_rest (hrest : AtRest history fs) (hcurrent : caller.descriptor? current = some descriptor) :
    match descend fs descriptor.ino path with
    | some ino => ∃ number after reached, openChain history current path caller = (some number, after) ∧
        after.descriptor? number = some reached ∧ reached.ino = ino
    | none => (openChain history current path caller).1 = none := by
  induction path generalizing current caller descriptor with
  | nil => exact ⟨current, caller, descriptor, rfl, hcurrent, rfl⟩
  | cons name path ih =>
      unfold descend openChain
      rw [openAt_rest hrest hcurrent]
      cases hentry : fs.entry descriptor.ino name with
      | found child =>
          by_cases hopens : openable true (fs.node child)
          · simp only [if_pos hopens]
            have hkept : (caller.install child).descriptor? current = some descriptor :=
              Caller.install_descriptor? hcurrent
            have hclose : close history current (caller.install child) =
                (true, ⟨caller.clock + 2, (caller.install child).without [current]⟩) :=
              Prod.ext (close_ok hkept (hrest _).2.2) close_caller
            have hne : caller.freeNumber ≠ current := by
              have hfree := Caller.freeNumber_ne (Caller.mem_of_descriptor? hcurrent)
              rw [Caller.number_of_descriptor? hcurrent] at hfree
              exact hfree.symm
            have hinstalled : (caller.install child).descriptor? caller.freeNumber =
                some ⟨caller.freeNumber, child, 0⟩ := Caller.install_descriptor?_self
            simp only [hclose]
            exact ih (Caller.without_descriptor? hinstalled hne _)
          · simp only [if_neg hopens]
      | _ => rfl

/-- So does the second. -/
theorem openBelow_rest (hrest : AtRest history fs) (hcurrent : caller.descriptor? current = some descriptor)
    (descriptors : List ℕ) :
    match descend fs descriptor.ino path with
    | some ino => ∃ number opened after reached,
        openBelow history current descriptors path caller = ((some number, opened), after) ∧
          after.descriptor? number = some reached ∧ reached.ino = ino
    | none => (openBelow history current descriptors path caller).1.1 = none := by
  induction path generalizing current caller descriptor descriptors with
  | nil => exact ⟨current, descriptors, caller, descriptor, rfl, hcurrent, rfl⟩
  | cons name path ih =>
      unfold descend openBelow
      rw [openAt_rest hrest hcurrent]
      cases hentry : fs.entry descriptor.ino name with
      | found child =>
          by_cases hopens : openable true (fs.node child)
          · simp only [if_pos hopens]
            exact ih Caller.install_descriptor?_self _
          · simp only [if_neg hopens]
      | _ => rfl

theorem openDirectoryNofollow_rest (hrest : AtRest history fs) {rootIno : Ino} (hclean : Parts.Clean path) :
    match if openable true (fs.node rootIno) then descend fs rootIno path else none with
    | some ino => ∃ number after reached, openDirectoryNofollow history rootIno path caller = (some number, after) ∧
        after.descriptor? number = some reached ∧ reached.ino = ino
    | none => (openDirectoryNofollow history rootIno path caller).1 = none := by
  obtain ⟨hfs, hfails, -⟩ := hrest caller.clock
  unfold openDirectoryNofollow openRoot
  simp only [hfs, hfails, Bool.false_or, Parts.abspath_clean hclean]
  by_cases hopens : openable true (fs.node rootIno)
  · simp only [hopens, Bool.not_true, Bool.false_eq_true, if_false, if_true]
    exact openChain_rest hrest Caller.install_descriptor?_self
  · simp only [Bool.not_eq_true] at hopens
    simp only [hopens, Bool.not_false, Bool.false_eq_true, if_false, if_true]

/-- The read loop returns the whole file. -/
theorem readChunks_rest (hrest : AtRest history fs) {readable : Bool} {content : List Byte} {mode fuel : ℕ}
    {data : List Byte} (hleaf : caller.descriptor? leaf = some descriptor)
    (hnode : fs.node descriptor.ino = .regular readable content mode) (hoffset : descriptor.offset = data.length)
    (hdata : content.take data.length = data) (hfuel : content.length < fuel + data.length) :
    (readChunks history leaf fuel data caller).1 = some (some content) := by
  induction fuel generalizing data caller descriptor with
  | zero =>
      have hlength := congrArg List.length hdata
      rw [List.length_take] at hlength
      omega
  | succ fuel ih =>
      obtain ⟨hfs, hfails, -⟩ := hrest caller.clock
      unfold readChunks readBytes
      simp only [hleaf, hfs, hfails, hnode]
      generalize hchunk : (content.drop descriptor.offset).take
        (min chunkSize ((history caller.clock).granted + 1)) = chunk
      cases chunk with
      | nil =>
          -- nothing is left, for a read asks for at least one byte
          have hend : content.length ≤ data.length := by
            have hlength := congrArg List.length hchunk
            rw [List.length_take, List.length_drop, hoffset, List.length_nil] at hlength
            have hpositive : 0 < min chunkSize ((history caller.clock).granted + 1) :=
              Nat.lt_min.mpr ⟨by decide, Nat.succ_pos _⟩
            omega
          rw [List.take_of_length_le hend] at hdata
          rw [hdata]
      | cons head tail =>
          have hprefix : content.take (data ++ head :: tail).length = data ++ head :: tail := by
            have hlength := congrArg List.length hchunk
            rw [List.length_take] at hlength
            rw [List.length_append, List.take_add, hdata, ← hoffset, ← hchunk, List.length_take]
            congr 1
            rw [List.take_eq_take_iff]
            omega
          exact ih (Caller.advance_descriptor? hleaf _) hnode (by simp [hoffset]) hprefix
            (by rw [List.length_append, List.length_cons]; omega)

/-! ## The read -/

/-- An open file at rest: its content is returned. -/
theorem readLeaf_rest (hrest : AtRest history fs) {fuel : ℕ} {content : List Byte}
    (hleaf : caller.descriptor? leaf = some descriptor) (hoffset : descriptor.offset = 0)
    (hfuel : content.length < fuel) :
    (readLeaf history leaf fuel caller).1 = some (.ok ⟨content, content.length⟩) ↔
      ∃ readable mode, fs.node descriptor.ino = .regular readable content mode := by
  constructor
  · intro h
    obtain ⟨-, -, ⟨readable, stands, mode, hnode, hlength⟩, hstood⟩ :=
      readLeaf_some (Prod.ext h rfl) hleaf hoffset
    rw [(hrest _).1] at hnode
    have hsame : content = stands := by
      refine List.ext_getElem? fun index => ?_
      rcases Nat.lt_or_ge index content.length with hlt | hge
      · obtain ⟨time, -, -, readable', content', mode', hnode', hbyte⟩ :=
          hstood index content[index] (List.getElem?_eq_getElem hlt)
        rw [(hrest time).1, hnode] at hnode'
        cases hnode'
        rw [List.getElem?_eq_getElem hlt, hbyte]
      · have hge' : stands.length ≤ index := hlength ▸ hge
        rw [List.getElem?_eq_none hge, List.getElem?_eq_none hge']
    exact ⟨readable, mode, hsame ▸ hnode⟩
  · rintro ⟨readable, mode, hnode⟩
    obtain ⟨hfs, hfails, -⟩ := hrest caller.clock
    have hstat : fstat history leaf caller = (some (fs.node descriptor.ino), caller.tick) := by
      simp [fstat, hleaf, hfs, hfails]
    have hchunks : (readChunks history leaf fuel [] caller.tick).1 = some (some content) :=
      readChunks_rest hrest hleaf hnode hoffset rfl hfuel
    unfold readLeaf
    rw [hstat, hnode]
    simp [hchunks]

/-- A path that names a file has no empty or dotted name below the trusted directory. -/
theorem NamesFile.components {rootIno : Ino} {root : Parts} {content : List Byte}
    (h : NamesFile fs rootIno root (Parts.abspath path) content) :
    ∀ part ∈ Parts.abspath path, part ∉ ["", ".", ".."] := by
  obtain ⟨-, -, -, dir, leaf, mode, hdescend, hentry, -⟩ := h
  obtain ⟨listable, entries, hnode, hmem⟩ := FileSystem.entry_eq_found.mp hentry
  intro part hpart
  have hcomponent : Parts.Component part := by
    have hne : Parts.abspath path ≠ [] := List.ne_nil_of_mem hpart
    rw [← List.dropLast_concat_getLast hne, List.mem_append, List.mem_singleton] at hpart
    rcases hpart with hbefore | rfl
    · exact component_of_descend hdescend part hbefore
    · have hlast := fs.spelled hnode _ hmem
      rwa [List.getLastD_eq_getLast?, List.getLast?_eq_some_getLast hne] at hlast
  have hclean : part ≠ ".." := fun hdots => Parts.abspath_isClean path (hdots ▸ hpart)
  simp [hcomponent.1, hcomponent.2.1, hclean]

/-- **At rest.**  The read returns `content` exactly if the path names a readable regular file with this content,
through directories that can be opened, beneath the trusted directory. -/
theorem read_beneath_at_rest (hrest : AtRest history fs) (rootIno : Ino) (root path : Parts)
    (caller : Caller Ino) {content : List Byte} {fuel : ℕ} (hfuel : content.length < fuel) :
    (readRegularFileBeneath history rootIno root path fuel caller).1 = some (.ok ⟨content, content.length⟩) ↔
      NamesFile fs rootIno (Parts.abspath root) (Parts.abspath path) content := by
  unfold readRegularFileBeneath
  simp only
  by_cases hwithin : ¬ Parts.Within (Parts.abspath path) (Parts.abspath root)
  · rw [if_pos hwithin]
    exact ⟨fun h => (by cases h), fun h => absurd h.1 hwithin⟩
  rw [if_neg hwithin]
  have hsplit := (not_not.mp hwithin).eq_append
  by_cases hclean : Parts.relativeTo (Parts.abspath path) (Parts.abspath root) = [] ∨
      ∃ part ∈ Parts.relativeTo (Parts.abspath path) (Parts.abspath root), part ∈ ["", ".", ".."]
  · rw [if_pos hclean]
    refine ⟨fun h => (by cases h), fun h => ?_⟩
    rcases hclean with hnil | ⟨part, hpart, hdots⟩
    · rw [hnil, List.append_nil] at hsplit
      exact absurd hsplit h.2.1
    · exact absurd hdots (h.components part (hsplit ▸ List.mem_append_right _ hpart))
  rw [if_neg hclean]
  have hne : Parts.relativeTo (Parts.abspath path) (Parts.abspath root) ≠ [] := fun hnil => hclean (.inl hnil)
  generalize Parts.relativeTo (Parts.abspath path) (Parts.abspath root) = relative at hsplit hne ⊢
  have hnames : NamesFile fs rootIno (Parts.abspath root) (Parts.abspath path) content ↔
      ∃ dir leaf mode, (if openable true (fs.node rootIno) then descend fs rootIno (Parts.abspath root) else none).bind
          (descend fs · relative.dropLast) = some dir ∧
        fs.entry dir (relative.getLastD "") = .found leaf ∧ fs.node leaf = .regular true content mode := by
    have hlast : (Parts.abspath root ++ relative).getLastD "" = relative.getLastD "" := by
      rw [List.getLastD_eq_getLast?, List.getLastD_eq_getLast?, List.getLast?_append_of_ne_nil _ hne]
    have hproper : Parts.abspath root ++ relative ≠ Parts.abspath root := by simpa using hne
    unfold NamesFile
    rw [hsplit, List.dropLast_append_of_ne_nil hne, descend_append, hlast]
    by_cases hopens : openable true (fs.node rootIno)
    · simp [hopens, hproper, Parts.within_append]
    · simp [hopens]
  rw [hnames]
  have hroot := @openDirectoryNofollow_rest _ _ fs history caller _ hrest rootIno (Parts.abspath_isClean root)
  generalize (if openable true (fs.node rootIno) then descend fs rootIno (Parts.abspath root) else none) = trusted
    at hroot ⊢
  cases trusted with
  | none =>
      cases hopen : openDirectoryNofollow history rootIno (Parts.abspath root) caller with
      | mk found opened =>
      rw [hopen] at hroot
      obtain rfl : found = none := hroot
      exact ⟨fun h => (by cases h), fun ⟨dir, leaf, mode, hdescend, _⟩ => (by cases hdescend)⟩
  | some trustedIno =>
      obtain ⟨trusted, opened, dir, hopen, hdir, rfl⟩ := hroot
      rw [hopen]
      simp only [Option.bind_some]
      have hbelow := @openBelow_rest _ _ fs history opened dir trusted relative.dropLast hrest hdir [trusted]
      cases hdescend : descend fs dir.ino relative.dropLast with
      | none =>
          rw [hdescend] at hbelow
          cases hopens : openBelow history trusted [trusted] relative.dropLast opened with
          | mk answer below =>
          obtain ⟨found, descriptors⟩ := answer
          rw [hopens] at hbelow
          obtain rfl : found = none := hbelow
          exact ⟨fun h => (by cases h), fun ⟨dir, leaf, mode, hdescend, _⟩ => (by cases hdescend)⟩
      | some parentIno =>
          rw [hdescend] at hbelow
          obtain ⟨parent, descriptors, below, reached, hopens, hreached, rfl⟩ := hbelow
          rw [hopens]
          simp only [Option.some.injEq, exists_and_left, exists_eq_left']
          rw [openAt_rest hrest hreached]
          cases hentry : fs.entry reached.ino (relative.getLastD "") with
          | missing => exact ⟨fun h => (by cases h), fun ⟨leaf, hfound, _⟩ => (by cases hfound)⟩
          | denied => exact ⟨fun h => (by cases h), fun ⟨leaf, hfound, _⟩ => (by cases hfound)⟩
          | found leaf =>
              by_cases hleaf : openable false (fs.node leaf)
              · simp only [if_pos hleaf]
                refine (readLeaf_rest hrest Caller.install_descriptor?_self rfl hfuel).trans
                  ⟨fun ⟨readable, mode, hnode⟩ => ⟨leaf, rfl, mode, ?_⟩, fun ⟨found, hfound, mode, hnode⟩ => ?_⟩
                · dsimp only at hnode
                  rw [hnode] at hleaf ⊢
                  simp only [openable, Bool.not_false, Bool.and_true] at hleaf
                  rw [hleaf]
                · cases hfound
                  exact ⟨true, mode, hnode⟩
              · simp only [if_neg hleaf]
                refine ⟨fun h => (by cases h), fun ⟨found, hfound, mode, hnode⟩ => ?_⟩
                cases hfound
                rw [hnode] at hleaf
                exact absurd rfl hleaf

/-! ## A link beside a file -/

/-- The trusted directory 1 holds the file 2, and a link to it. -/
def trustedTree : FileSystem ℕ (List ℕ) where
  node
    | 0 => .directory true true [("trusted", 1)]
    | 1 => .directory true true [("file", 2), ("link", 3)]
    | 3 => .link
    | _ => .regular true [7] 0o644
  follow := fun _ => .found 2
  height
    | 0 => 1
    | _ => 0
  follow_end := by
    intro ino next h
    cases h
    rfl
  names := by
    intro dir listable searchable entries h
    split at h <;> cases h <;> decide
  spelled := by
    intro dir listable searchable entries h
    split at h <;> cases h <;> decide
  height_lt := by
    intro dir listable searchable entries h
    split at h <;> cases h <;> simp [Node.isDirectory]

/-- The file is returned, and by way of the link it is not. -/
theorem read_beneath_at_rest_link :
    (readRegularFileBeneath (fun _ => ⟨trustedTree, false, false, 0⟩) 0 ["trusted"] ["trusted", "file"] 2
        ⟨0, []⟩).1 = some (.ok ⟨[7], 1⟩) ∧
      (readRegularFileBeneath (fun _ => ⟨trustedTree, false, false, 0⟩) 0 ["trusted"] ["trusted", "link"] 2
        ⟨0, []⟩).1 ≠ some (.ok ⟨[7], 1⟩) := by
  have hrest : AtRest (fun _ => ⟨trustedTree, false, false, 0⟩) trustedTree := fun _ => ⟨rfl, rfl, rfl⟩
  have hlength : [7].length < 2 := by decide
  constructor
  · refine (read_beneath_at_rest hrest 0 ["trusted"] ["trusted", "file"] ⟨0, []⟩ hlength).mpr ?_
    exact ⟨by decide, by decide, rfl, 1, 2, 0o644, rfl, rfl, rfl⟩
  · intro hread
    obtain ⟨-, -, -, dir, leaf, mode, hdescend, hentry, hnode⟩ :=
      (read_beneath_at_rest hrest 0 ["trusted"] ["trusted", "link"] ⟨0, []⟩ hlength).mp hread
    cases hdescend
    cases hentry
    cases hnode

end Hearth.Closure
