import Hearth.Library.Syscalls

/-!
# Reads beneath a trusted directory

`secure_tree_read.py`: a file is read through descriptors, one name at a time and without following a link, while
anybody may change the tree.  What comes back stood in a regular file that was reached from the trusted directory
by entries, each in its place when it was looked up (`read_beneath_confined`).  In a tree at rest the call returns
exactly the bytes of the file that the path names (`read_beneath_at_rest`).

Paths are absolute, as `os.path.abspath` joins them with the working directory.
-/

namespace Hearth.Closure

open Hearth.Library

variable {Ino Byte : Type}

/-- Why a read was refused. -/
inductive SecureReadError
  | escapesRoot
  | notBelowRoot
  | os
  | notRegular
  | sizeChanged
  deriving DecidableEq, Repr

structure SecureFile (Byte : Type) where
  data : List Byte
  size : ℕ
  deriving DecidableEq, Repr

/-- The loop of `open_directory_nofollow`: the next directory is opened before the last one is closed, and the
handler closes the number that `current` still has. -/
def openChain (history : History Ino Byte) (current : ℕ) : Parts → Caller Ino → Option ℕ × Caller Ino
  | [], caller => (some current, caller)
  | component :: rest, caller =>
      match openAt history true current component caller with
      | (none, caller) => (none, (close history current caller).2)
      | (some next, caller) =>
          match close history current caller with
          | (false, caller) => (none, (close history current caller).2)
          | (true, caller) => openChain history next rest caller

/-- `open_directory_nofollow`. -/
def openDirectoryNofollow (history : History Ino Byte) (root : Ino) (path : Parts) (caller : Caller Ino) :
    Option ℕ × Caller Ino :=
  match openRoot history root caller with
  | (none, caller) => (none, caller)
  | (some current, caller) => openChain history current (Parts.abspath path) caller

/-- The loop over the directories below the trusted one, with the numbers opened so far. -/
def openBelow (history : History Ino Byte) (current : ℕ) (descriptors : List ℕ) :
    Parts → Caller Ino → (Option ℕ × List ℕ) × Caller Ino
  | [], caller => ((some current, descriptors), caller)
  | component :: rest, caller =>
      match openAt history true current component caller with
      | (none, caller) => ((none, descriptors), caller)
      | (some next, caller) => openBelow history next (descriptors ++ [next]) rest caller

/-- `1024 * 1024`. -/
def chunkSize : ℕ := 1024 * 1024

/-- The read loop: nothing without fuel, else the bytes, if no call failed. -/
def readChunks (history : History Ino Byte) (leaf : ℕ) :
    ℕ → List Byte → Caller Ino → Option (Option (List Byte)) × Caller Ino
  | 0, _, caller => (none, caller)
  | fuel + 1, data, caller =>
      match readBytes history leaf chunkSize caller with
      | (none, caller) => (some none, caller)
      | (some [], caller) => (some (some data), caller)
      | (some (byte :: chunk), caller) => readChunks history leaf fuel (data ++ byte :: chunk) caller

/-- What is done with the open file. -/
def readLeaf (history : History Ino Byte) (leaf fuel : ℕ) (caller : Caller Ino) :
    Option (Except SecureReadError (SecureFile Byte)) × Caller Ino :=
  match fstat history leaf caller with
  | (none, caller) => (some (.error .os), caller)
  | (some (.regular _ content _), caller) =>
      let (outcome, caller) := readChunks history leaf fuel [] caller
      (outcome.map fun
        | none => .error .os
        | some data => if data.length ≠ content.length then .error .sizeChanged else .ok ⟨data, content.length⟩,
        caller)
  | (some _, caller) => (some (.error .notRegular), caller)

/-- The `finally` block; errors are suppressed. -/
def closeAll (history : History Ino Byte) (numbers : List ℕ) (caller : Caller Ino) : Caller Ino :=
  numbers.foldl (fun caller number => (close history number caller).2) caller

/-- `read_regular_file_beneath`: nothing if the fuel of the read loop runs out. -/
def readRegularFileBeneath (history : History Ino Byte) (rootIno : Ino) (root path : Parts) (fuel : ℕ)
    (caller : Caller Ino) : Option (Except SecureReadError (SecureFile Byte)) × Caller Ino :=
  let lexicalRoot := Parts.abspath root
  let lexicalPath := Parts.abspath path
  if ¬ Parts.Within lexicalPath lexicalRoot then (some (.error .escapesRoot), caller)
  else
    let relative := Parts.relativeTo lexicalPath lexicalRoot
    if relative = [] ∨ ∃ part ∈ relative, part ∈ ["", ".", ".."] then (some (.error .notBelowRoot), caller)
    else
      match openDirectoryNofollow history rootIno lexicalRoot caller with
      | (none, caller) => (some (.error .os), caller)
      | (some trusted, caller) =>
          match openBelow history trusted [trusted] relative.dropLast caller with
          | ((none, descriptors), caller) => (some (.error .os), closeAll history descriptors.reverse caller)
          | ((some parent, descriptors), caller) =>
              match openAt history false parent (relative.getLastD "") caller with
              | (none, caller) => (some (.error .os), closeAll history descriptors.reverse caller)
              | (some leaf, caller) =>
                  let (result, caller) := readLeaf history leaf fuel caller
                  (result, closeAll history (descriptors ++ [leaf]).reverse caller)

/-! ## Where the calls get to -/

section

variable {history : History Ino Byte} {caller after : Caller Ino} {descriptor : Descriptor Ino}
  {current number leaf : ℕ} {descriptors : List ℕ} {path : Parts}

/-- The loop walks from the directory of `current`. -/
theorem openChain_some (h : openChain history current path caller = (some number, after))
    (hcurrent : caller.descriptor? current = some descriptor) :
    ∃ reached, after.descriptor? number = some reached ∧
      Walked history caller.clock descriptor.ino path after.clock reached.ino := by
  induction path generalizing current caller descriptor with
  | nil =>
      cases h
      exact ⟨descriptor, hcurrent, .here (Nat.le_refl _)⟩
  | cons component rest ih =>
      unfold openChain at h
      cases hopen : openAt history true current component caller with
      | mk found opened =>
      rw [hopen] at h
      cases found with
      | none => cases h
      | some next =>
          obtain ⟨dir, child, hdir, hentry, hopens, rfl, rfl⟩ := openAt_some hopen
          obtain rfl := Option.some.inj (hcurrent.symm.trans hdir)
          cases hclose : close history current (caller.install child) with
          | mk closed later =>
          have hlater : later = ⟨caller.clock + 2, (caller.install child).without [current]⟩ := by
            have hcaller : (close history current (caller.install child)).2 = _ := close_caller
            rw [hclose] at hcaller
            exact hcaller
          simp only [hclose] at h
          cases closed with
          | false => cases h
          | true =>
              have hne : caller.freeNumber ≠ current := by
                have hfree := Caller.freeNumber_ne (Caller.mem_of_descriptor? hcurrent)
                rw [Caller.number_of_descriptor? hcurrent] at hfree
                exact hfree.symm
              have hinstalled : (caller.install child).descriptor? caller.freeNumber =
                  some ⟨caller.freeNumber, child, 0⟩ := Caller.install_descriptor?_self
              have hnext := Caller.without_descriptor? hinstalled hne (caller.clock + 2)
              rw [← hlater] at hnext
              obtain ⟨reached, hreached, hwalked⟩ := ih h hnext
              refine ⟨reached, hreached, .step (Nat.le_refl _) hentry (openable_not_link hopens) ?_⟩
              refine hwalked.weaken ?_
              rw [hlater]
              exact Nat.le_succ _

/-- So does the opening of the directory itself, from `/`. -/
theorem openDirectoryNofollow_some {root : Ino}
    (h : openDirectoryNofollow history root path caller = (some number, after)) :
    ∃ reached, after.descriptor? number = some reached ∧
      Walked history caller.clock root (Parts.abspath path) after.clock reached.ino := by
  unfold openDirectoryNofollow at h
  cases hroot : openRoot history root caller with
  | mk found opened =>
  rw [hroot] at h
  cases found with
  | none => cases h
  | some current =>
      obtain ⟨-, rfl, rfl⟩ := openRoot_some hroot
      obtain ⟨reached, hreached, hwalked⟩ := openChain_some h Caller.install_descriptor?_self
      exact ⟨reached, hreached, hwalked.weaken (Nat.le_succ _)⟩

/-- The second loop keeps every directory open. -/
theorem openBelow_some {opened : List ℕ}
    (h : openBelow history current descriptors path caller = ((some number, opened), after))
    (hcurrent : caller.descriptor? current = some descriptor) :
    ∃ reached, after.descriptor? number = some reached ∧
      Walked history caller.clock descriptor.ino path after.clock reached.ino := by
  induction path generalizing current caller descriptor descriptors with
  | nil =>
      cases h
      exact ⟨descriptor, hcurrent, .here (Nat.le_refl _)⟩
  | cons component rest ih =>
      unfold openBelow at h
      cases hopen : openAt history true current component caller with
      | mk found later =>
      rw [hopen] at h
      cases found with
      | none => cases h
      | some next =>
          obtain ⟨dir, child, hdir, hentry, hopens, rfl, rfl⟩ := openAt_some hopen
          obtain rfl := Option.some.inj (hcurrent.symm.trans hdir)
          obtain ⟨reached, hreached, hwalked⟩ := ih h Caller.install_descriptor?_self
          exact ⟨reached, hreached, .step (Nat.le_refl _) hentry (openable_not_link hopens) hwalked⟩

/-! ## What is read -/

/-- The byte stood at this place of the file, at some moment between `start` and `stop`. -/
def Stood (history : History Ino Byte) (start stop : ℕ) (ino : Ino) (index : ℕ) (byte : Byte) : Prop :=
  ∃ time, start ≤ time ∧ time < stop ∧ ∃ readable content mode,
    (history time).fs.node ino = .regular readable content mode ∧ content[index]? = some byte

theorem Stood.mono {start stop earlier later index : ℕ} {ino : Ino} {byte : Byte}
    (h : Stood history start stop ino index byte) (hstart : earlier ≤ start) (hstop : stop ≤ later) :
    Stood history earlier later ino index byte := by
  obtain ⟨time, hfrom, hto, hcontent⟩ := h
  exact ⟨time, Nat.le_trans hstart hfrom, Nat.lt_of_lt_of_le hto hstop, hcontent⟩

/-- The loop appends what stands behind what it has. -/
theorem readChunks_some {fuel start : ℕ} {data result : List Byte}
    (h : readChunks history leaf fuel data caller = (some (some result), after))
    (hleaf : caller.descriptor? leaf = some descriptor) (hoffset : descriptor.offset = data.length)
    (hstart : start ≤ caller.clock)
    (hdata : ∀ index byte, data[index]? = some byte → Stood history start caller.clock descriptor.ino index byte) :
    caller.clock ≤ after.clock ∧
      ∀ index byte, result[index]? = some byte → Stood history start after.clock descriptor.ino index byte := by
  induction fuel generalizing data caller descriptor with
  | zero => cases h
  | succ fuel ih =>
      unfold readChunks at h
      cases hread : readBytes history leaf chunkSize caller with
      | mk found later =>
      rw [hread] at h
      cases found with
      | none => cases h
      | some chunk =>
          obtain ⟨dir, readable, content, mode, hdir, hnode, hchunk, rfl⟩ := readBytes_some hread
          obtain rfl := Option.some.inj (hleaf.symm.trans hdir)
          cases chunk with
          | nil =>
              cases h
              exact ⟨Nat.le_succ _, fun index byte hbyte => (hdata index byte hbyte).mono (Nat.le_refl _) (Nat.le_succ _)⟩
          | cons head tail =>
              have hnext := Caller.advance_descriptor? hleaf (head :: tail).length
              have hstands : ∀ index byte, (data ++ head :: tail)[index]? = some byte →
                  Stood history start (caller.clock + 1) descriptor.ino index byte := by
                intro index byte hbyte
                rcases Nat.lt_or_ge index data.length with hlt | hge
                · rw [List.getElem?_append_left hlt] at hbyte
                  exact (hdata index byte hbyte).mono (Nat.le_refl _) (Nat.le_succ _)
                · rw [List.getElem?_append_right hge, hchunk, List.getElem?_take] at hbyte
                  split at hbyte
                  · rw [List.getElem?_drop, hoffset, Nat.add_sub_cancel' hge] at hbyte
                    exact ⟨caller.clock, hstart, Nat.lt_succ_self _, readable, content, mode, hnode, hbyte⟩
                  · cases hbyte
              obtain ⟨hle, hresult⟩ := ih h hnext (by simp [hoffset]) (Nat.le_succ_of_le hstart) hstands
              exact ⟨Nat.le_of_succ_le hle, hresult⟩

/-! ## Which descriptors stay open -/

/-- The first loop leaves one number for the one that it was given. -/
theorem openChain_without (hcloses : ∀ time, (history time).closeFails = false)
    (hcurrent : caller.descriptor? current = some descriptor) :
    (openChain history current path caller).2.without (openChain history current path caller).1.toList =
      caller.without [current] := by
  induction path generalizing current caller descriptor with
  | nil => rfl
  | cons component rest ih =>
      unfold openChain
      cases hopen : openAt history true current component caller with
      | mk found opened =>
      cases found with
      | none =>
          obtain rfl := openAt_none hopen
          simp only [Option.toList_none, Caller.without_nil, close_caller]
          rfl
      | some next =>
          obtain ⟨dir, child, hdir, -, -, rfl, rfl⟩ := openAt_some hopen
          have hkept : (caller.install child).descriptor? current = some descriptor :=
            Caller.install_descriptor? hcurrent
          have hclose : close history current (caller.install child) =
              (true, ⟨caller.clock + 2, (caller.install child).without [current]⟩) :=
            Prod.ext (close_ok hkept (hcloses _)) close_caller
          have hne : caller.freeNumber ≠ current := by
            have hfree := Caller.freeNumber_ne (Caller.mem_of_descriptor? hcurrent)
            rw [Caller.number_of_descriptor? hcurrent] at hfree
            exact hfree.symm
          have hinstalled : (caller.install child).descriptor? caller.freeNumber =
              some ⟨caller.freeNumber, child, 0⟩ := Caller.install_descriptor?_self
          simp only [hclose]
          calc _ = Caller.without ⟨caller.clock + 2, (caller.install child).without [current]⟩ [caller.freeNumber] :=
                ih (Caller.without_descriptor? hinstalled hne _)
            _ = (caller.install child).without [caller.freeNumber, current] := Caller.without_without _ _
            _ = caller.without [current] := Caller.install_without

theorem openDirectoryNofollow_without {root : Ino} (hcloses : ∀ time, (history time).closeFails = false) :
    (openDirectoryNofollow history root path caller).2.without
      (openDirectoryNofollow history root path caller).1.toList = caller.descriptors := by
  unfold openDirectoryNofollow
  cases hroot : openRoot history root caller with
  | mk found opened =>
  cases found with
  | none =>
      obtain rfl := openRoot_none hroot
      exact Caller.without_nil
  | some current =>
      obtain ⟨-, rfl, rfl⟩ := openRoot_some hroot
      refine (openChain_without hcloses Caller.install_descriptor?_self).trans ?_
      exact Caller.install_without.trans Caller.without_nil

/-- The second loop opens what it notes. -/
theorem openBelow_without : (openBelow history current descriptors path caller).2.without
    (openBelow history current descriptors path caller).1.2 = caller.without descriptors := by
  induction path generalizing current caller descriptors with
  | nil => rfl
  | cons component rest ih =>
      unfold openBelow
      cases hopen : openAt history true current component caller with
      | mk found opened =>
      cases found with
      | none =>
          obtain rfl := openAt_none hopen
          rfl
      | some next =>
          obtain ⟨dir, child, -, -, -, rfl, rfl⟩ := openAt_some hopen
          refine ih.trans (Eq.trans (Caller.without_congr fun kept => ?_) Caller.install_without)
          simp [or_comm]

theorem readChunks_without {fuel : ℕ} {data : List Byte} (hleaf : leaf ∈ descriptors) :
    (readChunks history leaf fuel data caller).2.without descriptors = caller.without descriptors := by
  induction fuel generalizing data caller with
  | zero => rfl
  | succ fuel ih =>
      unfold readChunks
      cases hread : readBytes history leaf chunkSize caller with
      | mk found later =>
      cases found with
      | none =>
          obtain rfl := readBytes_none hread
          rfl
      | some chunk =>
          obtain ⟨dir, readable, content, mode, -, -, -, rfl⟩ := readBytes_some hread
          cases chunk with
          | nil => exact Caller.advance_without hleaf _
          | cons head tail => exact ih.trans (Caller.advance_without hleaf _)

theorem readLeaf_without {fuel : ℕ} (hleaf : leaf ∈ descriptors) :
    (readLeaf history leaf fuel caller).2.without descriptors = caller.without descriptors := by
  have hcaller : (fstat history leaf caller).2 = caller.tick := fstat_caller
  unfold readLeaf
  cases hstat : fstat history leaf caller with
  | mk found later =>
  rw [hstat] at hcaller
  obtain rfl : later = caller.tick := hcaller
  cases found with
  | none => rfl
  | some node =>
      cases node with
      | regular readable content mode => exact readChunks_without hleaf
      | _ => rfl

theorem closeAll_descriptors {numbers : List ℕ} :
    (closeAll history numbers caller).descriptors = caller.without numbers := by
  induction numbers generalizing caller with
  | nil => exact Caller.without_nil.symm
  | cons number numbers ih =>
      change (closeAll history numbers (close history number caller).2).descriptors = _
      rw [ih, close_caller, Caller.without_without]
      exact Caller.without_congr fun kept => by simp [or_comm]

theorem closeAll_clock {numbers : List ℕ} : caller.clock ≤ (closeAll history numbers caller).clock := by
  induction numbers generalizing caller with
  | nil => exact Nat.le_refl _
  | cons number numbers ih =>
      have hclock : (close history number caller).2.clock = caller.clock + 1 := by rw [close_caller]
      have hrest : (close history number caller).2.clock ≤
          (closeAll history numbers (close history number caller).2).clock := ih
      rw [hclock] at hrest
      exact Nat.le_of_succ_le hrest

/-- What was noted is closed. -/
theorem closeAll_noted (hnoted : caller.without descriptors = after.descriptors) :
    (closeAll history descriptors.reverse caller).descriptors = after.descriptors := by
  rw [closeAll_descriptors, ← hnoted]
  exact Caller.without_congr fun kept => by simp

/-! ## The read -/

theorem readLeaf_some {fuel : ℕ} {file : SecureFile Byte}
    (h : readLeaf history leaf fuel caller = (some (.ok file), after))
    (hleaf : caller.descriptor? leaf = some descriptor) (hoffset : descriptor.offset = 0) :
    caller.clock < after.clock ∧ file.size = file.data.length ∧
      (∃ readable content mode, (history caller.clock).fs.node descriptor.ino = .regular readable content mode ∧
        content.length = file.size) ∧
      ∀ index byte, file.data[index]? = some byte →
        Stood history caller.clock after.clock descriptor.ino index byte := by
  have hcaller : (fstat history leaf caller).2 = caller.tick := fstat_caller
  unfold readLeaf at h
  cases hstat : fstat history leaf caller with
  | mk found later =>
  rw [hstat] at h hcaller
  obtain rfl : later = caller.tick := hcaller
  cases found with
  | none => cases h
  | some node =>
      obtain ⟨dir, hdir, hnode⟩ := fstat_some hstat
      obtain rfl := Option.some.inj (hleaf.symm.trans hdir)
      cases node with
      | regular readable content mode =>
          simp only at h
          cases hchunks : readChunks history leaf fuel [] caller.tick with
          | mk outcome later =>
          rw [hchunks] at h
          obtain ⟨hresult, rfl⟩ := Prod.mk.inj h
          cases outcome with
          | none => cases hresult
          | some bytes =>
              cases bytes with
              | none => cases hresult
              | some data =>
                  have hread := readChunks_some hchunks hleaf hoffset (Nat.le_succ caller.clock)
                    fun index byte hbyte => by simp at hbyte
                  simp only [Option.map_some, Option.some.injEq] at hresult
                  split at hresult
                  · cases hresult
                  · rename_i hlength
                    cases hresult
                    exact ⟨hread.1, (not_not.mp hlength).symm, ⟨readable, content, mode, hnode, rfl⟩,
                      hread.2⟩
      | _ => cases h

variable {rootIno : Ino} {root : Parts} {fuel : ℕ}

/-- Unless a close failed, the descriptors afterwards are those from before. -/
theorem readRegularFileBeneath_descriptors (hcloses : ∀ time, (history time).closeFails = false) :
    (readRegularFileBeneath history rootIno root path fuel caller).2.descriptors = caller.descriptors := by
  unfold readRegularFileBeneath
  simp only
  by_cases hwithin : ¬ Parts.Within (Parts.abspath path) (Parts.abspath root)
  · rw [if_pos hwithin]
  rw [if_neg hwithin]
  by_cases hclean : Parts.relativeTo (Parts.abspath path) (Parts.abspath root) = [] ∨
      ∃ part ∈ Parts.relativeTo (Parts.abspath path) (Parts.abspath root), part ∈ ["", ".", ".."]
  · rw [if_pos hclean]
  rw [if_neg hclean]
  generalize Parts.relativeTo (Parts.abspath path) (Parts.abspath root) = relative
  have hroot : (openDirectoryNofollow history rootIno (Parts.abspath root) caller).2.without
      (openDirectoryNofollow history rootIno (Parts.abspath root) caller).1.toList = caller.descriptors :=
    openDirectoryNofollow_without hcloses
  cases hopen : openDirectoryNofollow history rootIno (Parts.abspath root) caller with
  | mk found opened =>
  rw [hopen] at hroot
  cases found with
  | none => exact Caller.without_nil.symm.trans hroot
  | some trusted =>
  have hnoted : (openBelow history trusted [trusted] relative.dropLast opened).2.without
      (openBelow history trusted [trusted] relative.dropLast opened).1.2 = opened.without [trusted] :=
    openBelow_without
  simp only
  cases hbelow : openBelow history trusted [trusted] relative.dropLast opened with
  | mk answer below =>
  rw [hbelow] at hnoted
  obtain ⟨found, descriptors⟩ := answer
  cases found with
  | none => exact closeAll_noted (hnoted.trans hroot)
  | some parent =>
  simp only
  cases hleaf : openAt history false parent (relative.getLastD "") below with
  | mk found later =>
  cases found with
  | none =>
      obtain rfl := openAt_none hleaf
      exact closeAll_noted (hnoted.trans hroot)
  | some leaf =>
      obtain ⟨item, child, -, -, -, rfl, rfl⟩ := openAt_some hleaf
      refine closeAll_noted ?_
      calc _ = (below.install child).without (descriptors ++ [below.freeNumber]) := readLeaf_without (by simp)
        _ = (below.install child).without (below.freeNumber :: descriptors) :=
          Caller.without_congr fun kept => by simp [or_comm]
        _ = below.without descriptors := Caller.install_without
        _ = caller.descriptors := hnoted.trans hroot

/-- What is returned was reached name by name, and stood in the file. -/
theorem readRegularFileBeneath_ok {file : SecureFile Byte}
    (h : readRegularFileBeneath history rootIno root path fuel caller = (some (.ok file), after)) :
    ∃ began dir leaf, Walked history caller.clock rootIno (Parts.abspath root) began dir ∧
      Walked history began dir (Parts.relativeTo (Parts.abspath path) (Parts.abspath root)) after.clock leaf ∧
      file.size = file.data.length ∧
      (∃ time readable content mode, began ≤ time ∧ time < after.clock ∧
        (history time).fs.node leaf = .regular readable content mode ∧ content.length = file.size) ∧
      ∀ index byte, file.data[index]? = some byte → Stood history began after.clock leaf index byte := by
  unfold readRegularFileBeneath at h
  simp only at h
  by_cases hwithin : ¬ Parts.Within (Parts.abspath path) (Parts.abspath root)
  · rw [if_pos hwithin] at h
    cases h
  rw [if_neg hwithin] at h
  by_cases hclean : Parts.relativeTo (Parts.abspath path) (Parts.abspath root) = [] ∨
      ∃ part ∈ Parts.relativeTo (Parts.abspath path) (Parts.abspath root), part ∈ ["", ".", ".."]
  · rw [if_pos hclean] at h
    cases h
  rw [if_neg hclean] at h
  generalize Parts.relativeTo (Parts.abspath path) (Parts.abspath root) = relative at h hclean ⊢
  have hne : relative ≠ [] := fun hnil => hclean (.inl hnil)
  cases hopen : openDirectoryNofollow history rootIno (Parts.abspath root) caller with
  | mk found opened =>
  rw [hopen] at h
  cases found with
  | none => cases h
  | some trusted =>
  obtain ⟨dir, hdir, hwalkedRoot⟩ := openDirectoryNofollow_some hopen
  rw [Parts.abspath_clean (Parts.abspath_isClean root)] at hwalkedRoot
  simp only at h
  cases hbelow : openBelow history trusted [trusted] relative.dropLast opened with
  | mk answer below =>
  rw [hbelow] at h
  obtain ⟨found, descriptors⟩ := answer
  cases found with
  | none => cases h
  | some parent =>
  obtain ⟨reached, hreached, hwalked⟩ := openBelow_some hbelow hdir
  simp only at h
  cases hleaf : openAt history false parent (relative.getLastD "") below with
  | mk found later =>
  rw [hleaf] at h
  cases found with
  | none => cases h
  | some leaf =>
  obtain ⟨item, child, hitem, hentry, hopens, rfl, rfl⟩ := openAt_some hleaf
  obtain rfl := Option.some.inj (hreached.symm.trans hitem)
  simp only at h
  cases hread : readLeaf history below.freeNumber fuel (below.install child) with
  | mk result last =>
  simp only [hread, Prod.mk.injEq] at h
  obtain ⟨rfl, rfl⟩ := h
  obtain ⟨hlast, hsize, ⟨readable, content, mode, hnode, hlength⟩, hstood⟩ :=
    readLeaf_some hread Caller.install_descriptor?_self rfl
  have hclosed : last.clock ≤ (closeAll history (descriptors ++ [below.freeNumber]).reverse last).clock :=
    closeAll_clock
  have hbegan := hwalked.le
  have hclock : below.clock + 1 < last.clock := hlast
  have hsplit : relative.dropLast ++ [relative.getLastD ""] = relative := by
    rw [List.getLastD_eq_getLast?, List.getLast?_eq_some_getLast hne]
    exact List.dropLast_concat_getLast hne
  refine ⟨opened.clock, dir.ino, child, hwalkedRoot, ?_, hsize, ?_, ?_⟩
  · rw [← hsplit]
    exact hwalked.append (.step (Nat.le_refl _) hentry (openable_not_link hopens)
      (.here (Nat.le_trans hclock.le hclosed)))
  · exact ⟨below.clock + 1, readable, content, mode, Nat.le_succ_of_le hbegan, by omega, hnode, hlength⟩
  · exact fun index byte hbyte => (hstood index byte hbyte).mono (Nat.le_succ_of_le hbegan) hclosed

/-- **Confinement.**  Whatever others do to the tree between the calls: the descriptors afterwards are those
from before, unless a close failed; and what is returned stood in one regular file, whose length it has, that was
reached from `/` through the trusted directory by names looked up in turn, no link among them.  So it lies inside
everything that holds the trusted directory and that nothing but links led out of meanwhile. -/
theorem read_beneath_confined (history : History Ino Byte) (rootIno : Ino) (root path : Parts) (fuel : ℕ)
    (caller : Caller Ino) :
    ((∀ time, (history time).closeFails = false) →
      (readRegularFileBeneath history rootIno root path fuel caller).2.descriptors = caller.descriptors) ∧
    ∀ file after, readRegularFileBeneath history rootIno root path fuel caller = (some (.ok file), after) →
      ∃ began dir leaf, Walked history caller.clock rootIno (Parts.abspath root) began dir ∧
        Walked history began dir (Parts.relativeTo (Parts.abspath path) (Parts.abspath root)) after.clock leaf ∧
        (∀ inside : Ino → Prop, inside dir →
          (∀ time, began ≤ time → time < after.clock → (history time).fs.Closed inside) → inside leaf) ∧
        file.size = file.data.length ∧
        (∃ time readable content mode, began ≤ time ∧ time < after.clock ∧
          (history time).fs.node leaf = .regular readable content mode ∧ content.length = file.size) ∧
        ∀ index byte, file.data[index]? = some byte → Stood history began after.clock leaf index byte := by
  refine ⟨readRegularFileBeneath_descriptors, fun file after h => ?_⟩
  obtain ⟨began, dir, leaf, hroot, hpath, hread⟩ := readRegularFileBeneath_ok h
  exact ⟨began, dir, leaf, hroot, hpath, fun inside hdir hclosed => hpath.inside hdir hclosed, hread⟩

end

end Hearth.Closure
