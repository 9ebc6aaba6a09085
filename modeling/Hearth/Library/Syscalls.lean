import Hearth.Library.FileTree
import Mathlib.Data.List.Perm.Subperm

/-!
# System calls under interference

A process reads a file system that others change between any two of its calls.  A history gives what each call
meets, so a statement for every history is one for every interleaving.  A call may also fail for a reason of its
own, and a read may hand over less than was asked for.
-/

namespace Hearth.Library

variable {Ino Byte : Type}

/-- What one system call meets. -/
structure Moment (Ino Byte : Type) where
  fs : FileSystem Ino (List Byte)
  /-- the call fails for a reason of its own -/
  fails : Bool
  /-- a close reports an error; the descriptor is closed all the same -/
  closeFails : Bool
  /-- a read hands over at most one byte more than this -/
  granted : ℕ

/-- What the calls of a process meet, one after the other. -/
abbrev History (Ino Byte : Type) := ℕ → Moment Ino Byte

/-- An open file. -/
structure Descriptor (Ino : Type) where
  number : ℕ
  ino : Ino
  offset : ℕ

/-- A process: the number of calls it has made, and its descriptors. -/
structure Caller (Ino : Type) where
  clock : ℕ
  descriptors : List (Descriptor Ino)

/-- The lowest number that is not in use. -/
def lowestFree (used : List ℕ) : ℕ :=
  ((List.range (used.length + 1)).find? (· ∉ used)).getD 0

namespace Caller

variable (caller : Caller Ino)

def tick : Caller Ino :=
  { caller with clock := caller.clock + 1 }

def descriptor? (number : ℕ) : Option (Descriptor Ino) :=
  caller.descriptors.find? (·.number = number)

/-- The number that the next open gets. -/
def freeNumber : ℕ :=
  lowestFree (caller.descriptors.map Descriptor.number)

def install (ino : Ino) : Caller Ino where
  clock := caller.clock + 1
  descriptors := ⟨caller.freeNumber, ino, 0⟩ :: caller.descriptors

def advance (number length : ℕ) : Caller Ino where
  clock := caller.clock + 1
  descriptors := caller.descriptors.map fun descriptor =>
    if descriptor.number = number then { descriptor with offset := descriptor.offset + length } else descriptor

/-- The descriptors with other numbers. -/
def without (numbers : List ℕ) : List (Descriptor Ino) :=
  caller.descriptors.filter (·.number ∉ numbers)

end Caller

/-! ## The calls -/

/-- Whether `O_RDONLY | O_NOFOLLOW` opens it, with `O_DIRECTORY` or without. -/
def openable (directory : Bool) : Node Ino (List Byte) → Bool
  | .regular readable _ _ => readable && !directory
  | .directory listable _ _ => listable
  | .link => false
  | .special => !directory

/-- `open("/", …)`. -/
def openRoot (history : History Ino Byte) (root : Ino) (caller : Caller Ino) : Option ℕ × Caller Ino :=
  let moment := history caller.clock
  if moment.fails || !openable true (moment.fs.node root) then (none, caller.tick)
  else (some caller.freeNumber, caller.install root)

/-- `openat`: a link is not followed. -/
def openAt (history : History Ino Byte) (directory : Bool) (dir : ℕ) (name : String) (caller : Caller Ino) :
    Option ℕ × Caller Ino :=
  let moment := history caller.clock
  match caller.descriptor? dir with
  | none => (none, caller.tick)
  | some descriptor =>
      match moment.fs.entry descriptor.ino name with
      | .found child =>
          if moment.fails || !openable directory (moment.fs.node child) then (none, caller.tick)
          else (some caller.freeNumber, caller.install child)
      | _ => (none, caller.tick)

/-- `close`, and whether it reports no error. -/
def close (history : History Ino Byte) (number : ℕ) (caller : Caller Ino) : Bool × Caller Ino :=
  match caller.descriptor? number with
  | none => (false, caller.tick)
  | some _ => (!(history caller.clock).closeFails, ⟨caller.clock + 1, caller.without [number]⟩)

/-- `fstat`. -/
def fstat (history : History Ino Byte) (number : ℕ) (caller : Caller Ino) :
    Option (Node Ino (List Byte)) × Caller Ino :=
  let moment := history caller.clock
  match caller.descriptor? number with
  | none => (none, caller.tick)
  | some descriptor => (if moment.fails then none else some (moment.fs.node descriptor.ino), caller.tick)

/-- `read`. -/
def readBytes (history : History Ino Byte) (number count : ℕ) (caller : Caller Ino) :
    Option (List Byte) × Caller Ino :=
  let moment := history caller.clock
  match caller.descriptor? number with
  | none => (none, caller.tick)
  | some descriptor =>
      match moment.fails, moment.fs.node descriptor.ino with
      | false, .regular _ content _ =>
          let chunk := (content.drop descriptor.offset).take (min count (moment.granted + 1))
          (some chunk, caller.advance number chunk.length)
      | _, _ => (none, caller.tick)

/-! ## Descriptors -/

theorem lowestFree_not_mem (used : List ℕ) : lowestFree used ∉ used := by
  unfold lowestFree
  cases hfound : (List.range (used.length + 1)).find? (· ∉ used) with
  | some number => simpa using List.find?_some hfound
  | none =>
      have hall : List.range (used.length + 1) ⊆ used := fun number hnumber => by
        simpa using List.find?_eq_none.mp hfound number hnumber
      have hlength := (List.Nodup.subperm List.nodup_range hall).length_le
      rw [List.length_range] at hlength
      omega

namespace Caller

variable {caller : Caller Ino} {number other : ℕ} {numbers : List ℕ} {descriptor : Descriptor Ino} {ino : Ino}

theorem number_of_descriptor? (h : caller.descriptor? number = some descriptor) : descriptor.number = number := by
  simpa using List.find?_some h

theorem mem_of_descriptor? (h : caller.descriptor? number = some descriptor) : descriptor ∈ caller.descriptors :=
  List.mem_of_find?_eq_some h

/-- A number in use is not given out. -/
theorem freeNumber_ne (h : descriptor ∈ caller.descriptors) : descriptor.number ≠ caller.freeNumber := by
  intro hsame
  have hmem : caller.freeNumber ∈ caller.descriptors.map Descriptor.number := by
    rw [← hsame]
    exact List.mem_map_of_mem h
  exact lowestFree_not_mem _ hmem

@[simp] theorem install_descriptor?_self :
    (caller.install ino).descriptor? caller.freeNumber = some ⟨caller.freeNumber, ino, 0⟩ := by
  simp [descriptor?, install]

/-- An open leaves the other descriptors alone. -/
theorem install_descriptor? (h : caller.descriptor? number = some descriptor) :
    (caller.install ino).descriptor? number = some descriptor := by
  have hne := freeNumber_ne (mem_of_descriptor? h)
  rw [number_of_descriptor? h] at hne
  unfold descriptor? install at *
  rw [List.find?_cons_of_neg (by simpa using Ne.symm hne)]
  exact h

theorem without_descriptor? (h : caller.descriptor? number = some descriptor) (hne : number ≠ other) (clock : ℕ) :
    descriptor? ⟨clock, caller.without [other]⟩ number = some descriptor := by
  unfold descriptor? without at *
  have hsame : (fun item : Descriptor Ino => decide (decide (item.number ∉ [other]) = true ∧
      decide (item.number = number) = true)) = fun item => decide (item.number = number) := by
    funext item
    by_cases hitem : item.number = number <;> simp [hitem, hne]
  rw [List.find?_filter, hsame]
  exact h

theorem advance_descriptor? (h : caller.descriptor? number = some descriptor) (length : ℕ) :
    (caller.advance number length).descriptor? number =
      some { descriptor with offset := descriptor.offset + length } := by
  unfold descriptor? advance at *
  rw [List.find?_map]
  have hsame : ((fun item : Descriptor Ino => decide (item.number = number)) ∘ fun item =>
      if item.number = number then { item with offset := item.offset + length } else item) =
      fun item => decide (item.number = number) := by
    funext item
    by_cases hitem : item.number = number <;> simp [hitem]
  have hnumber : descriptor.number = number := by simpa using List.find?_some h
  rw [hsame, h]
  simp [hnumber]

@[simp] theorem without_nil : caller.without [] = caller.descriptors := by
  simp [without]

theorem without_congr {others : List ℕ} (h : ∀ kept, kept ∈ numbers ↔ kept ∈ others) :
    caller.without numbers = caller.without others :=
  List.filter_congr fun item _ => by simp [h item.number]

theorem without_without (clock : ℕ) (others : List ℕ) :
    without ⟨clock, caller.without numbers⟩ others = caller.without (others ++ numbers) := by
  unfold without
  rw [List.filter_filter]
  refine List.filter_congr fun item _ => ?_
  simp

/-- What an open adds is one number. -/
theorem install_without :
    (caller.install ino).without (caller.freeNumber :: numbers) = caller.without numbers := by
  unfold without install
  rw [List.filter_cons_of_neg (by simp)]
  refine List.filter_congr fun item hitem => ?_
  simp [freeNumber_ne hitem]

theorem advance_without (h : number ∈ numbers) (length : ℕ) :
    (caller.advance number length).without numbers = caller.without numbers := by
  unfold without advance
  rw [List.filter_map]
  have hsame : ((fun item : Descriptor Ino => decide (item.number ∉ numbers)) ∘ fun item =>
      if item.number = number then { item with offset := item.offset + length } else item) =
      fun item => decide (item.number ∉ numbers) := by
    funext item
    by_cases hitem : item.number = number <;> simp [hitem]
  rw [hsame]
  refine (List.map_congr_left fun item hitem => ?_).trans (List.map_id _)
  have hout : item.number ∉ numbers := by simpa using (List.mem_filter.mp hitem).2
  exact if_neg fun hnumber => hout (by rw [hnumber]; exact h)

end Caller

/-! ## A path walked over time -/

/-- `path` led from one inode to another while time passed: each name stood in the directory found before, at a
moment later than that of the name before, and was no link then. -/
inductive Walked (history : History Ino Byte) : ℕ → Ino → Parts → ℕ → Ino → Prop
  | here {start stop : ℕ} {ino : Ino} (hle : start ≤ stop) : Walked history start ino [] stop ino
  | step {start time stop : ℕ} {dir child ino : Ino} {name : String} {path : Parts} (hle : start ≤ time)
      (hentry : (history time).fs.entry dir name = .found child)
      (hplain : ((history time).fs.node child).isLink = false)
      (hrest : Walked history (time + 1) child path stop ino) : Walked history start dir (name :: path) stop ino

namespace FileSystem

/-- No entry but a link leads out of it. -/
def Closed {Content : Type} (fs : FileSystem Ino Content) (inside : Ino → Prop) : Prop :=
  ∀ dir name child, inside dir → fs.entry dir name = .found child → (fs.node child).isLink = false → inside child

end FileSystem

namespace Walked

variable {history : History Ino Byte} {start stop : ℕ} {dir ino : Ino} {path : Parts}

theorem le (h : Walked history start dir path stop ino) : start ≤ stop := by
  induction h with
  | here hle => exact hle
  | step hle _ _ _ ih => omega

theorem mono (h : Walked history start dir path stop ino) {later : ℕ} (hle : stop ≤ later) :
    Walked history start dir path later ino := by
  induction h with
  | here hstart => exact .here (Nat.le_trans hstart hle)
  | step hstart hentry hplain _ ih => exact .step hstart hentry hplain (ih hle)

theorem weaken (h : Walked history start dir path stop ino) {earlier : ℕ} (hle : earlier ≤ start) :
    Walked history earlier dir path stop ino := by
  cases h with
  | here hstart => exact .here (Nat.le_trans hle hstart)
  | step hstart hentry hplain hrest => exact .step (Nat.le_trans hle hstart) hentry hplain hrest

theorem append {middle : ℕ} {between : Ino} {rest : Parts} (h : Walked history start dir path middle between)
    (hrest : Walked history middle between rest stop ino) : Walked history start dir (path ++ rest) stop ino := by
  induction h with
  | here hle => exact hrest.weaken hle
  | step hle hentry hplain _ ih => exact .step hle hentry hplain (ih hrest)

/-- **Confinement.**  What stays closed while a path is walked is not left. -/
theorem inside (h : Walked history start dir path stop ino) {inside : Ino → Prop} (hdir : inside dir)
    (hclosed : ∀ time, start ≤ time → time < stop → (history time).fs.Closed inside) : inside ino := by
  induction h with
  | here => exact hdir
  | @step start time stop dir child ino name path hle hentry hplain hrest ih =>
      have hlater := hrest.le
      exact ih (hclosed time hle (by omega) dir name child hdir hentry hplain) fun moment hstart hstop =>
        hclosed moment (by omega) hstop

end Walked

/-! ## What the calls do -/

section

variable {history : History Ino Byte} {caller after : Caller Ino} {number dir : ℕ} {name : String} {directory : Bool}

theorem openable_not_link {node : Node Ino (List Byte)} (h : openable directory node) : node.isLink = false := by
  cases node with
  | link => cases h
  | _ => rfl

theorem openRoot_some {root : Ino} (h : openRoot history root caller = (some number, after)) :
    openable true ((history caller.clock).fs.node root) ∧ number = caller.freeNumber ∧
      after = caller.install root := by
  unfold openRoot at h
  simp only at h
  split at h
  · cases h
  · rename_i hopens
    cases h
    simp only [Bool.or_eq_true, Bool.not_eq_true', not_or, Bool.not_eq_false, Bool.not_eq_true] at hopens
    exact ⟨hopens.2, rfl, rfl⟩

theorem openRoot_none {root : Ino} (h : openRoot history root caller = (none, after)) : after = caller.tick := by
  unfold openRoot at h
  simp only at h
  split at h <;> cases h
  rfl

/-- An open finds an entry that is no link, at the moment of the call. -/
theorem openAt_some (h : openAt history directory dir name caller = (some number, after)) :
    ∃ descriptor child, caller.descriptor? dir = some descriptor ∧
      (history caller.clock).fs.entry descriptor.ino name = .found child ∧
      openable directory ((history caller.clock).fs.node child) ∧ number = caller.freeNumber ∧
      after = caller.install child := by
  unfold openAt at h
  simp only at h
  cases hdir : caller.descriptor? dir with
  | none =>
      rw [hdir] at h
      cases h
  | some descriptor =>
      rw [hdir] at h
      simp only at h
      cases hentry : (history caller.clock).fs.entry descriptor.ino name with
      | found child =>
          rw [hentry] at h
          simp only at h
          split at h
          · cases h
          · rename_i hopens
            cases h
            simp only [Bool.or_eq_true, Bool.not_eq_true', not_or, Bool.not_eq_false, Bool.not_eq_true] at hopens
            exact ⟨descriptor, child, rfl, hentry, hopens.2, rfl, rfl⟩
      | missing =>
          rw [hentry] at h
          cases h
      | denied =>
          rw [hentry] at h
          cases h

theorem openAt_none (h : openAt history directory dir name caller = (none, after)) : after = caller.tick := by
  unfold openAt at h
  simp only at h
  split at h
  · cases h
    rfl
  · split at h
    · split at h
      · cases h
        rfl
      · cases h
    · cases h
      rfl

/-- A close leaves the other descriptors, whatever it reports. -/
theorem close_caller : (close history number caller).2 = ⟨caller.clock + 1, caller.without [number]⟩ := by
  unfold close
  cases hopen : caller.descriptor? number with
  | some descriptor => rfl
  | none =>
      have hsame : caller.without [number] = caller.descriptors := List.filter_eq_self.mpr fun item hitem => by
        simpa using List.find?_eq_none.mp hopen item hitem
      rw [hsame]
      rfl

theorem close_ok {descriptor : Descriptor Ino} (h : caller.descriptor? number = some descriptor)
    (hcloses : (history caller.clock).closeFails = false) : (close history number caller).1 = true := by
  unfold close
  rw [h]
  simp [hcloses]

theorem fstat_some {node : Node Ino (List Byte)} (h : fstat history number caller = (some node, after)) :
    ∃ descriptor, caller.descriptor? number = some descriptor ∧
      (history caller.clock).fs.node descriptor.ino = node := by
  unfold fstat at h
  simp only at h
  cases hopen : caller.descriptor? number with
  | none =>
      rw [hopen] at h
      cases h
  | some descriptor =>
      rw [hopen] at h
      simp only [Prod.mk.injEq] at h
      refine ⟨descriptor, rfl, ?_⟩
      cases hfails : (history caller.clock).fails with
      | true =>
          rw [hfails] at h
          cases h.1
      | false =>
          rw [hfails] at h
          exact Option.some.inj h.1

theorem fstat_caller : (fstat history number caller).2 = caller.tick := by
  unfold fstat
  simp only
  split <;> rfl

/-- A read hands over what stands at the offset, at the moment of the call. -/
theorem readBytes_some {count : ℕ} {chunk : List Byte} (h : readBytes history number count caller = (some chunk, after)) :
    ∃ descriptor readable content mode, caller.descriptor? number = some descriptor ∧
      (history caller.clock).fs.node descriptor.ino = .regular readable content mode ∧
      chunk = (content.drop descriptor.offset).take (min count ((history caller.clock).granted + 1)) ∧
      after = caller.advance number chunk.length := by
  unfold readBytes at h
  simp only at h
  cases hopen : caller.descriptor? number with
  | none =>
      rw [hopen] at h
      cases h
  | some descriptor =>
      rw [hopen] at h
      simp only at h
      split at h
      · rename_i readable content mode hfails hnode
        cases h
        exact ⟨descriptor, readable, content, mode, rfl, hnode, rfl, rfl⟩
      · cases h

theorem readBytes_none {count : ℕ} (h : readBytes history number count caller = (none, after)) : after = caller.tick := by
  unfold readBytes at h
  simp only at h
  split at h
  · cases h
    rfl
  · split at h
    · cases h
    · cases h
      rfl

end

end Hearth.Library
