import Mathlib.Logic.Function.Basic
import Mathlib.Tactic.Common

/-!
# Publishing a staged tree

`publish_tree` of `jsonio.py`.  The staged tree is validated and moved to its final path; a tree that is there is moved
aside first, comes back when the move fails, and is removed when it does not.  Every one of these steps can fail, before
or behind its effect.

The directory in which all of it happens is a function of the names in it.  Nothing else writes to it meanwhile.
-/

namespace Hearth.Client

/-- What stands at a name of a directory. -/
inductive Entry (Tree : Type*)
  | tree (content : Tree)
  | file
  | link
  deriving DecidableEq, Repr

/-- The publication root. -/
abbrev Directory (Tree : Type*) := String → Option (Entry Tree)

/-- `errno`, as far as it is looked at. -/
inductive Errno
  | exists_ | notEmpty | other
  deriving DecidableEq, Repr

/-- What a step raises: an `OSError`, an exception of the validator, or an interrupt. -/
inductive Failure
  | os (errno : Errno)
  | invalid
  | interrupt
  deriving DecidableEq, Repr

/-- What `publish_tree` raises. -/
inductive PublishError
  /-- `PathContainmentError`. -/
  | containment
  /-- `FileExistsError`. -/
  | fileExists
  /-- `TreePublicationError`. -/
  | treePublication
  /-- What a step raised. -/
  | raised (failure : Failure)
  deriving DecidableEq, Repr

/-- How a rename goes: as the directory has it, or a failure before or behind its effect. -/
inductive Fault
  | none
  | before (failure : Failure)
  | behind (failure : Failure)
  deriving DecidableEq, Repr

/-- How the removal of the tree that was moved aside goes, and what it leaves when it fails. -/
inductive Removal (Tree : Type*)
  | done
  /-- An `OSError`, which the receipt reports. -/
  | failed (left : Option (Entry Tree))
  | interrupted (left : Option (Entry Tree))

/-- What the validator makes of the staged tree. -/
structure Validation (Tree : Type*) where
  failure : Option Failure
  left : Option (Entry Tree)

/-- The failure points of one call, and the digits of the quarantine. -/
structure Faults (Tree : Type*) where
  validation : Validation Tree
  aside : Fault
  publish : Fault
  rollback : Fault
  removal : Removal Tree
  token : String

/-- A staged tree of `stage_tree`. -/
structure StagedTree where
  leaf : String
  suffix : String

def StagedTree.path (staged : StagedTree) : String :=
  "." ++ staged.leaf ++ ".staging-" ++ staged.suffix

/-- The name to which a tree is moved aside. -/
def quarantinePath (leaf token : String) : String :=
  "." ++ leaf ++ ".previous-" ++ token

/-- `PublishReceipt`. -/
structure PublishReceipt where
  replaced : Bool
  quarantine : Option String
  cleanupError : Bool
  deriving DecidableEq, Repr

section

variable {Tree : Type*} (isEmpty : Tree → Bool)

/-- `path.exists()`; a link is not followed, and none is met where this is asked. -/
def present : Option (Entry Tree) → Bool
  | some (.tree _) | some .file => true
  | some .link | none => false

/-- `path.is_dir() and not path.is_symlink()`. -/
def isTree : Option (Entry Tree) → Bool
  | some (.tree _) => true
  | _ => false

/-- The leaves that `confined_child` refuses by their text. -/
def refusedLeaf (leaf : String) : Bool :=
  leaf = "" || leaf = "." || leaf = ".." || leaf.toList.contains '/' || leaf.toList.contains '\\'

/-- `confined_child`: whether the child can be used. -/
def confinedChild (directory : Directory Tree) (leaf : String) : Bool :=
  !refusedLeaf leaf && (match directory leaf with
    | some .link => false
    | _ => true)

/-- `os.replace` of a tree. -/
def replaceTree (directory : Directory Tree) (source target : String) : Except Errno (Directory Tree) :=
  match directory source with
  | none => .error .other
  | some entry =>
      let moved := Function.update (Function.update directory source none) target (some entry)
      match directory target with
      | none => .ok moved
      | some (.tree content) => if isEmpty content then .ok moved else .error .notEmpty
      | some _ => .error .other

/-- A rename with its fault: what it raises, and the directory behind it. -/
def attempt (fault : Fault) (directory : Directory Tree) (source target : String) : Option Failure × Directory Tree :=
  match fault with
  | .before failure => (some failure, directory)
  | .none | .behind _ =>
      match replaceTree isEmpty directory source target with
      | .error errno => (some (.os errno), directory)
      | .ok moved =>
          match fault with
          | .behind failure => (some failure, moved)
          | _ => (none, moved)

/-- The handler of a failed publication. -/
def recover (directory : Directory Tree) (leaf : String) (quarantine : Option String) (replace : Bool)
    (rollback : Fault) (failure : Failure) : PublishError × Directory Tree :=
  if (failure = .os .exists_ ∨ failure = .os .notEmpty) ∧ replace = false ∧ quarantine = none ∧ (directory leaf).isSome then
    (.fileExists, directory)
  else
    match quarantine with
    | none => (.raised failure, directory)
    | some aside =>
        if present (directory aside) ∧ ¬ present (directory leaf) then
          match attempt isEmpty rollback directory aside leaf with
          | (some _, directory) => (.treePublication, directory)
          | (none, directory) => (.raised failure, directory)
        else (.raised failure, directory)

/-- The removal of the tree that was moved aside, and the receipt. -/
def cleanUp (directory : Directory Tree) (quarantine : Option String) (removal : Removal Tree) :
    Except PublishError PublishReceipt × Directory Tree :=
  match quarantine with
  | none => (.ok ⟨false, none, false⟩, directory)
  | some aside =>
      match removal with
      | .done => (.ok ⟨true, none, false⟩, Function.update directory aside none)
      | .failed left => (.ok ⟨true, some aside, true⟩, Function.update directory aside left)
      | .interrupted left => (.error (.raised .interrupt), Function.update directory aside left)

/-- The move to the final path, its handler, and the removal of what was moved aside. -/
def moveIn (directory : Directory Tree) (staged : StagedTree) (faults : Faults Tree) (replace : Bool)
    (quarantine : Option String) : Except PublishError PublishReceipt × Directory Tree :=
  match attempt isEmpty faults.publish directory staged.path staged.leaf with
  | (some failure, directory) =>
      let (error, directory) := recover isEmpty directory staged.leaf quarantine replace faults.rollback failure
      (.error error, directory)
  | (none, directory) => cleanUp directory quarantine faults.removal

/-- The moves of the publication, once the tree is valid and its final path can be taken. -/
def commitTree (directory : Directory Tree) (staged : StagedTree) (faults : Faults Tree) (replace : Bool) :
    Except PublishError PublishReceipt × Directory Tree :=
  if (directory staged.leaf).isSome then
    let aside := quarantinePath staged.leaf faults.token
    if !confinedChild directory aside then (.error .containment, directory)
    else
      match attempt isEmpty faults.aside directory staged.leaf aside with
      | (some failure, directory) =>
          let (error, directory) := recover isEmpty directory staged.leaf (some aside) replace faults.rollback failure
          (.error error, directory)
      | (none, directory) => moveIn isEmpty directory staged faults replace (some aside)
  else moveIn isEmpty directory staged faults replace none

/-- `publish_tree`. -/
def publishTree (directory : Directory Tree) (staged : StagedTree) (faults : Faults Tree) (replace : Bool) :
    Except PublishError PublishReceipt × Directory Tree :=
  if !confinedChild directory staged.leaf then (.error .containment, directory)
  else if !isTree (directory staged.path) then (.error .containment, directory)
  else
    let validated := Function.update directory staged.path faults.validation.left
    match faults.validation.failure with
    | some failure => (.error (.raised failure), validated)
    | none =>
        if !isTree (validated staged.path) then (.error .containment, validated)
        else if !confinedChild validated staged.leaf then (.error .containment, validated)
        else if (validated staged.leaf).isSome ∧ replace = false then (.error .fileExists, validated)
        else if (validated staged.leaf).isSome ∧ !isTree (validated staged.leaf) then (.error .treePublication, validated)
        else commitTree isEmpty validated staged faults replace

end

/-! ## The three names -/

theorem leaf_ne_path (staged : StagedTree) : staged.leaf ≠ staged.path := by
  intro h
  have hlength := congrArg (fun text : String => text.toList.length) h
  simp only [StagedTree.path, String.toList_append, List.length_append] at hlength
  have hdot : ".".toList.length = 1 := rfl
  omega

theorem leaf_ne_quarantinePath (leaf token : String) : leaf ≠ quarantinePath leaf token := by
  intro h
  have hlength := congrArg (fun text : String => text.toList.length) h
  simp only [quarantinePath, String.toList_append, List.length_append] at hlength
  have hdot : ".".toList.length = 1 := rfl
  omega

theorem path_ne_quarantinePath (staged : StagedTree) (token : String) :
    staged.path ≠ quarantinePath staged.leaf token := by
  intro h
  have hlist := congrArg String.toList h
  simp [StagedTree.path, quarantinePath] at hlist

/-! ## One move -/

section

variable {Tree : Type*} {isEmpty : Tree → Bool}

/-- A directory in which an entry was moved. -/
def moved (directory : Directory Tree) (source target : String) (entry : Entry Tree) : Directory Tree :=
  Function.update (Function.update directory source none) target (some entry)

theorem moved_target (directory : Directory Tree) (source target : String) (entry : Entry Tree) :
    moved directory source target entry target = some entry :=
  Function.update_self ..

theorem moved_source (directory : Directory Tree) {source target : String} (h : source ≠ target) (entry : Entry Tree) :
    moved directory source target entry source = none := by
  rw [moved, Function.update_of_ne h, Function.update_self]

theorem moved_other (directory : Directory Tree) {source target name : String} (hsource : name ≠ source)
    (htarget : name ≠ target) (entry : Entry Tree) : moved directory source target entry name = directory name := by
  rw [moved, Function.update_of_ne htarget, Function.update_of_ne hsource]

/-- A rename has no effect and fails, or has its effect and may fail. -/
theorem attempt_cases (isEmpty : Tree → Bool) (fault : Fault) (directory : Directory Tree) (source target : String) :
    (∃ failure, attempt isEmpty fault directory source target = (some failure, directory)) ∨
      ∃ entry raised, directory source = some entry ∧
        attempt isEmpty fault directory source target = (raised, moved directory source target entry) := by
  have hreplace : (∃ errno, replaceTree isEmpty directory source target = .error errno) ∨
      ∃ entry, directory source = some entry ∧
        replaceTree isEmpty directory source target = .ok (moved directory source target entry) := by
    unfold replaceTree
    cases hsource : directory source with
    | none => exact .inl ⟨_, rfl⟩
    | some entry =>
        dsimp only
        cases htarget : directory target with
        | none => exact .inr ⟨entry, rfl, rfl⟩
        | some other =>
            cases other with
            | tree content =>
                dsimp only
                by_cases hempty : isEmpty content = true
                · rw [if_pos hempty]
                  exact .inr ⟨entry, rfl, rfl⟩
                · rw [if_neg hempty]
                  exact .inl ⟨_, rfl⟩
            | file => exact .inl ⟨_, rfl⟩
            | link => exact .inl ⟨_, rfl⟩
  unfold attempt
  cases fault with
  | before failure => exact .inl ⟨failure, rfl⟩
  | none =>
      obtain ⟨errno, herror⟩ | ⟨entry, hsource, hmoved⟩ := hreplace
      · rw [herror]
        exact .inl ⟨_, rfl⟩
      · rw [hmoved]
        exact .inr ⟨entry, _, hsource, rfl⟩
  | behind failure =>
      obtain ⟨errno, herror⟩ | ⟨entry, hsource, hmoved⟩ := hreplace
      · rw [herror]
        exact .inl ⟨_, rfl⟩
      · rw [hmoved]
        exact .inr ⟨entry, _, hsource, rfl⟩

/-! ## The final path -/

/-- What may stand at the final path at the end: what stood there, the new tree, or nothing behind an error that says so. -/
def Settled (old : Option (Entry Tree)) (new : Tree) (leaf : String)
    (outcome : Except PublishError PublishReceipt × Directory Tree) : Prop :=
  outcome.2 leaf = old ∨ outcome.2 leaf = some (.tree new) ∨
    outcome.2 leaf = none ∧ outcome.1 = .error .treePublication

/-- A tree that was moved aside comes back, or the error says that it did not. -/
theorem recover_aside (isEmpty : Tree → Bool) {directory : Directory Tree} {leaf aside : String} {entry : Entry Tree}
    (hentry : present (some entry) = true) (haside : directory aside = some entry) (hleaf : directory leaf = none)
    (replace : Bool) (rollback : Fault) (failure : Failure) :
    let recovered := recover isEmpty directory leaf (some aside) replace rollback failure
    recovered.2 leaf = some entry ∨ recovered.2 leaf = none ∧ recovered.1 = .treePublication := by
  unfold recover
  rw [if_neg fun h => nomatch h.2.2.1]
  dsimp only
  rw [haside, hleaf, if_pos ⟨hentry, Bool.false_ne_true⟩]
  obtain ⟨raised, hattempt⟩ | ⟨other, raised, hother, hattempt⟩ := attempt_cases isEmpty rollback directory aside leaf
  · rw [hattempt]
    exact .inr ⟨hleaf, rfl⟩
  · obtain rfl : entry = other := Option.some.inj (haside.symm.trans hother)
    rw [hattempt]
    cases raised with
    | none => exact .inl (moved_target ..)
    | some raised => exact .inl (moved_target ..)

/-- A directory whose final path holds something is left as it is. -/
theorem recover_present (isEmpty : Tree → Bool) {directory : Directory Tree} {leaf : String}
    (hleaf : present (directory leaf) = true) (quarantine : Option String) (replace : Bool) (rollback : Fault)
    (failure : Failure) : (recover isEmpty directory leaf quarantine replace rollback failure).2 = directory := by
  unfold recover
  split
  · rfl
  · cases quarantine with
    | none => rfl
    | some aside =>
        dsimp only
        rw [if_neg fun h => h.2 hleaf]

/-- Without a tree moved aside there is nothing to bring back. -/
theorem recover_none (isEmpty : Tree → Bool) (directory : Directory Tree) (leaf : String) (replace : Bool)
    (rollback : Fault) (failure : Failure) :
    (recover isEmpty directory leaf none replace rollback failure).2 = directory := by
  unfold recover
  split
  · rfl
  · rfl

/-- The receipt is given behind the move, and the removal leaves the final path alone. -/
theorem cleanUp_leaf (directory : Directory Tree) {leaf : String} {quarantine : Option String}
    (h : quarantine ≠ some leaf) (removal : Removal Tree) :
    (cleanUp directory quarantine removal).2 leaf = directory leaf := by
  cases quarantine with
  | none => rfl
  | some aside =>
      have hne : leaf ≠ aside := fun heq => h (heq ▸ rfl)
      cases removal with
      | done => exact Function.update_of_ne hne ..
      | failed left => exact Function.update_of_ne hne ..
      | interrupted left => exact Function.update_of_ne hne ..

/-- What a call says when it returns: the new tree is in its place. -/
def Published (new : Tree) (leaf : String) (outcome : Except PublishError PublishReceipt × Directory Tree) : Prop :=
  ∀ receipt, outcome.1 = .ok receipt → outcome.2 leaf = some (.tree new)

/-- The move to a free final path, with the old tree aside if there was one. -/
theorem moveIn_settled (isEmpty : Tree → Bool) {directory : Directory Tree} {staged : StagedTree} {new : Tree}
    (hstaged : directory staged.path = some (.tree new)) (hleaf : directory staged.leaf = none)
    (faults : Faults Tree) (replace : Bool) {quarantine : Option String} {old : Option (Entry Tree)}
    (haside : quarantine = none ∧ old = none ∨ ∃ aside entry, quarantine = some aside ∧ old = some entry ∧
      present old = true ∧ directory aside = old ∧ aside ≠ staged.leaf) :
    Settled old new staged.leaf (moveIn isEmpty directory staged faults replace quarantine) ∧
      Published new staged.leaf (moveIn isEmpty directory staged faults replace quarantine) := by
  have hquarantine : quarantine ≠ some staged.leaf := by
    obtain ⟨rfl, -⟩ | ⟨aside, entry, rfl, -, -, -, hne⟩ := haside
    · exact (Option.some_ne_none _).symm
    · exact fun heq => hne (Option.some.inj heq)
  unfold moveIn
  obtain ⟨failure, hattempt⟩ | ⟨entry, raised, hentry, hattempt⟩ :=
    attempt_cases isEmpty faults.publish directory staged.path staged.leaf
  · -- nothing was moved: the old tree comes back
    rw [hattempt]
    refine ⟨?_, fun receipt hreceipt => nomatch hreceipt⟩
    obtain ⟨rfl, rfl⟩ | ⟨aside, entry, rfl, rfl, hpresent, hdirectory, -⟩ := haside
    · exact .inl ((congrFun (recover_none isEmpty directory staged.leaf replace faults.rollback failure) _).trans hleaf)
    · obtain hback | ⟨hmissing, herror⟩ :=
        recover_aside isEmpty hpresent hdirectory hleaf replace faults.rollback failure
      · exact .inl hback
      · exact .inr (.inr ⟨hmissing, congrArg Except.error herror⟩)
  · -- the new tree is in its place, whatever is raised then
    obtain rfl : entry = .tree new := Option.some.inj (hentry.symm.trans hstaged)
    rw [hattempt]
    have hnew := moved_target directory staged.path staged.leaf (.tree new)
    cases raised with
    | some failure =>
        refine ⟨.inr (.inl ?_), fun receipt hreceipt => nomatch hreceipt⟩
        have hpresent : present (moved directory staged.path staged.leaf (.tree new) staged.leaf) = true := by
          rw [hnew]
          rfl
        exact (congrFun (recover_present isEmpty hpresent quarantine replace faults.rollback failure) _).trans hnew
    | none =>
        have hfinal := (cleanUp_leaf _ hquarantine faults.removal).trans hnew
        exact ⟨.inr (.inl hfinal), fun _ _ => hfinal⟩

/-- The moves of a publication settle the final path. -/
theorem commitTree_settled (isEmpty : Tree → Bool) {directory : Directory Tree} {staged : StagedTree} {new : Tree}
    (hstaged : directory staged.path = some (.tree new))
    (hleaf : (directory staged.leaf).isSome → isTree (directory staged.leaf) = true)
    (faults : Faults Tree) (replace : Bool) :
    Settled (directory staged.leaf) new staged.leaf (commitTree isEmpty directory staged faults replace) ∧
      Published new staged.leaf (commitTree isEmpty directory staged faults replace) := by
  have hneAside := leaf_ne_quarantinePath staged.leaf faults.token
  unfold commitTree
  cases hold : directory staged.leaf with
  | none => exact moveIn_settled isEmpty hstaged hold faults replace (.inl ⟨rfl, rfl⟩)
  | some entry =>
      rw [if_pos Option.isSome_some]
      dsimp only
      have hpresent : present (some entry) = true := by
        have htree := hleaf (by rw [hold]; rfl)
        rw [hold] at htree
        cases entry with
        | tree content => rfl
        | file => cases htree
        | link => cases htree
      split
      · exact ⟨.inl hold, fun receipt hreceipt => nomatch hreceipt⟩
      obtain ⟨failure, hattempt⟩ | ⟨other, raised, hother, hattempt⟩ :=
        attempt_cases isEmpty faults.aside directory staged.leaf (quarantinePath staged.leaf faults.token)
      · rw [hattempt]
        refine ⟨.inl ?_, fun receipt hreceipt => nomatch hreceipt⟩
        have hstill : present (directory staged.leaf) = true := hold ▸ hpresent
        exact (congrFun (recover_present isEmpty hstill _ replace faults.rollback failure) _).trans hold
      · obtain rfl : entry = other := Option.some.inj (hold.symm.trans hother)
        rw [hattempt]
        have haside := moved_target directory staged.leaf (quarantinePath staged.leaf faults.token) entry
        have hfree := moved_source directory hneAside entry
        cases raised with
        | some failure =>
            refine ⟨?_, fun receipt hreceipt => nomatch hreceipt⟩
            obtain hback | ⟨hmissing, herror⟩ :=
              recover_aside isEmpty hpresent haside hfree replace faults.rollback failure
            · exact .inl hback
            · exact .inr (.inr ⟨hmissing, congrArg Except.error herror⟩)
        | none =>
            have hpath := moved_other directory (leaf_ne_path staged).symm (path_ne_quarantinePath staged faults.token) entry
            exact moveIn_settled isEmpty (hpath.trans hstaged) hfree faults replace
              (.inr ⟨_, entry, rfl, rfl, hpresent, haside, hneAside.symm⟩)

/-! ## Every failure -/

/-- The tree that the validator passed. -/
def Validation.Passes (validation : Validation Tree) (new : Tree) : Prop :=
  validation.failure = none ∧ validation.left = some (.tree new)

/-- What a call does with the final path. -/
structure PublishesAtomically (before : Directory Tree) (staged : StagedTree) (faults : Faults Tree) (replace : Bool)
    (outcome : Except PublishError PublishReceipt × Directory Tree) : Prop where
  /-- The previous tree, all of the tree that was validated, or nothing. -/
  final : outcome.2 staged.leaf = before staged.leaf ∨
    (∃ new, faults.validation.Passes new ∧ outcome.2 staged.leaf = some (.tree new)) ∨
      outcome.2 staged.leaf = none ∧ outcome.1 = .error .treePublication
  /-- What was there is missing only behind a `TreePublicationError`. -/
  missing : (before staged.leaf).isSome → outcome.2 staged.leaf = none → outcome.1 = .error .treePublication
  /-- A receipt is given for the tree that was validated. -/
  published : ∀ receipt, outcome.1 = .ok receipt →
    ∃ new, faults.validation.Passes new ∧ outcome.2 staged.leaf = some (.tree new)
  /-- What is there stays, unless it is to be replaced. -/
  kept : replace = false → (before staged.leaf).isSome → outcome.2 staged.leaf = before staged.leaf

/-- A call that fails before it moves anything. -/
theorem PublishesAtomically.failed {before after : Directory Tree} {staged : StagedTree} {faults : Faults Tree}
    {replace : Bool} (h : after staged.leaf = before staged.leaf) (error : PublishError) :
    PublishesAtomically before staged faults replace (.error error, after) where
  final := .inl h
  missing := by
    intro hsome hnone
    have hmissing : after staged.leaf = none := hnone
    rw [← h, hmissing] at hsome
    cases hsome
  published := fun _ hreceipt => nomatch hreceipt
  kept := fun _ _ => h

/-- **Publication is atomic**, whatever fails of the validation, of the renames and of the removal. -/
theorem publishTree_atomic (isEmpty : Tree → Bool) (directory : Directory Tree) (staged : StagedTree)
    (faults : Faults Tree) (replace : Bool) :
    PublishesAtomically directory staged faults replace (publishTree isEmpty directory staged faults replace) := by
  unfold publishTree
  split
  · exact .failed rfl _
  split
  · exact .failed rfl _
  dsimp only
  have hleaf : Function.update directory staged.path faults.validation.left staged.leaf = directory staged.leaf :=
    Function.update_of_ne (leaf_ne_path staged) ..
  have hpath : Function.update directory staged.path faults.validation.left staged.path = faults.validation.left :=
    Function.update_self ..
  cases hfailure : faults.validation.failure with
  | some failure => exact .failed hleaf _
  | none =>
      dsimp only
      split
      · exact .failed hleaf _
      rename_i htree
      split
      · exact .failed hleaf _
      split
      · exact .failed hleaf _
      rename_i hreplace
      split
      · exact .failed hleaf _
      rename_i hfinal
      obtain ⟨new, hnew⟩ : ∃ new, faults.validation.left = some (.tree new) := by
        rw [hpath] at htree
        cases hleft : faults.validation.left with
        | none => exact absurd (by rw [hleft]; rfl) htree
        | some entry =>
            cases entry with
            | tree new => exact ⟨new, rfl⟩
            | file => exact absurd (by rw [hleft]; rfl) htree
            | link => exact absurd (by rw [hleft]; rfl) htree
      have hpasses : faults.validation.Passes new := ⟨hfailure, hnew⟩
      obtain ⟨hsettled, hpublished⟩ := commitTree_settled isEmpty (hpath.trans hnew)
        (fun hsome => by
          by_contra hnot
          exact hfinal ⟨hsome, by rw [Bool.not_eq_true'] ; exact Bool.eq_false_iff.mpr hnot⟩) faults replace
      unfold Settled at hsettled
      rw [hleaf] at hsettled hreplace
      constructor
      · exact hsettled.imp_right (.imp_left fun hsame => ⟨new, hpasses, hsame⟩)
      · intro hsome hnone
        obtain hsame | hsame | ⟨-, herror⟩ := hsettled
        · rw [← hsame, hnone] at hsome
          cases hsome
        · rw [hnone] at hsame
          cases hsame
        · exact herror
      · exact fun receipt hreceipt => ⟨new, hpasses, hpublished receipt hreceipt⟩
      · exact fun hkeep hsome => absurd ⟨hsome, hkeep⟩ hreplace

end

end Hearth.Client
