import Hearth.Library.Transition
import Mathlib.Logic.Function.Basic

/-!
# Publishing a reopened scratch

The last step of `reopen` in `cli/reopen.py`: it reserves the companion directory with
`mkdir`, moves the staged inputs and the origin record into it, and links the scratch to the
output path.  Whatever is raised on the way is answered by a handler, which removes the
companion again unless the scratch has been linked.

An exception may come between any two operations, in the handler as well, and other programs
may create something at every path that is free.  The handler decides from `owned_bundle`,
which is set behind the `mkdir`; so the one interrupt that comes in between is not undone.
-/

namespace Hearth.Reopen

open Hearth.Library

/-! ## The four paths -/

/-- The paths that a publication may touch; the last two lie in the companion. -/
inductive Place
  | output | companion | inputs | origin
  deriving DecidableEq, Repr

/-- The path lies in the companion. -/
def Place.inside : Place → Bool
  | .inputs | .origin => true
  | .output | .companion => false

/-- Who created an entry. -/
inductive Author
  | call | other
  deriving DecidableEq, Repr

/-- What an entry is; a symbolic link is treated as a file. -/
inductive EntryKind
  | file | emptyDirectory | directory
  deriving DecidableEq, Repr

structure Entry where
  author : Author
  kind : EntryKind
  deriving DecidableEq, Repr

/-- What is at the four paths. -/
abbrev Tree := Place → Option Entry

namespace Tree

variable (tree : Tree)

def put (place : Place) (entry : Entry) : Tree :=
  Function.update tree place (some entry)

def remove (place : Place) : Tree :=
  Function.update tree place none

/-- The call has created the entry at this path. -/
def ours (place : Place) : Bool :=
  (tree place).any fun entry => entry.author = .call

/-- Another program has created the entry at this path. -/
def foreign (place : Place) : Bool :=
  (tree place).any fun entry => entry.author = .other

/-- An entry of another program is not what it was. -/
def disturbs (after : Tree) : Bool :=
  [Place.output, .companion, .inputs, .origin].any fun place =>
    tree.foreign place && decide (after place ≠ tree place)

/-- The output is the whole scratch, and its companion holds the inputs and the record. -/
def Complete : Prop :=
  ∀ place, tree.ours place = true

/-- Nothing of the call is at any of the paths. -/
def Untouched : Prop :=
  ∀ place, tree.ours place = false

end Tree

/-! ## The steps -/

/-- Where the call is. -/
inductive PublicationStage
  /-- In front of `bundle.mkdir()`. -/
  | reserving
  /-- Behind it; `owned_bundle` is still false. -/
  | reserved
  /-- `owned_bundle` is true. -/
  | owned
  | moved | recorded | linked
  /-- The `try` has been left. -/
  | published
  /-- The handler, where `owned_bundle` is true. -/
  | handling
  /-- In `shutil.rmtree`. -/
  | removing
  | returned | raised
  deriving DecidableEq, Repr

/-- The call has ended. -/
def PublicationStage.finished : PublicationStage → Bool
  | .returned | .raised => true
  | _ => false

structure Publication where
  stage : PublicationStage
  tree : Tree
  /-- The call has changed or removed an entry of another program. -/
  lost : Bool

namespace Publication

variable (publication : Publication)

/-- The call comes to this stage, and the tree is changed to this one. -/
def act (stage : PublicationStage) (tree : Tree) : Publication where
  stage
  tree
  lost := publication.lost || publication.tree.disturbs tree

/-- The call comes to this stage. -/
def goTo (stage : PublicationStage) : Publication :=
  { publication with stage }

/-- Before the publication other programs may have put something at the two target paths. -/
def start (output companion : Option EntryKind) : Publication where
  stage := .reserving
  tree
    | .output => output.map (⟨.other, ·⟩)
    | .companion => companion.map (⟨.other, ·⟩)
    | .inputs | .origin => none
  lost := false

end Publication

/-- What happens next: an operation of the call, an exception, or another program that creates
an entry. -/
inductive PublicationEvent
  | operation | failure
  | creation (place : Place) (kind : EntryKind)
  deriving DecidableEq, Repr

/-- The steps of a publication.  `os.rename` replaces a file by a file and an empty directory by
a directory; `mkdir` and `os.link` replace nothing. -/
inductive PublicationStep (s : Publication) : PublicationEvent → Publication → Prop
  | mkdir (hstage : s.stage = .reserving) (hfree : s.tree .companion = none) :
      PublicationStep s .operation (s.act .reserved (s.tree.put .companion ⟨.call, .directory⟩))
  | own (hstage : s.stage = .reserved) : PublicationStep s .operation (s.goTo .owned)
  | moveInputs (hstage : s.stage = .owned)
      (hfree : ∀ entry, s.tree .inputs = some entry → entry.kind = .emptyDirectory) :
      PublicationStep s .operation (s.act .moved (s.tree.put .inputs ⟨.call, .directory⟩))
  | moveOrigin (hstage : s.stage = .moved)
      (hfree : ∀ entry, s.tree .origin = some entry → entry.kind = .file) :
      PublicationStep s .operation (s.act .recorded (s.tree.put .origin ⟨.call, .file⟩))
  | link (hstage : s.stage = .recorded) (hfree : s.tree .output = none) :
      PublicationStep s .operation (s.act .linked (s.tree.put .output ⟨.call, .file⟩))
  | leave (hstage : s.stage = .linked) : PublicationStep s .operation (s.goTo .published)
  | finish (hstage : s.stage = .published) : PublicationStep s .operation (s.goTo .returned)
  /-- `owned_bundle` is false, or the `try` has been left. -/
  | escape (hstage : s.stage = .reserving ∨ s.stage = .reserved ∨ s.stage = .published) :
      PublicationStep s .failure (s.goTo .raised)
  | handle (hstage : s.stage = .owned ∨ s.stage = .moved ∨ s.stage = .recorded ∨ s.stage = .linked) :
      PublicationStep s .failure (s.goTo .handling)
  /-- The output is the scratch, by `samestat`. -/
  | keep (hstage : s.stage = .handling) (houtput : s.tree.ours .output = true) :
      PublicationStep s .operation (s.goTo .raised)
  | discard (hstage : s.stage = .handling) (houtput : s.tree.ours .output = false) :
      PublicationStep s .operation (s.goTo .removing)
  | unlink {place : Place} (hstage : s.stage = .removing) (hinside : place.inside = true) :
      PublicationStep s .operation (s.act .removing (s.tree.remove place))
  | rmdir (hstage : s.stage = .removing) (hempty : ∀ place : Place, place.inside = true → s.tree place = none) :
      PublicationStep s .operation (s.act .raised (s.tree.remove .companion))
  /-- `lstat` or `rmtree` fails, or is interrupted. -/
  | giveUp (hstage : s.stage = .handling ∨ s.stage = .removing) :
      PublicationStep s .failure (s.goTo .raised)
  | create {place : Place} {kind : EntryKind} (hfree : s.tree place = none)
      (hdirectory : place.inside = true → ∃ entry, s.tree .companion = some entry ∧ entry.kind ≠ .file) :
      PublicationStep s (.creation place kind) { s with tree := s.tree.put place ⟨.other, kind⟩ }

/-! ## Careful runs -/

/-- Nothing is raised between the `mkdir` and the assignment of `owned_bundle`, nor in the handler
before the scratch is linked, and no other program creates an entry in the companion of the
call. -/
def Careful (s : Publication) : PublicationEvent → Prop
  | .operation => True
  | .failure => s.stage ≠ .reserved ∧
      (s.stage = .handling ∨ s.stage = .removing → s.tree.ours .output = true)
  | .creation place _ => place.inside = true → s.tree.ours .companion = false

/-- A step that is careful. -/
structure CarefulStep (s : Publication) (event : PublicationEvent) (t : Publication) : Prop where
  step : PublicationStep s event t
  careful : Careful s event

/-- What a publication that has ended leaves behind. -/
structure AllOrNothing (s : Publication) : Prop where
  whole : s.tree.Complete ∨ s.tree.Untouched
  kept : s.lost = false
  published : s.stage = .returned → s.tree.Complete

/-! ## What holds in every run -/

namespace Tree

variable (tree : Tree) (place other : Place) (entry : Entry)

@[simp] theorem ours_put_self : (tree.put place entry).ours place = decide (entry.author = .call) := by
  simp [ours, put]

@[simp] theorem foreign_put_self :
    (tree.put place entry).foreign place = decide (entry.author = .other) := by
  simp [foreign, put]

@[simp] theorem ours_remove_self : (tree.remove place).ours place = false := by
  simp [ours, remove]

@[simp] theorem foreign_remove_self : (tree.remove place).foreign place = false := by
  simp [foreign, remove]

variable {place other}

@[simp] theorem ours_put_of_ne (h : other ≠ place) : (tree.put place entry).ours other = tree.ours other := by
  simp [ours, put, h]

@[simp] theorem foreign_put_of_ne (h : other ≠ place) :
    (tree.put place entry).foreign other = tree.foreign other := by
  simp [foreign, put, h]

@[simp] theorem ours_remove_of_ne (h : other ≠ place) :
    (tree.remove place).ours other = tree.ours other := by
  simp [ours, remove, h]

@[simp] theorem foreign_remove_of_ne (h : other ≠ place) :
    (tree.remove place).foreign other = tree.foreign other := by
  simp [foreign, remove, h]

theorem ours_of_none (h : tree place = none) : tree.ours place = false := by
  simp [ours, h]

/-- A step at one path disturbs what another program has there, and nothing else. -/
theorem disturbs_eq {after : Tree} (h : ∀ other, other ≠ place → after other = tree other) :
    tree.disturbs after = (tree.foreign place && decide (after place ≠ tree place)) := by
  cases place <;> simp [disturbs, h]

end Tree

/-- The paths at which the call has put its entries when it comes to a stage. -/
def PublicationStage.held : PublicationStage → List Place
  | .reserving | .raised => []
  | .reserved | .owned | .handling | .removing => [.companion]
  | .moved => [.companion, .inputs]
  | .recorded => [.companion, .inputs, .origin]
  | .linked | .published | .returned => [.companion, .inputs, .origin, .output]

/-- What holds of a publication in every run. -/
structure PublicationFacts (s : Publication) : Prop where
  held : ∀ place ∈ s.stage.held, s.tree.ours place = true
  reserving : s.stage = .reserving → s.tree.Untouched
  unlinked : s.stage = .reserved ∨ s.stage = .removing → s.tree.ours .output = false
  whole : s.tree.ours .output = true → s.tree.Complete
  nested : ∀ place : Place, place.inside = true → s.tree.ours place = true →
    s.tree.ours .companion = true

section

variable {s t : Publication} {event : PublicationEvent}

theorem start_untouched (output companion : Option EntryKind) :
    (Publication.start output companion).tree.Untouched := by
  intro place
  cases place with
  | output => cases output <;> rfl
  | companion => cases companion <;> rfl
  | inputs | origin => rfl

theorem publicationFacts_start (output companion : Option EntryKind) :
    PublicationFacts (.start output companion) := by
  have huntouched := start_untouched output companion
  refine ⟨nofun, fun _ => huntouched, fun _ => huntouched .output, ?_, ?_⟩
  · intro h
    rw [huntouched] at h
    cases h
  · intro place _ h
    rw [huntouched] at h
    cases h

/-- The call goes on, with what it has. -/
theorem PublicationFacts.goTo (h : PublicationFacts s) {stage : PublicationStage}
    (hheld : stage.held ⊆ s.stage.held) (hstage : stage ≠ .reserving)
    (hunlinked : stage = .reserved ∨ stage = .removing → s.tree.ours .output = false) :
    PublicationFacts (s.goTo stage) :=
  ⟨fun place hplace => h.held place (hheld hplace), fun hreserving => absurd hreserving hstage, hunlinked,
    h.whole, h.nested⟩

/-- The call puts an entry where none of its own was. -/
theorem PublicationFacts.put (h : PublicationFacts s) {stage : PublicationStage} {place : Place}
    (kind : EntryKind) (hheld : ∀ other ∈ stage.held, other = place ∨ other ∈ s.stage.held)
    (hstage : stage ≠ .reserving)
    (hunlinked : stage = .reserved ∨ stage = .removing →
      place ≠ .output ∧ s.tree.ours .output = false)
    (hcompanion : place = .companion ∨ .companion ∈ s.stage.held)
    (hwhole : place = .output → ∀ other, other = place ∨ other ∈ s.stage.held) :
    PublicationFacts (s.act stage (s.tree.put place ⟨.call, kind⟩)) := by
  have hours : ∀ other, other = place ∨ s.tree.ours other = true →
      (s.tree.put place ⟨.call, kind⟩).ours other = true := by
    intro other hother
    by_cases heq : other = place
    · rw [heq]
      simp
    · rw [Tree.ours_put_of_ne _ _ heq]
      exact hother.resolve_left heq
  refine ⟨?_, fun hreserving => absurd hreserving hstage, ?_, ?_, ?_⟩
  · intro other hother
    exact hours other ((hheld other hother).imp id (h.held other))
  · intro hunlinkedStage
    obtain ⟨hne, houtput⟩ := hunlinked hunlinkedStage
    exact (Tree.ours_put_of_ne _ _ (Ne.symm hne)).trans houtput
  · intro houtput other
    by_cases heq : place = .output
    · exact hours other ((hwhole heq other).imp id (h.held other))
    · have hold : s.tree.ours .output = true := by
        rwa [show (s.act stage (s.tree.put place ⟨.call, kind⟩)).tree = s.tree.put place ⟨.call, kind⟩ from
          rfl, Tree.ours_put_of_ne _ _ (Ne.symm heq)] at houtput
      exact hours other (.inr (h.whole hold other))
  · intro _ _ _
    exact hours .companion (hcompanion.imp Eq.symm (h.held .companion))

/-- Facts are about what the call has, and where it is. -/
theorem PublicationFacts.congr (h : PublicationFacts s) (hstage : t.stage = s.stage)
    (hours : t.tree.ours = s.tree.ours) : PublicationFacts t := by
  refine ⟨?_, ?_, ?_, ?_, ?_⟩
  · rw [hstage, hours]
    exact h.held
  · intro hreserving place
    rw [hours]
    exact h.reserving (hstage.symm.trans hreserving) place
  · rw [hstage, hours]
    exact h.unlinked
  · intro houtput place
    rw [hours] at houtput ⊢
    exact h.whole houtput place
  · rw [hours]
    exact h.nested

/-- What another program puts at a free path is not of the call. -/
theorem Tree.ours_create {tree : Tree} {place : Place} (hfree : tree place = none) (kind : EntryKind) :
    (tree.put place ⟨.other, kind⟩).ours = tree.ours := by
  funext other
  by_cases heq : other = place
  · rw [heq, Tree.ours_put_self, Tree.ours_of_none _ hfree]
    rfl
  · exact Tree.ours_put_of_ne _ _ heq

/-- With the companion the last entry of the call goes. -/
theorem rmdir_untouched (h : PublicationFacts s) (hstage : s.stage = .removing)
    (hempty : ∀ place : Place, place.inside = true → s.tree place = none) :
    (s.tree.remove .companion).Untouched := by
  have hother : ∀ place : Place, place ≠ .companion → s.tree.ours place = false →
      (s.tree.remove .companion).ours place = false :=
    fun place hne hours => (Tree.ours_remove_of_ne _ hne).trans hours
  intro place
  cases place with
  | companion => exact Tree.ours_remove_self _ _
  | output => exact hother .output nofun (h.unlinked (.inr hstage))
  | inputs => exact hother .inputs nofun (Tree.ours_of_none _ (hempty .inputs rfl))
  | origin => exact hother .origin nofun (Tree.ours_of_none _ (hempty .origin rfl))

theorem PublicationFacts.step (h : PublicationFacts s) (hstep : PublicationStep s event t) :
    PublicationFacts t := by
  cases hstep with
  | mkdir hstage hfree =>
      exact h.put _ (by simp [PublicationStage.held]) nofun
        (fun _ => ⟨nofun, h.reserving hstage .output⟩) (.inl rfl) nofun
  | moveInputs hstage hfree =>
      exact h.put _ (by simp [hstage, PublicationStage.held]) nofun (by simp)
        (.inr (by simp [hstage, PublicationStage.held])) nofun
  | own hstage => exact h.goTo (by simp [hstage, PublicationStage.held]) nofun (by simp)
  | moveOrigin hstage hfree =>
      exact h.put _ (by simp [hstage, PublicationStage.held]) nofun (by simp)
        (.inr (by simp [hstage, PublicationStage.held])) nofun
  | link hstage hfree =>
      refine h.put _ (by simp [hstage, PublicationStage.held]) nofun (by simp)
        (.inr (by simp [hstage, PublicationStage.held])) ?_
      rintro - other
      cases other <;> simp [hstage, PublicationStage.held]
  | leave hstage => exact h.goTo (by simp [hstage, PublicationStage.held]) nofun (by simp)
  | finish hstage => exact h.goTo (by simp [hstage, PublicationStage.held]) nofun (by simp)
  | escape hstage => exact h.goTo (by simp [PublicationStage.held]) nofun (by simp)
  | handle hstage =>
      refine h.goTo ?_ nofun (by simp)
      rcases hstage with hstage | hstage | hstage | hstage <;> simp [hstage, PublicationStage.held]
  | keep hstage houtput => exact h.goTo (by simp [PublicationStage.held]) nofun (by simp)
  | discard hstage houtput =>
      exact h.goTo (by simp [hstage, PublicationStage.held]) nofun fun _ => houtput
  | @unlink place hstage hinside =>
      have hcompanion : s.tree.ours .companion = true := h.held _ (by simp [hstage, PublicationStage.held])
      have houtside : ∀ other : Place, other.inside = false →
          (s.tree.remove place).ours other = s.tree.ours other := by
        intro other hother
        apply Tree.ours_remove_of_ne
        rintro rfl
        rw [hinside] at hother
        cases hother
      have houtput : (s.tree.remove place).ours .output = false := by
        rw [houtside _ rfl, h.unlinked (.inr hstage)]
      refine ⟨?_, nofun, fun _ => houtput, ?_, fun _ _ _ => (houtside _ rfl).trans hcompanion⟩
      · intro other hother
        rw [List.mem_singleton.mp hother]
        exact (houtside _ rfl).trans hcompanion
      · intro hours
        exact absurd (hours.symm.trans houtput) nofun
  | rmdir hstage hempty =>
      have huntouched := rmdir_untouched h hstage hempty
      refine ⟨nofun, nofun, nofun, ?_, ?_⟩
      · intro houtput
        exact absurd (houtput.symm.trans (huntouched .output)) nofun
      · intro place _ hours
        exact absurd (hours.symm.trans (huntouched place)) nofun
  | giveUp hstage => exact h.goTo (by simp [PublicationStage.held]) nofun (by simp)
  | create hfree hdirectory => exact h.congr rfl (Tree.ours_create hfree _)

/-! ## Careful runs -/

/-- What holds of a publication in careful runs. -/
structure Undisturbed (s : Publication) : Prop where
  kept : s.lost = false
  alone : s.tree.ours .companion = true → ∀ place : Place, place.inside = true → s.tree.foreign place = false
  settled : s.stage = .raised → s.tree.ours .output = true ∨ s.tree.Untouched

/-- What a publication that was not careful cannot get rid of. -/
inductive Spoiled (s : Publication) : Prop
  | lost (h : s.lost = true)
  | crowded {place : Place} (hcompanion : s.tree.ours .companion = true) (hinside : place.inside = true)
      (hforeign : s.tree.foreign place = true)
  | stranded (hraised : s.stage = .raised) (hcompanion : s.tree.ours .companion = true)
      (houtput : s.tree.ours .output = false)

/-- Without a companion there is nothing in it. -/
def Rooted (s : Publication) : Prop :=
  s.tree .companion = none → ∀ place : Place, place.inside = true → s.tree place = none

theorem undisturbed_start (output companion : Option EntryKind) :
    Undisturbed (.start output companion) := by
  refine ⟨rfl, ?_, nofun⟩
  intro hours
  rw [start_untouched output companion] at hours
  cases hours

theorem rooted_start (output companion : Option EntryKind) : Rooted (.start output companion) := by
  intro _ place hinside
  cases place with
  | output | companion => cases hinside
  | inputs | origin => rfl

namespace Tree

variable {tree : Tree} {place : Place}

theorem foreign_of_none (h : tree place = none) : tree.foreign place = false := by
  simp [foreign, h]

/-- An entry has one author. -/
theorem ours_of_foreign (h : tree.foreign place = true) : tree.ours place = false := by
  cases hplace : tree place with
  | none => simp [foreign, hplace] at h
  | some entry =>
      simp only [foreign, hplace, Option.any_some, decide_eq_true_eq] at h
      simp [ours, hplace, h]

theorem foreign_of_ours (h : tree.ours place = true) : tree.foreign place = false := by
  by_contra hforeign
  rw [ours_of_foreign (by simpa using hforeign)] at h
  cases h

/-- The call puts an entry where another program has none, so nothing is disturbed. -/
theorem disturbs_put (entry : Entry) (h : tree.foreign place = false) :
    tree.disturbs (tree.put place entry) = false := by
  rw [tree.disturbs_eq fun other hother => Function.update_of_ne hother _ _, h]
  rfl

theorem disturbs_remove (h : tree.foreign place = false) : tree.disturbs (tree.remove place) = false := by
  rw [tree.disturbs_eq fun other hother => Function.update_of_ne hother _ _, h]
  rfl

/-- An entry of another program that is replaced by one of the call, or removed, is disturbed. -/
theorem disturbs_of_foreign {after : Tree} (h : tree.foreign place = true)
    (hafter : after.foreign place = false) (hothers : ∀ other, other ≠ place → after other = tree other) :
    tree.disturbs after = true := by
  rw [tree.disturbs_eq hothers, h, Bool.true_and, decide_eq_true_eq]
  intro heq
  have hsame : after.foreign place = tree.foreign place := by
    unfold foreign
    rw [heq]
  rw [hafter, h] at hsame
  cases hsame

end Tree

theorem Rooted.step (h : Rooted s) (hfacts : PublicationFacts s) (hstep : PublicationStep s event t) :
    Rooted t := by
  -- An operation inside comes when the companion of the call is there.
  have hthere : .companion ∈ s.stage.held → s.tree .companion ≠ none := by
    intro hmem hnone
    have hours := hfacts.held .companion hmem
    rw [Tree.ours_of_none _ hnone] at hours
    cases hours
  have hput : ∀ {stage : PublicationStage} {place : Place} {entry : Entry},
      (place.inside = true → s.tree .companion ≠ none) →
      Rooted (s.act stage (s.tree.put place entry)) := by
    intro stage place entry hplace hnone other hinside
    have hcompanion : place ≠ .companion := by
      rintro rfl
      simp [Publication.act, Tree.put] at hnone
    have hold : s.tree .companion = none := by
      simpa [Publication.act, Tree.put, Function.update_of_ne hcompanion.symm] using hnone
    have hne : other ≠ place := by
      rintro rfl
      exact hplace hinside hold
    show Function.update s.tree place (some entry) other = none
    rw [Function.update_of_ne hne]
    exact h hold other hinside
  cases hstep with
  | mkdir hstage hfree => exact hput nofun
  | moveInputs hstage hfree => exact hput fun _ => hthere (by simp [hstage, PublicationStage.held])
  | moveOrigin hstage hfree => exact hput fun _ => hthere (by simp [hstage, PublicationStage.held])
  | link hstage hfree => exact hput nofun
  | own | leave | finish | escape | handle | keep | discard | giveUp => exact h
  | @unlink place hstage hinside =>
      intro hnone
      refine absurd ?_ (hthere (by simp [hstage, PublicationStage.held]))
      have hne : Place.companion ≠ place := by
        rintro rfl
        cases hinside
      simpa [Publication.act, Tree.remove, Function.update_of_ne hne] using hnone
  | rmdir hstage hempty =>
      intro _ other hinside
      have hne : other ≠ .companion := by
        rintro rfl
        cases hinside
      show Function.update s.tree .companion none other = none
      rw [Function.update_of_ne hne]
      exact hempty other hinside
  | create hfree hdirectory =>
      refine @hput s.stage _ _ fun hinside hnone => ?_
      obtain ⟨entry, hentry, -⟩ := hdirectory hinside
      rw [hnone] at hentry
      cases hentry

/-- What the call puts in its companion does not disturb, and leaves no one else there. -/
theorem Undisturbed.put (h : Undisturbed s) {stage : PublicationStage} {place : Place} (kind : EntryKind)
    (hfree : s.tree.foreign place = false) (hstage : stage ≠ .raised)
    (halone : ∀ other : Place, other.inside = true → s.tree.foreign other = false) :
    Undisturbed (s.act stage (s.tree.put place ⟨.call, kind⟩)) := by
  refine ⟨?_, ?_, fun hraised => absurd hraised hstage⟩
  · show (s.lost || s.tree.disturbs (s.tree.put place ⟨.call, kind⟩)) = false
    rw [h.kept, Tree.disturbs_put _ hfree]
    rfl
  · intro _ other hinside
    show (s.tree.put place ⟨.call, kind⟩).foreign other = false
    by_cases heq : other = place
    · rw [heq, Tree.foreign_put_self]
      rfl
    · rw [Tree.foreign_put_of_ne _ _ heq]
      exact halone other hinside

/-- The call goes on, and the trees are the same. -/
theorem Undisturbed.goTo (h : Undisturbed s) {stage : PublicationStage}
    (hstage : stage = .raised → s.tree.ours .output = true ∨ s.tree.Untouched) :
    Undisturbed (s.goTo stage) :=
  ⟨h.kept, h.alone, hstage⟩

theorem Undisturbed.step (h : Undisturbed s) (hfacts : PublicationFacts s) (hrooted : Rooted s)
    (hstep : CarefulStep s event t) : Undisturbed t := by
  -- As long as the companion is the call's, nobody else has anything in it.
  have halone : .companion ∈ s.stage.held →
      ∀ place : Place, place.inside = true → s.tree.foreign place = false :=
    fun hmem => h.alone (hfacts.held .companion hmem)
  obtain ⟨hstep, hcareful⟩ := hstep
  cases hstep with
  | mkdir hstage hfree =>
      exact h.put _ (Tree.foreign_of_none hfree) nofun
        fun other hinside => Tree.foreign_of_none (hrooted hfree other hinside)
  | moveInputs hstage hfree =>
      have halone := halone (by simp [hstage, PublicationStage.held])
      exact h.put _ (halone .inputs rfl) nofun halone
  | moveOrigin hstage hfree =>
      have halone := halone (by simp [hstage, PublicationStage.held])
      exact h.put _ (halone .origin rfl) nofun halone
  | link hstage hfree =>
      exact h.put _ (Tree.foreign_of_none hfree) nofun (halone (by simp [hstage, PublicationStage.held]))
  | own | leave | finish | handle | discard => exact h.goTo nofun
  | keep hstage houtput => exact h.goTo fun _ => .inl houtput
  | escape hstage =>
      refine h.goTo fun _ => ?_
      rcases hstage with hstage | hstage | hstage
      · exact .inr (hfacts.reserving hstage)
      · exact absurd hstage hcareful.1
      · exact .inl (hfacts.held .output (by simp [hstage, PublicationStage.held]))
  | giveUp hstage => exact h.goTo fun _ => .inl (hcareful.2 hstage)
  | @unlink place hstage hinside =>
      have halone := halone (by simp [hstage, PublicationStage.held])
      refine ⟨?_, ?_, nofun⟩
      · show (s.lost || s.tree.disturbs (s.tree.remove place)) = false
        rw [h.kept, Tree.disturbs_remove (halone place hinside)]
        rfl
      · intro _ other hother
        show (s.tree.remove place).foreign other = false
        by_cases heq : other = place
        · rw [heq, Tree.foreign_remove_self]
        · rw [Tree.foreign_remove_of_ne _ heq]
          exact halone other hother
  | rmdir hstage hempty =>
      have hcompanion := hfacts.held .companion (by simp [hstage, PublicationStage.held])
      have huntouched := rmdir_untouched hfacts hstage hempty
      refine ⟨?_, ?_, fun _ => .inr huntouched⟩
      · show (s.lost || s.tree.disturbs (s.tree.remove .companion)) = false
        rw [h.kept, Tree.disturbs_remove (Tree.foreign_of_ours hcompanion)]
        rfl
      · intro hours
        exact absurd (hours.symm.trans (huntouched .companion)) nofun
  | @create place kind hfree hdirectory =>
      have hours := Tree.ours_create hfree kind
      refine ⟨h.kept, ?_, ?_⟩
      · intro hcompanion other hinside
        have hbefore : s.tree.ours .companion = true := (congrFun hours .companion).symm.trans hcompanion
        have hne : other ≠ place := by
          rintro rfl
          exact absurd (hbefore.symm.trans (hcareful hinside)) nofun
        exact (Tree.foreign_put_of_ne _ _ hne).trans (h.alone hbefore other hinside)
      · intro hraised
        refine (h.settled hraised).imp (fun houtput => ?_) fun huntouched other => ?_
        · exact (congrFun hours .output).trans houtput
        · exact (congrFun hours other).trans (huntouched other)

/-! ## What is spoiled stays spoiled -/

theorem Spoiled.goTo (h : Spoiled s) (hstage : s.stage ≠ .raised) (stage : PublicationStage) :
    Spoiled (s.goTo stage) := by
  cases h with
  | lost h => exact .lost h
  | crowded hcompanion hinside hforeign => exact .crowded hcompanion hinside hforeign
  | stranded hraised => exact absurd hraised hstage

/-- The call changes one path, other than its companion. -/
theorem Spoiled.act (h : Spoiled s) (hstage : s.stage ≠ .raised) (stage : PublicationStage) {tree : Tree}
    {place : Place} (hplace : place ≠ .companion) (hafter : tree.foreign place = false)
    (hothers : ∀ other, other ≠ place → tree other = s.tree other) : Spoiled (s.act stage tree) := by
  cases h with
  | lost h => exact .lost (by simp [Publication.act, h])
  | @crowded crowd hcompanion hinside hforeign =>
      by_cases heq : crowd = place
      · -- The entry of the other program is replaced or removed.
        subst heq
        refine .lost ?_
        show (s.lost || s.tree.disturbs tree) = true
        rw [Tree.disturbs_of_foreign hforeign hafter hothers, Bool.or_true]
      · have hsame : ∀ other, other ≠ place →
            tree.ours other = s.tree.ours other ∧ tree.foreign other = s.tree.foreign other := by
          intro other hother
          unfold Tree.ours Tree.foreign
          rw [hothers other hother]
          exact ⟨rfl, rfl⟩
        exact .crowded ((hsame .companion hplace.symm).1.trans hcompanion) hinside
          ((hsame crowd heq).2.trans hforeign)
  | stranded hraised => exact absurd hraised hstage

theorem Spoiled.step (h : Spoiled s) (hstep : PublicationStep s event t) : Spoiled t := by
  have hput : ∀ {stage place kind}, s.stage ≠ .raised → place ≠ .companion →
      Spoiled (s.act stage (s.tree.put place ⟨.call, kind⟩)) := by
    intro stage place kind hstage hplace
    exact h.act hstage stage hplace (Tree.foreign_put_self _ _ _) fun _ hother =>
      Function.update_of_ne hother _ _
  cases hstep with
  | mkdir hstage hfree =>
      -- The companion was not there, so only what is lost can be spoiled.
      have hours := Tree.ours_of_none _ hfree
      cases h with
      | lost h => exact .lost (by simp [Publication.act, h])
      | crowded hcompanion => exact absurd (hcompanion.symm.trans hours) nofun
      | stranded _ hcompanion => exact absurd (hcompanion.symm.trans hours) nofun
  | moveInputs hstage hfree => exact hput (by simp [hstage]) nofun
  | moveOrigin hstage hfree => exact hput (by simp [hstage]) nofun
  | link hstage hfree => exact hput (by simp [hstage]) nofun
  | own hstage | leave hstage | finish hstage | keep hstage | discard hstage =>
      exact h.goTo (by simp [hstage]) _
  | escape hstage | giveUp hstage => exact h.goTo (by rintro hraised; simp [hraised] at hstage) _
  | handle hstage => exact h.goTo (by rintro hraised; simp [hraised] at hstage) _
  | @unlink place hstage hinside =>
      refine h.act (by simp [hstage]) _ ?_ (Tree.foreign_remove_self _ _) fun _ hother =>
        Function.update_of_ne hother _ _
      rintro rfl
      cases hinside
  | rmdir hstage hempty =>
      cases h with
      | lost h => exact .lost (by simp [Publication.act, h])
      | crowded _ hinside hforeign =>
          rw [Tree.foreign_of_none (hempty _ hinside)] at hforeign
          cases hforeign
      | stranded hraised => rw [hraised] at hstage; cases hstage
  | @create place kind hfree hdirectory =>
      have hours := Tree.ours_create hfree kind
      cases h with
      | lost h => exact .lost h
      | @crowded crowd hcompanion hinside hforeign =>
          have hne : crowd ≠ place := by
            rintro rfl
            exact absurd (hforeign.symm.trans (Tree.foreign_of_none hfree)) nofun
          exact .crowded ((congrFun hours .companion).trans hcompanion) hinside
            ((Tree.foreign_put_of_ne _ _ hne).trans hforeign)
      | stranded hraised hcompanion houtput =>
          exact .stranded hraised ((congrFun hours .companion).trans hcompanion)
            ((congrFun hours .output).trans houtput)

/-- A step that is not careful spoils the publication. -/
theorem spoiled_of_not_careful (hfacts : PublicationFacts s) (hstep : PublicationStep s event t)
    (hcareless : ¬ Careful s event) : Spoiled t := by
  cases hstep with
  | mkdir | own | moveInputs | moveOrigin | link | leave | finish | keep | discard | unlink | rmdir =>
      exact absurd trivial hcareless
  | escape hstage =>
      rcases hstage with hstage | hstage | hstage
      · exact absurd ⟨by simp [hstage], by simp [hstage]⟩ hcareless
      · exact .stranded rfl (hfacts.held .companion (by simp [hstage, PublicationStage.held]))
          (hfacts.unlinked (.inl hstage))
      · exact absurd ⟨by simp [hstage], by simp [hstage]⟩ hcareless
  | handle hstage =>
      refine absurd ⟨?_, ?_⟩ hcareless <;>
        rcases hstage with hstage | hstage | hstage | hstage <;> simp [hstage]
  | giveUp hstage =>
      have hcompanion : s.tree.ours .companion = true :=
        hfacts.held .companion (by rcases hstage with hstage | hstage <;> simp [hstage, PublicationStage.held])
      cases houtput : s.tree.ours .output with
      | false => exact .stranded rfl hcompanion houtput
      | true =>
          refine absurd ⟨?_, fun _ => houtput⟩ hcareless
          rintro hreserved
          simp [hreserved] at hstage
  | @create place kind hfree hdirectory =>
      simp only [Careful, Classical.not_imp, Bool.not_eq_false] at hcareless
      obtain ⟨hinside, hcompanion⟩ := hcareless
      refine .crowded ((congrFun (Tree.ours_create hfree kind) .companion).trans hcompanion) hinside ?_
      exact Tree.foreign_put_self _ _ _

/-! ## The end of a publication -/

theorem Undisturbed.allOrNothing (h : Undisturbed s) (hfacts : PublicationFacts s)
    (hfinished : s.stage.finished = true) : AllOrNothing s := by
  have hreturned : s.stage = .returned → s.tree.Complete := fun hstage =>
    hfacts.whole (hfacts.held .output (by simp [hstage, PublicationStage.held]))
  refine ⟨?_, h.kept, hreturned⟩
  by_cases hraised : s.stage = .raised
  · exact (h.settled hraised).imp hfacts.whole id
  · refine .inl (hreturned ?_)
    cases hstage : s.stage <;> simp_all [PublicationStage.finished]

theorem Spoiled.not_allOrNothing (h : Spoiled s) : ¬ AllOrNothing s := by
  intro hall
  cases h with
  | lost h => exact absurd (h.symm.trans hall.kept) nofun
  | crowded hcompanion hinside hforeign =>
      rcases hall.whole with hcomplete | huntouched
      · exact absurd ((hcomplete _).symm.trans (Tree.ours_of_foreign hforeign)) nofun
      · exact absurd (hcompanion.symm.trans (huntouched .companion)) nofun
  | stranded hraised hcompanion houtput =>
      rcases hall.whole with hcomplete | huntouched
      · exact absurd ((hcomplete .output).symm.trans houtput) nofun
      · exact absurd (hcompanion.symm.trans (huntouched .companion)) nofun

end

section

variable {s t : Publication} {labels : List PublicationEvent}

theorem undisturbed_of_careful (hrun : Run CarefulStep s labels t) (hfacts : PublicationFacts s)
    (hrooted : Rooted s) (h : Undisturbed s) : PublicationFacts t ∧ Undisturbed t := by
  have hstep : ∀ u event v, (PublicationFacts u ∧ Rooted u ∧ Undisturbed u) → CarefulStep u event v →
      PublicationFacts v ∧ Rooted v ∧ Undisturbed v := by
    rintro u event v ⟨hfacts, hrooted, h⟩ hone
    exact ⟨hfacts.step hone.step, hrooted.step hfacts hone.step, h.step hfacts hrooted hone⟩
  obtain ⟨hfacts, -, h⟩ := hrun.preserves hstep ⟨hfacts, hrooted, h⟩
  exact ⟨hfacts, h⟩

/-- A run that is not careful throughout ends spoiled. -/
theorem careful_or_spoiled (hrun : Run PublicationStep s labels t) (hfacts : PublicationFacts s) :
    Run CarefulStep s labels t ∨ Spoiled t := by
  induction hrun with
  | nil s => exact .inl (.nil s)
  | @cons s u t event labels hstep hrest ih =>
      by_cases hcareful : Careful s event
      · exact (ih (hfacts.step hstep)).imp (.cons ⟨hstep, hcareful⟩) id
      · right
        have hspoiled := spoiled_of_not_careful hfacts hstep hcareful
        exact hrest.preserves (fun _ _ _ h hone => Spoiled.step h hone) hspoiled

end

/-- A publication that has ended, by a return or by an exception, is all or nothing exactly when
each of its steps was careful. -/
theorem publication_exact {output companion : Option EntryKind} {labels : List PublicationEvent}
    {s : Publication} (hrun : Run PublicationStep (.start output companion) labels s)
    (hfinished : s.stage.finished = true) :
    AllOrNothing s ↔ Run CarefulStep (.start output companion) labels s := by
  have hfacts := publicationFacts_start output companion
  constructor
  · intro hall
    exact (careful_or_spoiled hrun hfacts).resolve_right fun hspoiled => hspoiled.not_allOrNothing hall
  · intro hcareful
    obtain ⟨hend, hkept⟩ := undisturbed_of_careful hcareful hfacts (rooted_start output companion)
      (undisturbed_start output companion)
    exact hkept.allOrNothing hend hfinished

/-- Another program takes the output path, the `os.link` fails, and the companion is removed
again. -/
theorem contested_publication_exact : ∃ s : Publication,
    s.tree .output = some ⟨.other, .file⟩ ∧ s.tree .companion = none ∧
      (AllOrNothing s ↔ Run CarefulStep (.start none none)
        [.operation, .operation, .operation, .creation .output .file, .operation, .failure, .operation,
          .operation, .operation, .operation] s) := by
  have hhandled : ∀ s : Publication, s.stage = .recorded → s.tree .output = some ⟨.other, .file⟩ →
      ∃ t : Publication, Run PublicationStep s [.failure, .operation, .operation, .operation, .operation] t ∧
        t.stage = .raised ∧ t.tree .output = some ⟨.other, .file⟩ ∧ t.tree .companion = none := by
    intro s hstage houtput
    have hhandle : PublicationStep s .failure (s.goTo .handling) := .handle (by simp [hstage])
    refine ⟨_, .cons hhandle (.cons (.discard rfl ?_) (.cons (@PublicationStep.unlink _ .inputs rfl rfl)
      (.cons (@PublicationStep.unlink _ .origin rfl rfl) (.cons (.rmdir rfl ?_) (.nil _))))), rfl, houtput, rfl⟩
    · show s.tree.ours .output = false
      simp [Tree.ours, houtput]
    · intro place hinside
      cases place with
      | output | companion => cases hinside
      | inputs | origin => rfl
  have htaken : ∃ s : Publication, Run PublicationStep (.start none none)
      [.operation, .operation, .operation, .creation .output .file, .operation] s ∧
        s.stage = .recorded ∧ s.tree .output = some ⟨.other, .file⟩ :=
    ⟨_, .cons (.mkdir rfl rfl) (.cons (.own rfl) (.cons (.moveInputs rfl nofun)
      (.cons (@PublicationStep.create _ .output .file rfl nofun) (.cons (.moveOrigin rfl nofun) (.nil _))))),
      rfl, rfl⟩
  obtain ⟨s, hbefore, hstage, houtput⟩ := htaken
  obtain ⟨t, hrun, hraised, houtput, hcompanion⟩ := hhandled s hstage houtput
  exact ⟨t, houtput, hcompanion, publication_exact (hbefore.append hrun) (by rw [hraised]; rfl)⟩

/-- An interrupt behind the `mkdir`, where `owned_bundle` is not yet true: the companion stays. -/
theorem interrupted_reservation : ∃ s : Publication,
    Run PublicationStep (.start none none) [.operation, .failure] s ∧ s.stage.finished = true ∧
      s.tree .output = none ∧ s.tree .companion = some ⟨.call, .directory⟩ ∧ ¬ AllOrNothing s := by
  refine ⟨_, .cons (.mkdir rfl rfl) (.cons (.escape (.inr (.inl rfl))) (.nil _)), rfl, rfl, rfl, ?_⟩
  rintro ⟨hcomplete | huntouched, -, -⟩
  · exact absurd (hcomplete .output) nofun
  · exact absurd (huntouched .companion) nofun

end Hearth.Reopen
