import Hearth.Basis.Admission
import Hearth.Library.Ahead
import Mathlib.Data.List.TakeDrop

/-!
# Replay from a retained basis

A basis is evaluated once from the profile state; the leaf is then evaluated in the state
that the basis leaves behind, where its own `needs` of the basis is skipped.  Files are
arbitrary deterministic programs of effects on the HOL state and of loader calls; a file
is registered under its base name and MD5 digest.

`basisReplay_refines` says when the leaf ends as it does from the profile state.  It is
not always so: `basisReplay_differs` has one leaf for every one of its hypotheses.
-/

namespace Hearth.Basis

open Hearth.Library Hearth.Library.Loading

/-- The HOL state: `managed` is what the harness saves before a preparation and restores
behind it (the loaders, `prove`, the load path and the working directory), `core` all the
rest. -/
structure HolState (Core Managed : Type*) where
  core : Core
  managed : Managed
  deriving DecidableEq, Repr

/-- `(basename, digest)`. -/
abbrev FileId := String × String

/-- The file system during the two replays: the MD5 of each file, and what evaluating its
bytes does. -/
structure FileSystem (Core Managed : Type*) where
  md5 : String → Option String
  program : String → Program String (HolState Core Managed)

variable {Core Managed : Type*}

/-- The last component of a path. -/
def basename (path : String) : String :=
  String.ofList (path.toList.reverse.takeWhile (· ≠ '/')).reverse

/-- The files as the loaders see them. -/
def FileSystem.sources (files : FileSystem Core Managed) :
    Sources String FileId (HolState Core Managed) :=
  fun path => (files.md5 path).map fun digest => ⟨(basename path, digest), files.program path⟩

/-- A HOL process between two sources: its state and its `loaded_files`. -/
structure Process (Core Managed : Type*) where
  state : HolState Core Managed
  loadedFiles : List FileId
  deriving DecidableEq, Repr

/-- The evaluation of a source in a process, at its start. -/
def evaluation (process : Process Core Managed) (program : Program String (HolState Core Managed)) :
    Machine String FileId (HolState Core Managed) :=
  ⟨[⟨program, none⟩], process.state, process.loadedFiles⟩

/-- The source is evaluated to the end. -/
def Completes (files : FileSystem Core Managed) (process : Process Core Managed) (path : String)
    (events : List (Event String)) (after : Process Core Managed) : Prop :=
  Run (Step files.sources) (evaluation process (files.program path)) events
    ⟨[], after.state, after.loadedFiles⟩

/-- `bootstrap_postlude`: what the harness manages is restored to what `bootstrap_prelude`
saved in the profile process, and the basis is registered. -/
def bootstrapPostlude (profile prepared : Process Core Managed) (basis : FileId) :
    Process Core Managed :=
  ⟨{ prepared.state with managed := profile.state.managed }, basis :: prepared.loadedFiles⟩

/-! ## What a closure says of the programs -/

/-- A call of a loader that a program may make. -/
inductive Calls : Program String (HolState Core Managed) → Bool → String → Prop
  | here {once : Bool} {path : String} {next : Program String (HolState Core Managed)} :
      Calls (.load once path next) once path
  | load {once once' : Bool} {path path' : String} {next : Program String (HolState Core Managed)} :
      Calls next once' path' → Calls (.load once path next) once' path'
  | act {effect : HolState Core Managed → Option (HolState Core Managed)}
      {next : HolState Core Managed → Program String (HolState Core Managed)}
      {state : HolState Core Managed} {once : Bool} {path : String} :
      Calls (next state) once path → Calls (.act effect next) once path

/-- A record describes a call: `needs` is the loader that skips. -/
def SourceRecord.Describes (record : SourceRecord) (once : Bool) (path : String) : Prop :=
  record.resolvedPath = some path ∧ (once = true ↔ record.loader = .needs)

/-- Every call of the program has its record. -/
def Recorded (records : List SourceRecord) (program : Program String (HolState Core Managed)) : Prop :=
  ∀ once path, Calls program once path → ∃ record ∈ records, record.Describes once path

/-- The records of a closure: those of its entrypoint, and of every file of a record. -/
structure Captures (files : FileSystem Core Managed) (closure : Closure) (entrypoint : String) :
    Prop where
  entrypoint : Recorded closure.records (files.program entrypoint)
  dependencies : ∀ record ∈ closure.records, ∀ path, record.resolvedPath = some path →
    Recorded closure.records (files.program path)

/-- A leaf and a basis that `run_project_basis_replay` and `validate_basis_use` admit, with
closures that describe the files as they are. -/
structure AdmittedReplay (files : FileSystem Core Managed) (sha256File : String → Option String)
    (leaf basis : String) (leafClosure basisClosure : Closure) : Prop where
  leaf_captured : Captures files leafClosure leaf
  admitted : ∃ sourceSha256 sourceMd5 satisfied leafSatisfied identity,
    sha256File basis = some sourceSha256 ∧ files.md5 basis = some sourceMd5 ∧
    admitBasis leaf basis sourceSha256 sourceMd5 leafClosure basisClosure satisfied = .ok identity ∧
    validateBasisUse sha256File (.ok ()) identity leafClosure leafSatisfied = .ok ()

/-- Replay from one process refines replay from another: if the leaf completes from the
retained state, it completes from the profile state with the same theorems. -/
def Refines (files : FileSystem Core Managed) (leaf : String) (profile retained : Process Core Managed)
    {Theorem : Type} (theoremOf : Core → String → Option Theorem) (claims : List String) : Prop :=
  ∀ events final, Completes files retained leaf events final →
    ∃ events' final', Completes files profile leaf events' final' ∧
      ∀ claim ∈ claims, theoremOf final'.state.core claim = theoremOf final.state.core claim

section

variable {files : FileSystem Core Managed}

/-- The frames of a machine only make recorded calls. -/
def RecordedMachine (records : List SourceRecord)
    (machine : Machine String FileId (HolState Core Managed)) : Prop :=
  ∀ frame ∈ machine.stack, Recorded records frame.program

theorem recordedMachine_step {records : List SourceRecord}
    (hdependencies : ∀ record ∈ records, ∀ path, record.resolvedPath = some path →
      Recorded records (files.program path))
    {machine after : Machine String FileId (HolState Core Managed)} {event : Event String}
    (h : RecordedMachine records machine) (hstep : Step files.sources machine event after) :
    RecordedMachine records after := by
  rcases step_cases hstep with ⟨key, rest, hstack, -, rfl⟩ |
    ⟨effect, continuation, key, rest, state, hstack, -, -, rfl⟩ |
    ⟨path, continuation, key, rest, source, hstack, -, -, -, rfl⟩ |
    ⟨once, path, continuation, key, rest, source, hstack, hsource, -, -, rfl⟩ <;>
    unfold RecordedMachine at h ⊢ <;> rw [hstack, List.forall_mem_cons] at h
  · exact h.2
  · rw [List.forall_mem_cons]
    exact ⟨fun once path hcall => h.1 once path (.act hcall), h.2⟩
  · rw [List.forall_mem_cons]
    exact ⟨fun once path hcall => h.1 once path (.load hcall), h.2⟩
  · rw [List.forall_mem_cons, List.forall_mem_cons]
    refine ⟨?_, fun once path hcall => h.1 once path (.load hcall), h.2⟩
    -- the entered file is the file of a record
    obtain ⟨record, hrecord, hpath, -⟩ := h.1 once path .here
    obtain ⟨digest, -, rfl⟩ := Option.map_eq_some_iff.mp hsource
    exact hdependencies record hrecord path hpath

theorem recordedMachine_run {records : List SourceRecord}
    (hdependencies : ∀ record ∈ records, ∀ path, record.resolvedPath = some path →
      Recorded records (files.program path))
    {machine after : Machine String FileId (HolState Core Managed)} {events : List (Event String)}
    (hrun : Run (Step files.sources) machine events after) (h : RecordedMachine records machine) :
    RecordedMachine records after :=
  hrun.preserves (fun _ _ _ hs hone => recordedMachine_step hdependencies hs hone) h

/-- No frame of an admitted leaf forces the basis to be loaded again. -/
theorem AdmittedReplay.not_forced {sha256File : String → Option String} {leaf basis : String}
    {leafClosure basisClosure : Closure}
    (h : AdmittedReplay files sha256File leaf basis leafClosure basisClosure)
    {retained : Process Core Managed} {events : List (Event String)}
    {machine : Machine String FileId (HolState Core Managed)}
    (hrun : Run (Step files.sources) (evaluation retained (files.program leaf)) events machine)
    {frame : Frame String FileId (HolState Core Managed)} (hframe : frame ∈ machine.stack)
    (next : Program String (HolState Core Managed)) : frame.program ≠ .load false basis next := by
  obtain ⟨sourceSha256, sourceMd5, satisfied, leafSatisfied, identity, -, -, hadmit, hvalid⟩ := h.admitted
  have hstart : RecordedMachine leafClosure.records (evaluation retained (files.program leaf)) := by
    intro frame hframe
    rw [List.mem_singleton.mp hframe]
    exact h.leaf_captured.entrypoint
  have hrecorded := recordedMachine_run h.leaf_captured.dependencies hrun hstart frame hframe
  intro hforced
  rw [hforced] at hrecorded
  obtain ⟨record, hrecord, hpath, hloader⟩ := hrecorded false basis .here
  have hneeds : record.loader = .needs := by
    apply validateBasisUse_needs hvalid record hrecord
    rw [hpath, (admitBasis_source hadmit).1]
  exact Bool.false_ne_true (hloader.mpr hneeds)

/-- In the evaluation of an admitted leaf, with the basis registered, a call of the basis
is skipped. -/
theorem AdmittedReplay.call_skips {sha256File : String → Option String} {leaf basis digest : String}
    {leafClosure basisClosure : Closure}
    (h : AdmittedReplay files sha256File leaf basis leafClosure basisClosure)
    (hdigest : files.md5 basis = some digest) {retained : Process Core Managed}
    (hregistered : (basename basis, digest) ∈ retained.loadedFiles) {events : List (Event String)}
    {machine after : Machine String FileId (HolState Core Managed)} {event : Event String}
    (hrun : Run (Step files.sources) (evaluation retained (files.program leaf)) events machine)
    (hstep : Step files.sources machine event after)
    {frame : Frame String FileId (HolState Core Managed)} (hframe : frame ∈ machine.stack.head?)
    {once : Bool} {next : Program String (HolState Core Managed)}
    (hprogram : frame.program = .load once basis next) : event = .skip basis := by
  have hmem : frame ∈ machine.stack := List.mem_of_mem_head? hframe
  have hloaded : (basename basis, digest) ∈ machine.loaded := run_loaded hrun hregistered
  have honce : once = true := by
    cases once with
    | true => rfl
    | false => exact absurd hprogram (h.not_forced hrun hmem next)
  rcases step_cases hstep with ⟨key, rest, hstack, -, -⟩ | ⟨_, _, _, rest, _, hstack, -, -, -⟩ |
    ⟨path, continuation, key, rest, source, hstack, -, -, rfl, -⟩ |
    ⟨once', path, continuation, key, rest, source, hstack, hsource, hfresh, -, -⟩ <;>
    rw [hstack] at hframe <;> cases hframe
  · cases hprogram
  · cases hprogram
  · cases hprogram
    rfl
  · cases hprogram
    obtain ⟨digest', hdigest', rfl⟩ := Option.map_eq_some_iff.mp hsource
    obtain rfl : digest' = digest := Option.some.inj (hdigest'.symm.trans hdigest)
    exact absurd hloaded (hfresh honce)

end

/-- The process that `run_project_basis_replay` retains: the basis was evaluated from the
profile process, and the postlude ran. -/
structure Retains (files : FileSystem Core Managed) (basis digest : String)
    (profile prepared retained : Process Core Managed) : Prop where
  md5 : files.md5 basis = some digest
  preparation : ∃ events, Completes files profile basis events prepared
  postlude : retained = bootstrapPostlude profile prepared (basename basis, digest)

/-- When the basis leaves what the harness manages as it found it, the retained process is
the profile process behind one evaluation of the basis. -/
theorem Retains.evaluates {files : FileSystem Core Managed} {basis digest : String}
    {profile prepared retained : Process Core Managed}
    (h : Retains files basis digest profile prepared retained)
    (hmanaged : prepared.state.managed = profile.state.managed) :
    Evaluates files.sources basis profile.state profile.loadedFiles retained.state
      retained.loadedFiles := by
  obtain ⟨hdigest, ⟨events, hprepared⟩, rfl⟩ := h
  have hsource : files.sources basis = some ⟨(basename basis, digest), files.program basis⟩ := by
    simp [FileSystem.sources, hdigest]
  have hrestored : (bootstrapPostlude profile prepared (basename basis, digest)).state =
      prepared.state := by
    simp only [bootstrapPostlude, ← hmanaged]
  rw [hrestored]
  exact ⟨_, events, hsource, run_register hprepared rfl (List.nil_append _).symm⟩

/-- The step at the head of a machine is independent of the basis, unless it is the call of
the basis itself. -/
def IndependentStep (files : FileSystem Core Managed) (basis : String) (basisId : FileId)
    (known ahead : List FileId) (machine : Machine String FileId (HolState Core Managed)) : Prop :=
  ∀ frame ∈ machine.stack.head?, (∀ once next, frame.program ≠ .load once basis next) →
    Independent files.sources basis basisId known ahead frame.program

/-- In every complete evaluation of the leaf from the retained process, it calls the basis,
and all its steps before the first call are independent of the basis. -/
def CallsAfterIndependentSteps (files : FileSystem Core Managed) (leaf basis digest : String)
    (profile retained : Process Core Managed) : Prop :=
  ∀ events final, Completes files retained leaf events final → .skip basis ∈ events ∧
    ∀ before event after machine, events = before ++ event :: after →
      .skip basis ∉ before ++ [event] →
      Run (Step files.sources) (evaluation retained (files.program leaf)) before machine →
      IndependentStep files basis (basename basis, digest) profile.loadedFiles retained.loadedFiles
        machine

/-- **Basis replay refines ordinary replay**, for an admitted leaf and basis, when the
profile has not loaded the basis, the basis leaves what the harness manages as it found
it, and the leaf calls the basis with only independent steps before. -/
theorem basisReplay_refines {files : FileSystem Core Managed} {sha256File : String → Option String}
    {leaf basis digest : String} {leafClosure basisClosure : Closure}
    (hadmitted : AdmittedReplay files sha256File leaf basis leafClosure basisClosure)
    {profile prepared retained : Process Core Managed}
    (hretains : Retains files basis digest profile prepared retained)
    (hfresh : (basename basis, digest) ∉ profile.loadedFiles)
    (hmanaged : prepared.state.managed = profile.state.managed)
    (hcalls : CallsAfterIndependentSteps files leaf basis digest profile retained)
    {Theorem : Type} (theoremOf : Core → String → Option Theorem) (claims : List String) :
    Refines files leaf profile retained theoremOf claims := by
  intro events final hfinal
  obtain ⟨hskip, hindependent⟩ := hcalls events final hfinal
  -- the events up to the first call of the basis
  obtain ⟨early, late, rfl, hfirst⟩ := List.eq_append_cons_of_mem hskip
  have hsource : files.sources basis = some ⟨(basename basis, digest), files.program basis⟩ := by
    simp [FileSystem.sources, hretains.md5]
  have hregistered : (basename basis, digest) ∈ retained.loadedFiles := by
    rw [hretains.postlude]
    exact List.mem_cons_self ..
  have hbehind : Behind files.sources basis (basename basis, digest) profile.loadedFiles
      retained.loadedFiles (evaluation profile (files.program leaf))
      (evaluation retained (files.program leaf)) :=
    @Behind.start _ _ _ _ _ basis ⟨(basename basis, digest), files.program basis⟩ _ _ _ _ _
      (hretains.evaluates hmanaged) hfresh
  have hearly : ∀ before event after middle middle', early = before ++ event :: after →
      Run (Step files.sources) (evaluation retained (files.program leaf)) before middle →
      Step files.sources middle event middle' → ∀ frame ∈ middle.stack.head?,
        Independent files.sources basis (basename basis, digest) profile.loadedFiles
          retained.loadedFiles frame.program := by
    intro before event after middle middle' hsplit hbefore hstep frame hframe
    have hnever : .skip basis ∉ before ++ [event] := by
      intro hmem
      apply hfirst
      rw [hsplit, List.append_cons]
      exact List.mem_append_left _ hmem
    have hevents : early ++ .skip basis :: late =
        before ++ event :: (after ++ .skip basis :: late) := by
      rw [hsplit, List.append_assoc, List.cons_append]
    apply hindependent before event _ middle hevents hnever hbefore frame hframe
    intro once next hprogram
    have hevent := hadmitted.call_skips hretains.md5 hregistered hbefore hstep hframe hprogram
    exact hnever (List.mem_append_right _ (by rw [hevent]; exact List.mem_singleton_self _))
  obtain ⟨events', ⟨stack, state, loaded⟩, hrun', hstack, hstate, -⟩ :=
    hbehind.run hsource hregistered hfresh hfinal rfl hearly
  simp only at hstack hstate
  subst hstack hstate
  exact ⟨events', ⟨final.state, loaded⟩, hrun', fun claim _ => rfl⟩

/-! ## Leaves that differ -/

/-- A HOL state for samples: a flag and the theorem bound to `T`, and one managed value. -/
abbrev SampleState := HolState (ℕ × ℕ) ℕ

/-- Two files and their evaluation. -/
def sampleFiles (leaf basis : Program String SampleState) : FileSystem (ℕ × ℕ) ℕ where
  md5 := fun path => if path = "/p/basis.ml" then some "b" else if path = "/p/leaf.ml" then some "a"
    else none
  program := fun path => if path = "/p/basis.ml" then basis else if path = "/p/leaf.ml" then leaf
    else .done

/-- The closure of the leaf: one literal `needs` of the basis. -/
def sampleLeafClosure : Closure :=
  ⟨"leaf", [⟨.needs, some "/p/basis.ml", some "basis"⟩], [], true, none⟩

/-- The closure of the basis, which loads nothing. -/
def sampleBasisClosure : Closure :=
  ⟨"basis", [], [], true, none⟩

def sampleSha256 (path : String) : Option String :=
  if path = "/p/basis.ml" then some "basis" else some "leaf"

/-- The theorem bound to a claim. -/
def sampleTheorem (core : ℕ × ℕ) (_ : String) : Option ℕ :=
  some core.2

/-- An admitted leaf that ends differently from the retained process. -/
def Differs (leaf basis : Program String SampleState) (profile : Process (ℕ × ℕ) ℕ) : Prop :=
  AdmittedReplay (sampleFiles leaf basis) sampleSha256 "/p/leaf.ml" "/p/basis.ml" sampleLeafClosure
    sampleBasisClosure ∧
  ∃ prepared retained,
    Retains (sampleFiles leaf basis) "/p/basis.ml" "b" profile prepared retained ∧
    ¬ Refines (sampleFiles leaf basis) "/p/leaf.ml" profile retained sampleTheorem ["T"]

/-- A leaf that only calls the basis by `needs` is admitted. -/
theorem sample_admitted {leaf basis : Program String SampleState}
    (hleaf : ∀ once path, Calls leaf once path → once = true ∧ path = "/p/basis.ml")
    (hbasis : ∀ once path, ¬ Calls basis once path) :
    AdmittedReplay (sampleFiles leaf basis) sampleSha256 "/p/leaf.ml" "/p/basis.ml"
      sampleLeafClosure sampleBasisClosure where
  leaf_captured := by
    constructor
    · intro once path hcall
      obtain ⟨rfl, rfl⟩ := hleaf once path hcall
      exact ⟨_, List.mem_singleton_self _, rfl, by simp⟩
    · intro record hrecord path hpath once path' hcall
      obtain rfl := List.mem_singleton.mp hrecord
      obtain rfl := Option.some.inj hpath
      exact absurd hcall (hbasis once path')
  admitted := by
    refine ⟨"basis", "b", [], [], ⟨"/p/basis.ml", "basis", "b", [("/p/basis.ml", "basis")]⟩, rfl, rfl,
      ?_, ?_⟩
    · decide +kernel
    · decide +kernel

/-- The evaluations of a basis and of a leaf in the two processes, when they end within
`fuel` steps and bind different theorems. -/
theorem differs_of_execute {leaf basis : Program String SampleState}
    {profile : Process (ℕ × ℕ) ℕ} (prepared final final' : Process (ℕ × ℕ) ℕ) (fuel : ℕ)
    {preparation events events' : List (Event String)}
    (hadmitted : AdmittedReplay (sampleFiles leaf basis) sampleSha256 "/p/leaf.ml" "/p/basis.ml"
      sampleLeafClosure sampleBasisClosure)
    (hprepared : execute (sampleFiles leaf basis).sources fuel (evaluation profile basis) =
      (preparation, ⟨[], prepared.state, prepared.loadedFiles⟩))
    (hretained : execute (sampleFiles leaf basis).sources fuel
      (evaluation (bootstrapPostlude profile prepared (basename "/p/basis.ml", "b")) leaf) =
        (events, ⟨[], final.state, final.loadedFiles⟩))
    (hprofile : execute (sampleFiles leaf basis).sources fuel (evaluation profile leaf) =
      (events', ⟨[], final'.state, final'.loadedFiles⟩))
    (hdifferent : final'.state.core.2 ≠ final.state.core.2) : Differs leaf basis profile := by
  have hrun : ∀ {machine : Machine String FileId SampleState} {events after},
      execute (sampleFiles leaf basis).sources fuel machine = (events, after) →
        Run (Step (sampleFiles leaf basis).sources) machine events after := by
    intro machine events after h
    have hexecute := @execute_run _ _ _ _ (sampleFiles leaf basis).sources fuel machine
    rw [h] at hexecute
    exact hexecute
  refine ⟨hadmitted, prepared, _, ⟨rfl, ⟨_, hrun hprepared⟩, rfl⟩, ?_⟩
  intro hrefines
  obtain ⟨events'', other, hother, hsame⟩ := hrefines events final (hrun hretained)
  obtain ⟨-, hfinal⟩ := run_deterministic hother rfl (hrun hprofile) rfl
  simp only [Machine.mk.injEq, true_and] at hfinal
  have htheorem := Option.some.inj (hsame "T" (List.mem_singleton_self _))
  apply hdifferent
  rw [← hfinal.1]
  exact htheorem

/-- The programs of the samples: one effect on the HOL state. -/
def effect (change : SampleState → SampleState) : Program String SampleState :=
  .act (fun state => some (change state)) fun _ => .done

/-- The leaf of a sample: an effect, the call of the basis, and another effect. -/
def leafAround (before after : SampleState → SampleState) : Program String SampleState :=
  .act (fun state => some (before state)) fun _ => .load true "/p/basis.ml" (effect after)

theorem effect_calls (change : SampleState → SampleState) (once : Bool) (path : String) :
    ¬ Calls (effect change) once path := by
  rintro (_ | _ | h)
  cases h

theorem leafAround_calls {before after : SampleState → SampleState} {once : Bool} {path : String}
    (h : Calls (leafAround before after) once path) : once = true ∧ path = "/p/basis.ml" := by
  cases h with
  | act h =>
      cases h with
      | here => exact ⟨rfl, rfl⟩
      | load h => exact absurd h (effect_calls after once path)

/-- A leaf that sets the flag before it calls the basis. -/
def flagLeaf : Program String SampleState :=
  leafAround (fun state => { state with core := (1, state.core.2) }) id

/-- A leaf whose theorem is what the harness manages. -/
def managedLeaf : Program String SampleState :=
  leafAround id fun state => { state with core := (0, state.managed) }

/-- A leaf that calls the basis only if the flag is set. -/
def conditionalLeaf : Program String SampleState :=
  .act some fun state => if state.core.1 = 0 then .done else .load true "/p/basis.ml" .done

/-- A basis with a theorem. -/
def bindBasis (theorem_ : ℕ × ℕ → ℕ) : Program String SampleState :=
  effect fun state => { state with core := (state.core.1, theorem_ state.core) }

/-- A basis that changes what the harness manages. -/
def managedBasis : Program String SampleState :=
  effect fun state => { state with managed := 1 }

theorem conditionalLeaf_calls {once : Bool} {path : String} (h : Calls conditionalLeaf once path) :
    once = true ∧ path = "/p/basis.ml" := by
  rcases h with _ | _ | h
  dsimp only at h
  split at h
  · cases h
  · cases h with
    | here => exact ⟨rfl, rfl⟩
    | load h => cases h

/-- **Admission does not make basis replay a refinement.**  An admitted leaf can end with
another theorem: when the basis depends on what the leaf does before its call, when the
profile has loaded the basis already, when the basis changes what the harness restores,
and when the leaf does not reach its call. -/
theorem basisReplay_differs :
    Differs flagLeaf (bindBasis fun core => core.1 + 10) ⟨⟨(0, 0), 0⟩, []⟩ ∧
    Differs (leafAround id id) (bindBasis fun core => core.2 + 1)
      ⟨⟨(0, 1), 0⟩, [("basis.ml", "b")]⟩ ∧
    Differs managedLeaf managedBasis ⟨⟨(0, 0), 0⟩, []⟩ ∧
    Differs conditionalLeaf (bindBasis fun _ => 5) ⟨⟨(0, 0), 0⟩, []⟩ := by
  refine ⟨?_, ?_, ?_, ?_⟩
  · exact differs_of_execute ⟨⟨(0, 10), 0⟩, []⟩ ⟨⟨(1, 10), 0⟩, [("basis.ml", "b")]⟩
      ⟨⟨(1, 11), 0⟩, [("basis.ml", "b")]⟩ 9
      (sample_admitted (fun _ _ => leafAround_calls) (effect_calls _)) rfl rfl rfl (by decide)
  · exact differs_of_execute ⟨⟨(0, 2), 0⟩, [("basis.ml", "b")]⟩
      ⟨⟨(0, 2), 0⟩, [("basis.ml", "b"), ("basis.ml", "b")]⟩ ⟨⟨(0, 1), 0⟩, [("basis.ml", "b")]⟩ 9
      (sample_admitted (fun _ _ => leafAround_calls) (effect_calls _)) rfl rfl rfl (by decide)
  · exact differs_of_execute ⟨⟨(0, 0), 1⟩, []⟩ ⟨⟨(0, 0), 0⟩, [("basis.ml", "b")]⟩
      ⟨⟨(0, 1), 1⟩, [("basis.ml", "b")]⟩ 9
      (sample_admitted (fun _ _ => leafAround_calls) (effect_calls _)) rfl rfl rfl (by decide)
  · exact differs_of_execute ⟨⟨(0, 5), 0⟩, []⟩ ⟨⟨(0, 5), 0⟩, [("basis.ml", "b")]⟩ ⟨⟨(0, 0), 0⟩, []⟩ 9
      (sample_admitted (fun _ _ => conditionalLeaf_calls) (effect_calls _)) rfl rfl rfl (by decide)

/-- Evaluating a file that is one effect. -/
theorem evaluates_effect_iff {leaf : Program String SampleState} {change : SampleState → SampleState}
    {state state' : SampleState} {loaded loaded' : List FileId} :
    Evaluates (sampleFiles leaf (effect change)).sources "/p/basis.ml" state loaded state' loaded' ↔
      state' = change state ∧ loaded' = ("basis.ml", "b") :: loaded := by
  have hrun : Run (Step (sampleFiles leaf (effect change)).sources)
      ⟨[⟨effect change, some ("basis.ml", "b")⟩], state, loaded⟩ [.act, .leave]
      ⟨[], change state, ("basis.ml", "b") :: loaded⟩ :=
    .cons (step_act rfl) (.cons step_leave (.nil _))
  constructor
  · rintro ⟨source, events, hsource, h⟩
    cases hsource
    obtain ⟨-, hsame⟩ := run_deterministic h rfl hrun rfl
    cases hsame
    exact ⟨rfl, rfl⟩
  · rintro ⟨rfl, rfl⟩
    exact ⟨_, _, rfl, hrun⟩

/-- A leaf that sets a flag, which the basis neither reads nor sets, before it calls it. -/
theorem basisReplay_refines_sample :
    Refines (sampleFiles flagLeaf (bindBasis fun _ => 10)) "/p/leaf.ml" ⟨⟨(0, 0), 0⟩, []⟩
      ⟨⟨(0, 10), 0⟩, [("basis.ml", "b")]⟩ sampleTheorem ["T"] ∧
    ∃ events final, Completes (sampleFiles flagLeaf (bindBasis fun _ => 10))
      ⟨⟨(0, 10), 0⟩, [("basis.ml", "b")]⟩ "/p/leaf.ml" events final := by
  have hrun : Completes (sampleFiles flagLeaf (bindBasis fun _ => 10))
      ⟨⟨(0, 10), 0⟩, [("basis.ml", "b")]⟩ "/p/leaf.ml" [.act, .skip "/p/basis.ml", .act, .leave]
      ⟨⟨(1, 10), 0⟩, [("basis.ml", "b")]⟩ :=
    @execute_run _ _ _ _ (sampleFiles flagLeaf (bindBasis fun _ => 10)).sources 9 (evaluation _ flagLeaf)
  have hprepared : Completes (sampleFiles flagLeaf (bindBasis fun _ => 10)) ⟨⟨(0, 0), 0⟩, []⟩
      "/p/basis.ml" [.act, .leave] ⟨⟨(0, 10), 0⟩, []⟩ :=
    @execute_run _ _ _ _ (sampleFiles flagLeaf (bindBasis fun _ => 10)).sources 5
      (evaluation ⟨⟨(0, 0), 0⟩, []⟩ (bindBasis fun _ => 10))
  have hcalls : CallsAfterIndependentSteps (sampleFiles flagLeaf (bindBasis fun _ => 10)) "/p/leaf.ml"
      "/p/basis.ml" "b" ⟨⟨(0, 0), 0⟩, []⟩ ⟨⟨(0, 10), 0⟩, [("basis.ml", "b")]⟩ := by
    intro events final hfinal
    obtain ⟨rfl, -⟩ := run_deterministic hfinal rfl hrun rfl
    refine ⟨by decide, ?_⟩
    intro before event after machine hevents hnever hbefore frame hframe _
    -- the only step before the call is the effect
    match before, hevents with
    | [], hevents =>
        cases hbefore
        cases hframe
        intro state loaded state' loaded' after _ hevaluates hafter
        obtain ⟨rfl, rfl⟩ := evaluates_effect_iff.mp hevaluates
        cases hafter
        exact ⟨_, _, rfl, evaluates_effect_iff.mpr ⟨rfl, rfl⟩, fun _ => Iff.rfl, rfl⟩
    | [_], hevents =>
        simp only [List.cons_append, List.nil_append, List.cons.injEq] at hevents
        exact absurd (List.mem_append_right _ (by rw [← hevents.2.1]; exact List.mem_singleton_self _))
          hnever
    | _ :: second :: before, hevents =>
        simp only [List.cons_append, List.cons.injEq] at hevents
        exact absurd (by simp [hevents.2.1]) hnever
  exact ⟨basisReplay_refines (sample_admitted (fun _ _ => leafAround_calls) (effect_calls _))
    ⟨rfl, ⟨_, hprepared⟩, rfl⟩ (by simp) rfl hcalls sampleTheorem ["T"], _, _, hrun⟩

end Hearth.Basis
