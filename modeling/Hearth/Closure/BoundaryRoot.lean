import Hearth.Closure.Boundary

/-!
# The boundary that is inferred

Where neither a marker nor a repository bounds a source, `_implicit_literal_source_boundary`
follows its relative literals and widens the root on the way.  The root at the end is the
deepest directory above the entrypoint's directory and every file that is loaded, since
what was followed under an earlier root lies below the later ones as well; no order of the
loads leads to another one.
-/

namespace Hearth.Closure

open Hearth.Library
open Hearth.Library.Parts

namespace Machine

variable (machine : Machine)

/-- The file loads the other one by a relative literal that names it without a symbolic link. -/
def Loads (file loaded : Parts) : Prop :=
  ∃ edge ∈ machine.boundaryEdges file, machine.boundaryTarget file edge = .ok (some loaded)

/-- The file is reached from the entrypoint by this many loads. -/
inductive ReachedIn (entrypoint : Parts) : ℕ → Parts → Prop
  | start : ReachedIn entrypoint 0 entrypoint
  | load {loads : ℕ} {file loaded : Parts} : ReachedIn entrypoint loads file →
      machine.Loads file loaded → ReachedIn entrypoint (loads + 1) loaded

/-- The file is reached from the entrypoint by loads. -/
def Loaded (entrypoint file : Parts) : Prop :=
  ∃ loads, machine.ReachedIn entrypoint (loads + 1) file

/-- The entrypoint's directory, and the files that are loaded. -/
def Bounded (entrypoint initialRoot path : Parts) : Prop :=
  path = initialRoot ∨ machine.Loaded entrypoint path

/-- What an inference that raises has found. -/
inductive Refused (entrypoint initialRoot : Parts) (maxDepth maxFiles : ℕ) : ClosureError → Prop
  /-- Every directory that would do lies more than eight levels above the entrypoint's. -/
  | parentAscent {observed : ℕ} {dependency : Parts} : machine.Loaded entrypoint dependency →
      maxImplicitParentAscents < observed →
      (∀ directory, (∀ path, machine.Bounded entrypoint initialRoot path → Within path directory) →
        directory.length + observed ≤ initialRoot.length) →
      Refused entrypoint initialRoot maxDepth maxFiles
        (.inferenceLimit "parent_ascent" maxImplicitParentAscents observed dependency)
  /-- A chain of loads is too long. -/
  | depth {observed : ℕ} {dependency : Parts} : machine.ReachedIn entrypoint observed dependency →
      maxDepth < observed →
      Refused entrypoint initialRoot maxDepth maxFiles (.inferenceLimit "depth" maxDepth observed dependency)
  /-- Too many files are loaded. -/
  | files {observed : ℕ} {dependency : Parts} (followed : List Parts) : dependency ∈ followed →
      followed.Nodup → followed.length = observed → maxFiles < observed →
      (∀ file ∈ followed, machine.Loaded entrypoint file ∧ file ≠ entrypoint) →
      Refused entrypoint initialRoot maxDepth maxFiles (.inferenceLimit "files" maxFiles observed dependency)
  /-- A literal names the home directory of somebody unknown. -/
  | homeUnknown {loads : ℕ} {file : Parts} {edge : LoadEdge} : machine.ReachedIn entrypoint loads file →
      edge ∈ machine.boundaryEdges file →
      machine.fs.expanduser (RawPath.ofString edge.declaredPath) = none →
      Refused entrypoint initialRoot maxDepth maxFiles .homeUnknown

variable {machine}

theorem ReachedIn.loaded_or_start {entrypoint file : Parts} {loads : ℕ}
    (h : machine.ReachedIn entrypoint loads file) : file = entrypoint ∨ machine.Loaded entrypoint file := by
  cases h with
  | start => exact .inl rfl
  | load hfile hloads => exact .inr ⟨_, hfile.load hloads⟩

/-- A target is refused only for the home directory in its literal. -/
theorem boundaryTarget_error {file : Parts} {edge : LoadEdge} {error : ClosureError}
    (h : machine.boundaryTarget file edge = .error error) :
    error = .homeUnknown ∧ machine.fs.expanduser (RawPath.ofString edge.declaredPath) = none := by
  unfold boundaryTarget at h
  split at h
  · rename_i hhome
    cases h
    exact ⟨rfl, hhome⟩
  · split at h
    · cases h
    · cases h

/-! ## One round -/

/-- The search goes on from here to there: its root climbs, and what it visits is pending. -/
structure Extends (search next : BoundarySearch) : Prop where
  climbs : Within search.root next.root
  visited : search.visited ⊆ next.visited
  pending : search.pending ⊆ next.pending
  discovered : ∀ file ∈ next.visited, file ∈ search.visited ∨ ∃ depth, (file, depth) ∈ next.pending

theorem Extends.refl (search : BoundarySearch) : Extends search search :=
  ⟨List.prefix_rfl, List.Subset.refl _, List.Subset.refl _, fun _ => .inl⟩

theorem Extends.trans {search middle next : BoundarySearch} (h : Extends search middle)
    (h' : Extends middle next) : Extends search next := by
  refine ⟨h.climbs.trans h'.climbs, fun _ hmem => h'.visited (h.visited hmem),
    fun _ hmem => h'.pending (h.pending hmem), ?_⟩
  intro file hfile
  rcases h'.discovered file hfile with hmiddle | hpending
  · rcases h.discovered file hmiddle with hsearch | ⟨depth, hdepth⟩
    · exact .inl hsearch
    · exact .inr ⟨depth, h'.pending hdepth⟩
  · exact .inr hpending

/-- A file that is visited for the first time becomes pending. -/
theorem Extends.push {search : BoundarySearch} {root loaded : Parts} {depth followed ascents : ℕ}
    (hclimbs : Within search.root root) :
    Extends search ⟨root, (loaded, depth) :: search.pending, loaded :: search.visited, followed, ascents⟩ := by
  refine ⟨hclimbs, fun _ => List.mem_cons_of_mem _, fun _ => List.mem_cons_of_mem _, ?_⟩
  intro file hfile
  rcases List.mem_cons.mp hfile with rfl | hfile
  · exact .inr ⟨depth, List.mem_cons_self⟩
  · exact .inl hfile

/-- The target of a load has been visited, and lies below the root. -/
def Followed (machine : Machine) (search : BoundarySearch) (file : Parts) (edge : LoadEdge) : Prop :=
  ∀ loaded, machine.boundaryTarget file edge = .ok (some loaded) →
    loaded ∈ search.visited ∧ Within loaded search.root

theorem Followed.mono {search next : BoundarySearch} {file : Parts} {edge : LoadEdge}
    (h : Followed machine search file edge) (hvisited : search.visited ⊆ next.visited)
    (hclimbs : Within search.root next.root) : Followed machine next file edge := by
  intro loaded htarget
  obtain ⟨hseen, hwithin⟩ := h loaded htarget
  exact ⟨hvisited hseen, hwithin.trans hclimbs⟩

/-- What holds of the search at any time. -/
structure Sound (machine : Machine) (entrypoint initialRoot : Parts) (search : BoundarySearch) : Prop where
  above : Within initialRoot search.root
  deepest : ∀ directory, (∀ path, machine.Bounded entrypoint initialRoot path → Within path directory) →
    Within search.root directory
  pending : ∀ {file depth}, (file, depth) ∈ search.pending →
    ∃ loads, depth = loads + 1 ∧ machine.ReachedIn entrypoint loads file
  visited : ∀ file ∈ search.visited, ∃ loads, machine.ReachedIn entrypoint loads file
  entered : entrypoint ∈ search.visited
  nodup : search.visited.Nodup
  counted : search.visited.length = search.followedFiles + 1

section

variable {entrypoint initialRoot file : Parts} {loads maxDepth maxFiles : ℕ} {search : BoundarySearch}

/-- What a load widens the root to still lies below everything that contains the bounded paths. -/
theorem Sound.deepest_commonpath (h : Sound machine entrypoint initialRoot search) {loaded : Parts}
    (hloaded : machine.Loaded entrypoint loaded) (directory : Parts)
    (hcontains : ∀ path, machine.Bounded entrypoint initialRoot path → Within path directory) :
    Within (commonpath search.root loaded) directory :=
  (h.deepest directory hcontains).commonpath (hcontains loaded (.inr hloaded))

/-- The files that were followed and this one are too many. -/
theorem Sound.refused_files (h : Sound machine entrypoint initialRoot search) {loaded : Parts}
    (hreached : machine.ReachedIn entrypoint (loads + 1) loaded) (hvisited : loaded ∉ search.visited)
    (hfiles : maxFiles ≤ search.followedFiles) :
    machine.Refused entrypoint initialRoot maxDepth maxFiles
      (.inferenceLimit "files" maxFiles (search.followedFiles + 1) loaded) := by
  have hne : loaded ≠ entrypoint := fun heq => hvisited (heq ▸ h.entered)
  refine .files (loaded :: search.visited.erase entrypoint) List.mem_cons_self ?_ ?_
    (Nat.lt_succ_of_le hfiles) ?_
  · exact List.nodup_cons.mpr ⟨fun hmem => hvisited (List.mem_of_mem_erase hmem), h.nodup.erase entrypoint⟩
  · rw [List.length_cons, List.length_erase_of_mem h.entered, h.counted, Nat.add_sub_cancel]
  · intro other hother
    rcases List.mem_cons.mp hother with rfl | hother
    · exact ⟨⟨loads, hreached⟩, hne⟩
    · obtain ⟨hstart, hmem⟩ := h.nodup.mem_erase_iff.mp hother
      obtain ⟨count, hcount⟩ := h.visited other hmem
      exact ⟨hcount.loaded_or_start.resolve_left hstart, hstart⟩

theorem Sound.push (h : Sound machine entrypoint initialRoot search) {root loaded : Parts} {ascents : ℕ}
    (hreached : machine.ReachedIn entrypoint loads loaded) (hvisited : loaded ∉ search.visited)
    (habove : Within initialRoot root)
    (hdeepest : ∀ directory, (∀ path, machine.Bounded entrypoint initialRoot path → Within path directory) →
      Within root directory) :
    Sound machine entrypoint initialRoot ⟨root, (loaded, loads + 1) :: search.pending, loaded :: search.visited,
      search.followedFiles + 1, ascents⟩ := by
  refine ⟨habove, hdeepest, ?_, ?_, List.mem_cons_of_mem _ h.entered, List.nodup_cons.mpr ⟨hvisited, h.nodup⟩, ?_⟩
  · intro other depth hother
    rcases List.mem_cons.mp hother with heq | hother
    · cases heq
      exact ⟨loads, rfl, hreached⟩
    · exact h.pending hother
  · intro other hother
    rcases List.mem_cons.mp hother with rfl | hother
    · exact ⟨loads, hreached⟩
    · exact h.visited other hother
  · rw [List.length_cons, h.counted]

/-- A round ends with the target followed, or raises for what it has found. -/
theorem boundaryStep_sound (h : Sound machine entrypoint initialRoot search)
    (hfile : machine.ReachedIn entrypoint loads file) {edge : LoadEdge}
    (hedge : edge ∈ machine.boundaryEdges file) :
    Settles (machine.boundaryStep initialRoot file (loads + 1) maxDepth maxFiles search edge)
      (fun next => Sound machine entrypoint initialRoot next ∧ Extends search next ∧
        Followed machine next file edge)
      (machine.Refused entrypoint initialRoot maxDepth maxFiles) := by
  unfold boundaryStep
  cases htarget : machine.boundaryTarget file edge with
  | error error =>
      obtain ⟨rfl, hhome⟩ := boundaryTarget_error htarget
      exact .throw (.homeUnknown hfile hedge hhome)
  | ok target =>
      cases target with
      | none =>
          refine .pure ⟨h, Extends.refl search, ?_⟩
          intro loaded hloaded
          rw [htarget] at hloaded
          cases hloaded
      | some loaded =>
          have hreached : machine.ReachedIn entrypoint (loads + 1) loaded := hfile.load ⟨edge, hedge, htarget⟩
          have hloaded : machine.Loaded entrypoint loaded := ⟨loads, hreached⟩
          have hclimbs := within_commonpath search.root loaded
          have habove : Within initialRoot (commonpath search.root loaded) := h.above.trans hclimbs
          have hdeepest := h.deepest_commonpath hloaded
          have hfollowed : ∀ {next : BoundarySearch}, next.root = commonpath search.root loaded →
              loaded ∈ next.visited → Followed machine next file edge := by
            intro next hroot hvisited other hother
            rw [htarget] at hother
            cases hother
            exact ⟨hvisited, hroot ▸ within_commonpath_right _ _⟩
          show Settles (if _ then _ else _) _ _
          by_cases hascent : maxImplicitParentAscents <
              initialRoot.length - (commonpath search.root loaded).length
          · rw [if_pos hascent]
            refine .throw (.parentAscent hloaded hascent ?_)
            intro directory hcontains
            have hshorter := (hdeepest directory hcontains).length_le
            omega
          rw [if_neg hascent]
          by_cases hvisited : loaded ∈ search.visited
          · rw [if_pos hvisited]
            exact .pure ⟨⟨habove, hdeepest, h.pending, h.visited, h.entered, h.nodup, h.counted⟩,
              ⟨hclimbs, List.Subset.refl _, List.Subset.refl _, fun _ => .inl⟩, hfollowed rfl hvisited⟩
          rw [if_neg hvisited]
          by_cases hdepth : maxDepth < loads + 1
          · rw [if_pos hdepth]
            exact .throw (.depth hreached hdepth)
          rw [if_neg hdepth]
          by_cases hfiles : maxFiles ≤ search.followedFiles
          · rw [if_pos hfiles]
            exact .throw (h.refused_files hreached hvisited hfiles)
          rw [if_neg hfiles]
          exact .pure ⟨h.push hreached hvisited habove hdeepest, Extends.push hclimbs,
            hfollowed rfl List.mem_cons_self⟩

theorem boundarySteps_sound (h : Sound machine entrypoint initialRoot search)
    (hfile : machine.ReachedIn entrypoint loads file) {edges : List LoadEdge}
    (hedges : edges ⊆ machine.boundaryEdges file) :
    Settles (edges.foldlM (machine.boundaryStep initialRoot file (loads + 1) maxDepth maxFiles) search)
      (fun next => Sound machine entrypoint initialRoot next ∧ Extends search next ∧
        ∀ edge ∈ edges, Followed machine next file edge)
      (machine.Refused entrypoint initialRoot maxDepth maxFiles) := by
  induction edges generalizing search with
  | nil => exact .pure ⟨h, Extends.refl search, fun _ hedge => absurd hedge List.not_mem_nil⟩
  | cons edge edges ih =>
      rw [List.foldlM_cons]
      refine (boundaryStep_sound h hfile (hedges List.mem_cons_self)).bind ?_
      intro middle _ hmiddle
      obtain ⟨hsound, hextends, hfollowed⟩ := hmiddle
      refine (ih hsound (List.subset_of_cons_subset hedges)).imp ?_
      intro next hnext
      obtain ⟨hsound', hextends', hfollowed'⟩ := hnext
      refine ⟨hsound', hextends.trans hextends', ?_⟩
      intro other hother
      rcases List.mem_cons.mp hother with rfl | hother
      · exact hfollowed.mono hextends'.visited hextends'.climbs
      · exact hfollowed' other hother

/-! ## The loop -/

/-- The loads of a visited file that is not pending have been followed. -/
def Closed (machine : Machine) (search : BoundarySearch) : Prop :=
  ∀ file ∈ search.visited, (∃ depth, (file, depth) ∈ search.pending) ∨
    ∀ edge ∈ machine.boundaryEdges file, Followed machine search file edge

/-- A search that is done has found the deepest directory above all that is loaded. -/
theorem Sound.commonRoot (h : Sound machine entrypoint initialRoot search) (hclosed : Closed machine search)
    (hdone : search.pending = []) : CommonRoot (machine.Bounded entrypoint initialRoot) search.root := by
  have hfollowed : ∀ {file loaded : Parts}, file ∈ search.visited → machine.Loads file loaded →
      loaded ∈ search.visited ∧ Within loaded search.root := by
    rintro file loaded hfile ⟨edge, hedge, htarget⟩
    rcases hclosed file hfile with ⟨depth, hpending⟩ | hloads
    · rw [hdone] at hpending
      exact absurd hpending List.not_mem_nil
    · exact hloads edge hedge loaded htarget
  have hvisited : ∀ {loads : ℕ} {file : Parts}, machine.ReachedIn entrypoint loads file →
      file ∈ search.visited := by
    intro loads file hreached
    induction hreached with
    | start => exact h.entered
    | load _ hloads ih => exact (hfollowed ih hloads).1
  refine ⟨?_, h.deepest⟩
  rintro path (rfl | ⟨loads, hreached⟩)
  · exact h.above
  · cases hreached with
    | load hfile hloads => exact (hfollowed (hvisited hfile) hloads).2

theorem Closed.next {next : BoundarySearch} {depth : ℕ} {rest : List (Parts × ℕ)}
    (h : Closed machine search) (hpending : search.pending = (file, depth) :: rest)
    (hextends : Extends { search with pending := rest } next)
    (hfollowed : ∀ edge ∈ machine.boundaryEdges file, Followed machine next file edge) :
    Closed machine next := by
  intro other hother
  rcases hextends.discovered other hother with hvisited | hnew
  · rcases h other hvisited with ⟨depth', hmem⟩ | hloads
    · rw [hpending] at hmem
      rcases List.mem_cons.mp hmem with heq | hmem
      · cases heq
        exact .inr hfollowed
      · exact .inl ⟨depth', hextends.pending hmem⟩
    · exact .inr fun edge hedge => (hloads edge hedge).mono hextends.visited hextends.climbs
  · exact .inl hnew

theorem boundaryLoop_nil (h : search.pending = []) :
    machine.boundaryLoop initialRoot maxDepth maxFiles search = .ok search := by
  rw [boundaryLoop]
  split
  · rfl
  · rename_i hpending
    rw [h] at hpending
    cases hpending

theorem boundaryLoop_cons {depth : ℕ} {rest : List (Parts × ℕ)} (h : search.pending = (file, depth) :: rest) :
    machine.boundaryLoop initialRoot maxDepth maxFiles search =
      ((machine.boundaryEdges file).foldlM (machine.boundaryStep initialRoot file depth maxDepth maxFiles)
        { search with pending := rest } >>= machine.boundaryLoop initialRoot maxDepth maxFiles) := by
  rw [boundaryLoop]
  split
  · rename_i hpending
    rw [h] at hpending
    cases hpending
  · rename_i hpending
    rw [h] at hpending
    cases hpending
    split
    · rename_i herror
      rw [herror]
      rfl
    · rename_i hnext
      rw [hnext]
      rfl

theorem boundaryLoop_sound (work : ℕ) {search : BoundarySearch} (hwork : boundaryWork maxFiles search ≤ work)
    (h : Sound machine entrypoint initialRoot search) (hclosed : Closed machine search) :
    Settles (machine.boundaryLoop initialRoot maxDepth maxFiles search)
      (fun final => CommonRoot (machine.Bounded entrypoint initialRoot) final.root)
      (machine.Refused entrypoint initialRoot maxDepth maxFiles) := by
  induction work generalizing search with
  | zero =>
      have hempty : search.pending = [] := by
        unfold boundaryWork at hwork
        exact List.length_eq_zero_iff.mp (by omega)
      rw [boundaryLoop_nil hempty]
      exact .pure (h.commonRoot hclosed hempty)
  | succ work ih =>
      cases hpending : search.pending with
      | nil =>
          rw [boundaryLoop_nil hpending]
          exact .pure (h.commonRoot hclosed hpending)
      | cons item rest =>
          obtain ⟨file, depth⟩ := item
          obtain ⟨loads, rfl, hreached⟩ := h.pending (hpending ▸ List.mem_cons_self)
          have hrest : Sound machine entrypoint initialRoot { search with pending := rest } :=
            { h with pending := fun hmem => h.pending (hpending ▸ List.mem_cons_of_mem _ hmem) }
          rw [boundaryLoop_cons hpending]
          refine (boundarySteps_sound hrest hreached (List.Subset.refl _)).bind ?_
          intro next hnext hgood
          obtain ⟨hsound, hextends, hfollowed⟩ := hgood
          have hless : boundaryWork maxFiles next ≤ work := by
            have hsame := (boundarySteps_spec hnext).1
            have hlength : search.pending.length = rest.length + 1 := by
              rw [hpending, List.length_cons]
            unfold boundaryWork at hsame hwork ⊢
            dsimp only at hsame
            omega
          exact ih hless hsound (hclosed.next hpending hextends hfollowed)

/-! ## The root -/

/-- Where neither a marker nor a repository bounds the source, its boundary is inferred. -/
def Unbounded (machine : Machine) (entrypoint : Parts) : Prop :=
  (∀ directory, Within (parent entrypoint) directory → machine.markerDigest directory = none) ∧
    machine.nearestRepositoryRoot entrypoint = some none

/-- Then the boundary is the one that is inferred. -/
theorem Unbounded.sourceBoundary (h : machine.Unbounded entrypoint) :
    machine.sourceBoundary entrypoint maxDepth maxFiles =
      machine.implicitLiteralSourceBoundary entrypoint maxDepth maxFiles := by
  have hnone : (ancestors (parent entrypoint)).find?
      (fun candidate => (machine.markerDigest candidate).isSome) = none := by
    apply List.find?_eq_none.mpr
    intro directory hmem
    rw [h.1 directory (mem_ancestors.mp hmem)]
    exact Bool.false_ne_true
  unfold Machine.sourceBoundary
  rw [hnone, h.2]

theorem implicitLiteralSourceBoundary_none (h : machine.fs.resolve (parent entrypoint) = none) :
    machine.implicitLiteralSourceBoundary entrypoint maxDepth maxFiles = .ok none := by
  unfold implicitLiteralSourceBoundary
  rw [h]
  rfl

/-- An inference ends with the deepest directory above all that is bounded, or raises. -/
theorem implicitLiteralSourceBoundary_sound {initialRoot : Parts}
    (hinitial : machine.fs.resolve (parent entrypoint) = some initialRoot) :
    Settles (machine.implicitLiteralSourceBoundary entrypoint maxDepth maxFiles)
      (fun found => ∃ root facts, found = some (root, facts) ∧
        CommonRoot (machine.Bounded entrypoint initialRoot) root)
      (machine.Refused entrypoint initialRoot maxDepth maxFiles) := by
  have hstart : Sound machine entrypoint initialRoot ⟨initialRoot, [(entrypoint, 1)], [entrypoint], 0, 0⟩ :=
    { above := List.prefix_rfl
      deepest := fun _ hcontains => hcontains initialRoot (.inl rfl)
      pending := by
        intro file depth hmem
        cases List.mem_singleton.mp hmem
        exact ⟨0, rfl, .start⟩
      visited := by
        intro file hmem
        rw [List.mem_singleton.mp hmem]
        exact ⟨0, .start⟩
      entered := List.mem_cons_self
      nodup := List.nodup_singleton entrypoint
      counted := rfl }
  have hclosed : Closed machine ⟨initialRoot, [(entrypoint, 1)], [entrypoint], 0, 0⟩ := by
    intro file hmem
    rw [List.mem_singleton.mp hmem]
    exact .inl ⟨1, List.mem_cons_self⟩
  unfold implicitLiteralSourceBoundary
  rw [hinitial]
  exact (boundaryLoop_sound _ (le_refl _) hstart hclosed).bind fun search _ hcommon =>
    .pure ⟨search.root, _, rfl, hcommon⟩

end

/-- Every file of the one tree loads what it loads in the other, in whatever order. -/
def SameLoads (machine other : Machine) : Prop :=
  ∀ file loaded, machine.Loads file loaded ↔ other.Loads file loaded

theorem SameLoads.bounded {machine other : Machine} (h : machine.SameLoads other) {entrypoint initialRoot path : Parts}
    (hpath : machine.Bounded entrypoint initialRoot path) : other.Bounded entrypoint initialRoot path := by
  have hreached : ∀ {loads : ℕ} {file : Parts}, machine.ReachedIn entrypoint loads file →
      other.ReachedIn entrypoint loads file := by
    intro loads file hfile
    induction hfile with
    | start => exact .start
    | load _ hloads ih => exact ih.load ((h _ _).mp hloads)
  rcases hpath with heq | ⟨loads, hloaded⟩
  · exact .inl heq
  · exact .inr ⟨loads, hreached hloaded⟩

theorem SameLoads.commonRoot {machine other : Machine} (h : machine.SameLoads other) {entrypoint initialRoot root : Parts}
    (hcommon : CommonRoot (other.Bounded entrypoint initialRoot) root) :
    CommonRoot (machine.Bounded entrypoint initialRoot) root where
  contains := fun path hpath => hcommon.contains path (h.bounded hpath)
  deepest := fun directory hcontains => hcommon.deepest directory fun path hpath =>
    hcontains path (SameLoads.bounded (fun file loaded => (h file loaded).symm) hpath)

end Machine

/-- A machine with these sources. -/
def treeMachine (files : List (Parts × String)) : Machine where
  fs := .ofFiles (files.map fun file => (file.1, utf8 file.2))
  isDirectory := fun path => files.any fun file => Within (parent file.1) path
  cwd := []
  sha256 := fun _ => ""
  tables := .ascii
  isSpace := fun char => char = ' '
  repr := fun _ => ""
  readJson := fun _ => .error ""
  declaredTheorems := fun _ => []

/-- Two sources that load one another across directories. -/
def linkedTree : Machine :=
  treeMachine [
    (["work", "app", "main.ml"], "needs \"../lib/words.ml\";;"),
    (["work", "lib", "words.ml"], "loads \"../app/main.ml\";;\nloads \"missing.ml\";;")]

theorem exists_facts {boundary : Except ClosureError (Option (Parts × Json))} {root : Parts}
    (h : boundary.toOption.map (Option.map Prod.fst) = some (some root)) :
    ∃ facts, boundary = .ok (some (root, facts)) := by
  cases boundary with
  | error error => cases h
  | ok found =>
      obtain ⟨pair, rfl, rfl⟩ := Option.map_eq_some_iff.mp (Option.some.inj h)
      exact ⟨pair.2, rfl⟩

/-- In these trees no directory above the sources has a marker, and none is a repository. -/
theorem linkedTree_unbounded : linkedTree.Unbounded ["work", "app", "main.ml"] := by
  have hmarkers : ((ancestors ["work", "app"]).all fun directory =>
      decide (linkedTree.markerDigest directory = none)) = true := by
    decide +kernel
  refine ⟨fun directory hwithin => ?_, by decide +kernel⟩
  exact of_decide_eq_true (List.all_eq_true.mp hmarkers directory (mem_ancestors.mpr hwithin))

/-- A source that loads from the home directory of somebody unknown. -/
def strangerTree : Machine :=
  treeMachine [(["work", "main.ml"], "needs \"~nobody/words.ml\";;")]

/-- A chain of sources with a short cut to its end, which is loaded before the chain or behind it. -/
def chainTree (loads : String) : Machine :=
  treeMachine [
    (["work", "main.ml"], loads),
    (["work", "first.ml"], "loads \"second.ml\";;"),
    (["work", "second.ml"], "loads \"third.ml\";;"),
    (["work", "third.ml"], "loads \"last.ml\";;"),
    (["work", "short.ml"], "loads \"third.ml\";;"),
    (["work", "last.ml"], "let last = 0;;")]

end Hearth.Closure
