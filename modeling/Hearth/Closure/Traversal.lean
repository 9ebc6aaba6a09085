import Hearth.Closure.Build
import Hearth.Library.DepthFirst
import Hearth.Library.Pointwise
import Hearth.Loader.Completeness

/-!
# The capture is a depth-first search

`visitFile` is related to the search of `Library.DepthFirst` whose nodes are the calls of
`visit`, told apart by the path they open, and whose edges are the closure's records.  One
pass over the edges of a file makes the forest of the search and the rows that the files
of the forest contribute; a returned closure is the walk from the entrypoint.
-/

namespace Hearth.Closure

open Hearth.Library
open Hearth.Library.Parts
open Hearth.Loader (LoaderUse loaderUses tokenize scanOcamlLoaders scanOcamlLoaders_complete
  scanOcamlLoaders_cases RowFor)

/-- What the traversal flag says the search did. -/
def Traversal.mark : Traversal → Mark
  | .notFollowed => .skipped
  | .cycle => .cycle
  | .alreadySeen => .seen
  | .unreadable => .barred
  | .followed => .followed

theorem Traversal.mark_eq_barred {traversal : Traversal} (h : traversal.mark = .barred) :
    traversal = .unreadable := by
  cases traversal <;> first | rfl | cases h

namespace Capture

variable (capture : Capture)

/-- The analysis of the file that a call of `visit` opens, if it can be read. -/
def analysisOf (visit : Visit) : Option Analysis :=
  (capture.fs.readBeneath visit.trustedRoot visit.current).toOption.map (analyze capture.tables)

/-- The record of this literal load, whatever its flag. -/
def RecordOf (visit : Visit) (edge : LoadEdge) (record : Record) : Prop :=
  capture.edgeRecord visit edge = .ok (record.flagged .notFollowed)

/-- The records are those of the file's literal loads, one for each, in lexical order. -/
def Loads (visit : Visit) (records : List Record) : Prop :=
  match capture.analysisOf visit with
  | none => records = []
  | some analysis => List.Forall₂ (capture.RecordOf visit) analysis.edges records

/-- The search that a capture makes. -/
def search : Search Visit Record Parts where
  key := Visit.current
  Loads := capture.Loads
  target := Record.followable
  Barred record := record.sha256 = none
  child visit record resolved := childVisit visit record resolved
  key_child _ _ _ := rfl
  mark record := record.traversal.mark

/-! ## The rows that opened files contribute -/

abbrev Rows := List (Visit × List Record)

def dynamicRows (visit : Visit) : List (Declared DynamicLoader) :=
  ((capture.analysisOf visit).map fun analysis => analysis.dynamic.map fun row =>
    (⟨row, portablePath capture.portableRoots visit.current, visit.current⟩ : Declared _)).getD []

def artifactRows (visit : Visit) : List (ArtifactRef × Parts) :=
  ((capture.analysisOf visit).map fun analysis => analysis.artifactRefs.map fun row =>
    (row, visit.current)).getD []

def dynamicArtifactRows (visit : Visit) : List (Declared DynamicArtifactRef) :=
  ((capture.analysisOf visit).map fun analysis => analysis.dynamicArtifactRefs.map fun row =>
    (⟨row, portablePath { capture.portableRoots with logicalSourceRoots := [] } visit.current,
      visit.current⟩ : Declared _)).getD []

/-- A stretch of the capture: the forest it walked and the files it opened. -/
structure Explored (active : List Parts) (visit : Visit) (walk walk' : Walk)
    (forest : Forest Visit Record) (rows : Rows) : Prop where
  depthFirst : DepthFirst capture.search active visit walk.visited forest walk'.visited
  records : walk'.records = walk.records ++ forest.preorder
  dynamic : walk'.dynamicLoaders = walk.dynamicLoaders ++
    rows.flatMap fun row => capture.dynamicRows row.1
  artifacts : walk'.artifactReferences = walk.artifactReferences ++
    rows.flatMap fun row => capture.artifactRows row.1
  dynamicArtifacts : walk'.dynamicArtifacts = walk.dynamicArtifacts ++
    rows.flatMap fun row => capture.dynamicArtifactRows row.1
  limits : walk'.limitReasons = [] → walk.limitReasons = [] ∧
    (∀ row ∈ rows, (capture.analysisOf row.1).isSome) ∧
    ∀ record ∈ forest.preorder, record.traversal ≠ .unreadable

/-- A call that opens a file makes its forest and contributes it and all files below it. -/
def Opens (descend : Visit → List Parts → Walk → Except ClosureError Walk) : Prop :=
  ∀ visit active walk walk', descend visit active walk = .ok walk' →
    ∃ forest, capture.Loads visit forest.own ∧
      capture.Explored active visit walk walk' forest (Searched.rows visit forest)

variable {capture}

namespace Explored

variable {active : List Parts} {visit : Visit} {walk walk' : Walk} {forest : Forest Visit Record}
  {rows : Rows}

/-- The end of the edges of a file. -/
theorem done (active : List Parts) (visit : Visit) (walk : Walk) :
    capture.Explored active visit walk walk .done [] where
  depthFirst := .done
  records := by simp [Forest.preorder]
  dynamic := by simp
  artifacts := by simp
  dynamicArtifacts := by simp
  limits h := ⟨h, by simp, by simp [Forest.preorder]⟩

/-- An edge that is not taken, in front of the rest. -/
theorem leaf {record : Record} {traversal : Traversal}
    (hreadable : traversal ≠ .unreadable)
    (hwalk : DepthFirst capture.search active visit walk.visited forest walk'.visited →
      DepthFirst capture.search active visit walk.visited
        (.leaf (record.flagged traversal) forest) walk'.visited)
    (hrest : capture.Explored active visit (walk.emit record traversal) walk' forest rows) :
    capture.Explored active visit walk walk' (.leaf (record.flagged traversal) forest) rows where
  depthFirst := hwalk hrest.depthFirst
  records := by
    rw [hrest.records]
    simp [Walk.emit, Forest.preorder]
  dynamic := hrest.dynamic
  artifacts := hrest.artifacts
  dynamicArtifacts := hrest.dynamicArtifacts
  limits h := by
    obtain ⟨hempty, hrows, hrecords⟩ := hrest.limits h
    refine ⟨hempty, hrows, ?_⟩
    intro record' hmem
    rcases List.mem_cons.mp hmem with rfl | hmem
    · exact hreadable
    · exact hrecords record' hmem

/-- A file that cannot be read leaves a limit reason. -/
theorem barred {record : Record} {reason : Parts}
    (hwalk : DepthFirst capture.search active visit walk.visited forest walk'.visited →
      DepthFirst capture.search active visit walk.visited
        (.leaf (record.flagged .unreadable) forest) walk'.visited)
    (hrest : capture.Explored active visit ((walk.emit record .unreadable).limit reason) walk' forest
      rows) :
    capture.Explored active visit walk walk' (.leaf (record.flagged .unreadable) forest)
      rows where
  depthFirst := hwalk hrest.depthFirst
  records := by
    rw [hrest.records]
    simp [Walk.emit, Walk.limit, Forest.preorder]
  dynamic := hrest.dynamic
  artifacts := hrest.artifacts
  dynamicArtifacts := hrest.dynamicArtifacts
  limits h := by
    have hlimit := (hrest.limits h).1
    simp [Walk.limit] at hlimit

/-- An edge that is taken: the walk below its target, then the rest. -/
theorem followed {record : Record} {resolved : Parts} {middle : Walk}
    {below : Forest Visit Record} (htarget : record.followable = some resolved)
    (hactive : resolved ∉ active) (hseen : resolved ∉ walk.visited) (hdigest : record.sha256 ≠ none)
    (hloads : capture.Loads (childVisit visit record resolved) below.own)
    (hbelow : capture.Explored (resolved :: active) (childVisit visit record resolved)
      ((walk.emit record .followed).enter resolved) middle below
      (Searched.rows (childVisit visit record resolved) below))
    (hrest : capture.Explored active visit middle walk' forest rows) :
    capture.Explored active visit walk walk'
      (.followed (record.flagged .followed) (childVisit visit record resolved) below forest)
      (Searched.rows (childVisit visit record resolved) below ++ rows) where
  depthFirst :=
    @DepthFirst.followed _ _ _ capture.search active visit walk.visited middle.visited walk'.visited
      (record.flagged .followed) below forest resolved htarget hactive hseen hdigest rfl
      hloads hbelow.depthFirst hrest.depthFirst
  records := by
    rw [hrest.records, hbelow.records]
    simp [Walk.emit, Walk.enter, Forest.preorder]
  dynamic := by
    rw [hrest.dynamic, hbelow.dynamic]
    simp [Walk.emit, Walk.enter]
  artifacts := by
    rw [hrest.artifacts, hbelow.artifacts]
    simp [Walk.emit, Walk.enter]
  dynamicArtifacts := by
    rw [hrest.dynamicArtifacts, hbelow.dynamicArtifacts]
    simp [Walk.emit, Walk.enter]
  limits h := by
    obtain ⟨hmiddle, hrows, hrecords⟩ := hrest.limits h
    obtain ⟨hwalk, hrowsBelow, hrecordsBelow⟩ := hbelow.limits hmiddle
    refine ⟨hwalk, ?_, ?_⟩
    · intro row hrow
      rcases List.mem_append.mp hrow with hrow | hrow
      · exact hrowsBelow row hrow
      · exact hrows row hrow
    · intro record' hmem
      simp only [Forest.preorder, List.mem_cons, List.mem_append] at hmem
      rcases hmem with rfl | hmem | hmem
      · exact fun heq => by cases heq
      · exact hrecordsBelow record' hmem
      · exact hrecords record' hmem

end Explored

/-! ## The loop and the recursion -/

/-- The record of a round before its flag is chosen. -/
theorem edgeRecord_traversal {visit : Visit} {edge : LoadEdge} {record : Record}
    (h : capture.edgeRecord visit edge = .ok record) : record.traversal = .notFollowed := by
  obtain ⟨found, -, rfl⟩ := edgeRecord_eq_ok h
  exact (foundRecord_madeFor visit edge found).traversal

theorem recordOf_flagged {visit : Visit} {edge : LoadEdge} {record : Record} (traversal : Traversal)
    (h : capture.edgeRecord visit edge = .ok record) :
    capture.RecordOf visit edge (record.flagged traversal) := by
  unfold RecordOf
  rw [h, Record.flagged_flagged, Record.flagged_self (edgeRecord_traversal h)]

/-- A record is made of what its edge resolves to. -/
theorem RecordOf.found {visit : Visit} {edge : LoadEdge} {record : Record}
    (h : capture.RecordOf visit edge record) :
    ∃ found, capture.resolve visit edge = some found ∧
      record.flagged .notFollowed = capture.foundRecord visit edge found ∧
      (record.flagged .notFollowed).MadeFor capture visit edge found := by
  obtain ⟨found, hfound, hrecord⟩ := edgeRecord_eq_ok h
  refine ⟨found, hfound, hrecord, ?_⟩
  rw [hrecord]
  exact foundRecord_madeFor visit edge found

/-- One pass over the edges of a file. -/
theorem visitEdges_explored {descend : Visit → List Parts → Walk → Except ClosureError Walk}
    (hdescend : capture.Opens descend) {visit : Visit} {active : List Parts} {edges : List LoadEdge}
    {walk walk' : Walk} (h : capture.visitEdges descend visit active edges walk = .ok walk') :
    ∃ forest, List.Forall₂ (capture.RecordOf visit) edges forest.own ∧
      capture.Explored active visit walk walk' forest forest.opened := by
  induction edges generalizing walk with
  | nil =>
      cases h
      exact ⟨.done, .nil, .done active visit _⟩
  | cons edge edges ih =>
      unfold visitEdges at h
      obtain ⟨record, hrecord, h⟩ := bind_eq_ok.mp h
      cases htarget : record.followable with
      | none =>
          rw [htarget] at h
          obtain ⟨forest, hown, hexplored⟩ := ih h
          exact ⟨.leaf (record.flagged .notFollowed) forest, .cons (recordOf_flagged _ hrecord) hown,
            hexplored.leaf (fun heq => by cases heq) fun hwalk => .skipped htarget rfl hwalk⟩
      | some resolved =>
          rw [htarget] at h
          dsimp only at h
          split at h
          · rename_i hactive
            obtain ⟨forest, hown, hexplored⟩ := ih h
            exact ⟨.leaf (record.flagged .cycle) forest, .cons (recordOf_flagged _ hrecord) hown,
              hexplored.leaf (fun heq => by cases heq) fun hwalk => .cycle htarget hactive rfl hwalk⟩
          rename_i hactive
          split at h
          · rename_i hseen
            obtain ⟨forest, hown, hexplored⟩ := ih h
            exact ⟨.leaf (record.flagged .alreadySeen) forest, .cons (recordOf_flagged _ hrecord) hown,
              hexplored.leaf (fun heq => by cases heq)
                fun hwalk => .seen htarget hactive hseen rfl hwalk⟩
          rename_i hseen
          split at h
          · cases h
          split at h
          · cases h
          split at h
          · rename_i hdigest
            obtain ⟨forest, hown, hexplored⟩ := ih h
            have hbarred : record.sha256 = none := Option.isNone_iff_eq_none.mp hdigest
            exact ⟨.leaf (record.flagged .unreadable) forest, .cons (recordOf_flagged _ hrecord) hown,
              hexplored.barred fun hwalk => .barred htarget hseen hbarred rfl hwalk⟩
          · rename_i hdigest
            obtain ⟨middle, hbelow, h⟩ := bind_eq_ok.mp h
            obtain ⟨below, hloads, hexploredBelow⟩ := hdescend _ _ _ _ hbelow
            obtain ⟨forest, hown, hexplored⟩ := ih h
            have hdigested : record.sha256 ≠ none := fun heq =>
              hdigest (Option.isNone_iff_eq_none.mpr heq)
            exact ⟨.followed (record.flagged .followed) (childVisit visit record resolved) below forest,
              .cons (recordOf_flagged _ hrecord) hown,
              hexploredBelow.followed htarget hactive hseen hdigested hloads hexplored⟩

/-- A call of `visit` opens its file. -/
theorem visitFile_opens (levels : ℕ) : capture.Opens (capture.visitFile levels) := by
  induction levels with
  | zero =>
      intro visit active walk walk' h
      cases h
  | succ levels ih =>
      intro visit active walk walk' h
      unfold visitFile at h
      split at h
      · rename_i hread
        cases h
        have hnone : capture.analysisOf visit = none := by
          unfold analysisOf
          rw [hread]
          rfl
        refine ⟨.done, ?_, ?_⟩
        · unfold Loads
          rw [hnone]
          rfl
        · refine ⟨.done, by simp [Walk.limit, Forest.preorder], ?_, ?_, ?_, ?_⟩
          · simp [Walk.limit, Searched.rows, Forest.opened, dynamicRows, hnone]
          · simp [Walk.limit, Searched.rows, Forest.opened, artifactRows, hnone]
          · simp [Walk.limit, Searched.rows, Forest.opened, dynamicArtifactRows, hnone]
          · intro hlimits
            simp [Walk.limit] at hlimits
      · rename_i data hread
        have hanalysis : capture.analysisOf visit = some (analyze capture.tables data) := by
          unfold analysisOf
          rw [hread]
          rfl
        obtain ⟨forest, hown, hexplored⟩ := visitEdges_explored ih h
        refine ⟨forest, ?_, hexplored.depthFirst, hexplored.records, ?_, ?_, ?_, ?_⟩
        · unfold Loads
          rw [hanalysis]
          exact hown
        · rw [hexplored.dynamic]
          simp [Walk.collect, Searched.rows, dynamicRows, hanalysis]
        · rw [hexplored.artifacts]
          simp [Walk.collect, Searched.rows, artifactRows, hanalysis]
        · rw [hexplored.dynamicArtifacts]
          simp [Walk.collect, Searched.rows, dynamicArtifactRows, hanalysis]
        · intro hlimits
          obtain ⟨hwalk, hrows, hrecords⟩ := hexplored.limits hlimits
          refine ⟨hwalk, ?_, hrecords⟩
          intro row hrow
          rcases List.mem_cons.mp hrow with rfl | hrow
          · rw [hanalysis]
            rfl
          · exact hrows row hrow

/-! ## What may be raised -/

/-- The two refusals of the source, and the three other exceptions with their causes. -/
def MayRaise (capture : Capture) : ClosureError → Prop
  | .inferenceLimit .. => True
  | .logicalSourceRoot _ => True
  | .homeUnknown => ∃ user, capture.fs.home user = none
  | .entrypointUnreadable => capture.fs.fileDigest capture.sha256 capture.entrypoint = none
  | .mapping _ => ¬ (capture.MapsDeclaredRoots ∧ capture.MapsProjectRoots)

theorem expanduser_eq_none {fs : FileSystem} {raw : RawPath} (h : fs.expanduser raw = none) :
    ∃ user, fs.home user = none := by
  unfold FileSystem.expanduser at h
  split at h
  · split at h
    · exact ⟨_, Option.map_eq_none_iff.mp h⟩
    · cases h
  · cases h

theorem validateManagedSourceFile_raises {logicalAlias : String} {root relative : Parts}
    {sha256 : String} {size : ℕ} {error : ClosureError}
    (h : capture.validateManagedSourceFile logicalAlias root relative sha256 size = .error error) :
    capture.MayRaise error := by
  unfold validateManagedSourceFile at h
  split at h
  · split at h
    · cases h
      trivial
    · split at h
      · cases h
      · cases h
        trivial
  · cases h

theorem edgeRecord_raises {visit : Visit} {edge : LoadEdge} {error : ClosureError}
    (h : capture.edgeRecord visit edge = .error error) : capture.MayRaise error := by
  unfold edgeRecord at h
  split at h
  · rename_i hresolve
    cases h
    exact expanduser_eq_none (Option.map_eq_none_iff.mp hresolve)
  · rcases bind_eq_error.mp h with h | ⟨-, -, h⟩
    · unfold validateMounted at h
      split at h
      · split at h
        · exact validateManagedSourceFile_raises h
        · cases h
      · cases h
    · cases h

theorem visitEdges_raises {descend : Visit → List Parts → Walk → Except ClosureError Walk}
    (hdescend : ∀ visit active walk error, descend visit active walk = .error error →
      capture.MayRaise error)
    {visit : Visit} {active : List Parts} {edges : List LoadEdge} {walk : Walk} {error : ClosureError}
    (h : capture.visitEdges descend visit active edges walk = .error error) :
    capture.MayRaise error := by
  induction edges generalizing walk with
  | nil => cases h
  | cons edge edges ih =>
      unfold visitEdges at h
      rcases bind_eq_error.mp h with h | ⟨record, -, h⟩
      · exact edgeRecord_raises h
      split at h
      · exact ih h
      split at h
      · exact ih h
      split at h
      · exact ih h
      split at h
      · cases h
        trivial
      split at h
      · cases h
        trivial
      split at h
      · exact ih h
      · rcases bind_eq_error.mp h with h | ⟨walk', -, h⟩
        · exact hdescend _ _ _ _ h
        · exact ih h

theorem visitFile_raises (levels : ℕ) {visit : Visit} {active : List Parts} {walk : Walk}
    {error : ClosureError} (h : capture.visitFile levels visit active walk = .error error) :
    capture.MayRaise error := by
  induction levels generalizing visit active walk error with
  | zero =>
      cases h
      trivial
  | succ levels ih =>
      unfold visitFile at h
      split at h
      · cases h
      · exact visitEdges_raises (fun _ _ _ _ => ih) h

theorem artifactRecord_raises {projectRoot : Parts} {reference : ArtifactRef × Parts}
    {error : ClosureError} (h : capture.artifactRecord projectRoot reference = .error error) :
    capture.MayRaise error := by
  unfold artifactRecord at h
  split at h
  · rename_i hexpand
    cases h
    exact expanduser_eq_none hexpand
  · cases h

theorem validateArtifact_raises {artifact : Artifact} {error : ClosureError}
    (h : capture.validateArtifact artifact = .error error) : capture.MayRaise error := by
  unfold validateArtifact at h
  split at h
  · exact validateManagedSourceFile_raises h
  · cases h

/-! ## The closure -/

/-- What a returned closure was built from. -/
structure BuiltFrom (capture : Capture) (closure : SourceClosure) (walk : Walk) : Prop where
  mapsDeclaredRoots : capture.MapsDeclaredRoots
  mapsProjectRoots : capture.MapsProjectRoots
  visited : capture.visitFile (capture.maxDepth + 1) capture.entryVisit [capture.entrypoint]
    capture.entryWalk = .ok walk
  digest : capture.fs.fileDigest capture.sha256 capture.entrypoint = some closure.entrypoint.sha256
  entrypoint : closure.entrypoint = ⟨capture.entrypoint, relativeTo capture.entrypoint capture.roots.root,
    closure.entrypoint.sha256, capture.fs.sizeOf capture.entrypoint⟩
  roots : closure.roots = capture.roots
  records : closure.records = walk.records
  dynamicLoaders : closure.dynamicLoaders = walk.dynamicLoaders
  artifacts : List.Forall₂ (fun reference artifact =>
    capture.artifactRecord closure.projectRoot reference = .ok artifact) walk.artifactReferences
    closure.artifacts
  dynamicArtifacts : closure.dynamicArtifacts = walk.dynamicArtifacts
  limitReasons : closure.limitReasons = walk.limitReasons

theorem buildSourceDependencyClosure_ok {closure : SourceClosure}
    (h : capture.buildSourceDependencyClosure = .ok closure) :
    ∃ walk, capture.BuiltFrom closure walk := by
  unfold buildSourceDependencyClosure at h
  simp only [guard_eq_ok, not_not] at h
  obtain ⟨hdeclared, hproject, h⟩ := h
  split at h
  · cases h
  rename_i digest hdigest
  simp only [bind_eq_ok, pure_eq_ok] at h
  obtain ⟨walk, hwalk, artifacts, hartifacts, -, -, rfl⟩ := h
  exact ⟨walk, hdeclared, hproject, hwalk, hdigest, rfl, rfl, rfl, rfl, mapM_eq_ok.mp hartifacts, rfl, rfl⟩

theorem buildSourceDependencyClosure_raises {error : ClosureError}
    (h : capture.buildSourceDependencyClosure = .error error) : capture.MayRaise error := by
  unfold buildSourceDependencyClosure at h
  simp only [guard_eq_error, not_not] at h
  rcases h with ⟨hdeclared, rfl⟩ | ⟨-, ⟨hproject, rfl⟩ | ⟨-, h⟩⟩
  · exact fun hboth => hdeclared hboth.1
  · exact fun hboth => hproject hboth.2
  split at h
  · rename_i hdigest
    cases h
    exact hdigest
  rcases bind_eq_error.mp h with h | ⟨walk, -, h⟩
  · exact visitFile_raises _ h
  rcases bind_eq_error.mp h with h | ⟨artifacts, -, h⟩
  · obtain ⟨reference, -, h⟩ := mapM_eq_error h
    exact artifactRecord_raises h
  rcases bind_eq_error.mp h with h | ⟨-, -, h⟩
  · obtain ⟨artifact, -, h⟩ := forM_eq_error h
    exact validateArtifact_raises h
  · cases h

/-- The files that a capture opens, each with its records. -/
def opened (capture : Capture) (forest : Forest Visit Record) : Rows :=
  Searched.rows capture.entryVisit forest

/-- A closure is the walk of the search from the entrypoint. -/
theorem BuiltFrom.explored {closure : SourceClosure} {walk : Walk} (h : capture.BuiltFrom closure walk) :
    ∃ forest, Searched capture.search capture.entryVisit forest ∧
      capture.Explored [capture.entrypoint] capture.entryVisit capture.entryWalk walk forest
        (capture.opened forest) := by
  obtain ⟨forest, hloads, hexplored⟩ := visitFile_opens _ _ _ _ _ h.visited
  exact ⟨forest, ⟨hloads, _, hexplored.depthFirst⟩, hexplored⟩

/-- A returned closure, with the variables of its capture and the search that made it. -/
structure CapturedAs (capture : Capture) (closure : SourceClosure) (walk : Walk)
    (forest : Forest Visit Record) : Prop where
  built : capture.BuiltFrom closure walk
  searched : Searched capture.search capture.entryVisit forest
  explored : capture.Explored [capture.entrypoint] capture.entryVisit capture.entryWalk walk forest
    (capture.opened forest)
  records : closure.records = forest.preorder

theorem capturedAs {closure : SourceClosure} (h : capture.buildSourceDependencyClosure = .ok closure) :
    ∃ walk forest, capture.CapturedAs closure walk forest := by
  obtain ⟨walk, hbuilt⟩ := buildSourceDependencyClosure_ok h
  obtain ⟨forest, hsearched, hexplored⟩ := hbuilt.explored
  refine ⟨walk, forest, hbuilt, hsearched, hexplored, ?_⟩
  rw [hbuilt.records, hexplored.records]
  rfl

/-- The bytes of the file were digested for the closure. -/
def Digested (closure : SourceClosure) (path : Parts) : Prop :=
  path = closure.entrypoint.path ∨
    ∃ record ∈ closure.records, record.resolvedPath = some path ∧ record.sha256.isSome

theorem followable_eq_some {record : Record} {resolved : Parts}
    (h : record.followable = some resolved) :
    record.resolution.admitted = true ∧ record.resolvedPath = some resolved := by
  unfold Record.followable at h
  split at h
  · rename_i hadmitted
    exact ⟨hadmitted, h⟩
  · cases h

/-- What is reached from the entrypoint was digested. -/
theorem digested_of_reached {closure : SourceClosure} {forest : Forest Visit Record} {path : Parts}
    (hentry : closure.entrypoint.path = capture.entrypoint) (hrecords : closure.records = forest.preorder)
    (h : DepthFirst.Reached capture.search (capture.opened forest) capture.entrypoint path) :
    Digested closure path := by
  cases h with
  | start => exact .inl hentry.symm
  | edge hrow _ hedge htarget hbarred =>
      have hmem : _ ∈ closure.records := hrecords ▸ Searched.mem_preorder.mpr ⟨_, hrow, hedge⟩
      exact .inr ⟨_, hmem, (followable_eq_some htarget).2, Option.isSome_iff_ne_none.mpr hbarred⟩

/-- An admitted record leads somewhere. -/
theorem admitted_followable {forest : Forest Visit Record}
    (h : Searched capture.search capture.entryVisit forest) {record : Record}
    (hmem : record ∈ forest.preorder) (hadmitted : record.resolution.admitted = true) :
    ∃ target, record.followable = some target := by
  obtain ⟨row, hrow, hrecord⟩ := Searched.mem_preorder.mp hmem
  have hloads : capture.Loads row.1 row.2 := h.loads_of_mem hrow
  unfold Loads at hloads
  split at hloads
  · rw [hloads] at hrecord
    cases hrecord
  · obtain ⟨edge, -, hof⟩ := exists_mem_of_forall₂' hloads hrecord
    obtain ⟨found, hfound, -, hmade⟩ := hof.found
    have hkind : found.resolution.admitted = true := by
      rw [← hmade.resolution]
      exact hadmitted
    obtain ⟨resolved, hresolved⟩ := (resolveEdge_placed hfound).resolved_isSome hkind
    have htarget : record.resolvedPath = some resolved := hmade.resolvedPath.trans hresolved
    exact ⟨resolved, by rw [Record.followable, if_pos hadmitted, htarget]⟩

/-- What a closure has for a loader token of a file: a literal row, with the record of a
resolved and digested file, or with the object that it names. -/
def CapturedUse (closure : SourceClosure) (row : Visit × List Record)
    (scan : Loader.LoaderScanResult) (use : LoaderUse) : Prop :=
  ∃ occurrence ∈ scan.occurrences, occurrence.loader = use.token.value ∧
    occurrence.loaderSpan = use.token.span ∧ occurrence.outcome = .literal ∧
    match use.family with
    | .source => ∃ record ∈ row.2, record.loader = use.token.value ∧
        record.declaredPath = (path occurrence).getD "" ∧
        ∃ target, record.followable = some target ∧ Digested closure target
    | .artifact => ∃ artifact ∈ closure.artifacts, artifact.loader = use.token.value ∧
        artifact.declaredPath = (path occurrence).getD "" ∧ artifact.declaringPath = row.1.current ∧
        artifact.resolution = .sourceLocal

/-- Every loader token of the file is captured, but for artifact loaders that are being
bound. -/
def CapturesTokens (capture : Capture) (closure : SourceClosure) (row : Visit × List Record) : Prop :=
  ∃ data text tokens, capture.fs.readBeneath row.1.trustedRoot row.1.current = .ok data ∧
    String.fromUTF8? ⟨data.toArray⟩ = some text ∧ tokenize capture.tables text.toList = .ok tokens ∧
    ∀ token ∈ tokens, token.kind = .loader → ∃ use ∈ loaderUses tokens, use.token = token ∧
      (use.family = .artifact ∧ use.isBinding = true ∨
        CapturedUse closure row (scanOcamlLoaders capture.tables data) use)

/-- What a returned closure says about the traversal that made it. -/
structure TraversedBy (capture : Capture) (closure : SourceClosure) (forest : Forest Visit Record) :
    Prop where
  /-- The flags of the records are those of a depth-first search. -/
  depthFirst : Searched capture.search capture.entryVisit forest
  records : closure.records = forest.preorder
  /-- One record for each literal load of a visited file, in lexical order. -/
  loads : ∀ row ∈ capture.opened forest, capture.Loads row.1 row.2
  visitedOnce : ((capture.opened forest).map fun row => row.1.current).Nodup
  reachable : ∀ path, DepthFirst.Reached capture.search (capture.opened forest) capture.entrypoint path ↔
    path ∈ (capture.opened forest).map fun row => row.1.current
  complete : closure.semanticIdentityComplete = true →
    closure.limitReasons = [] ∧ closure.dynamicLoaders = [] ∧
      (∀ record ∈ closure.records, record.resolution.admitted = true) ∧
      ∀ row ∈ capture.opened forest, capture.CapturesTokens closure row

/-- What completeness stands for in the closure's rows. -/
structure CompleteRows (closure : SourceClosure) : Prop where
  admitted : ∀ record ∈ closure.records, record.resolution.admitted = true
  artifacts : ∀ artifact ∈ closure.artifacts, artifact.resolution = .sourceLocal
  limitReasons : closure.limitReasons = []
  dynamicLoaders : closure.dynamicLoaders = []
  dynamicArtifacts : closure.dynamicArtifacts = []

theorem completeRows {closure : SourceClosure} (h : closure.semanticIdentityComplete = true) :
    CompleteRows closure := by
  unfold SourceClosure.semanticIdentityComplete SourceClosure.resolvedLiteralClosure at h
  simp only [Bool.and_eq_true, List.all_eq_true, List.isEmpty_iff, decide_eq_true_eq] at h
  obtain ⟨⟨⟨⟨⟨hrecords, hartifacts⟩, hlimits⟩, -⟩, hdynamic⟩, hdynamicArtifacts⟩ := h
  exact ⟨hrecords, hartifacts, hlimits, hdynamic, hdynamicArtifacts⟩

/-- The analysis of a visited file of a complete closure has no dynamic rows. -/
theorem complete_analysis {closure : SourceClosure} {walk : Walk} {forest : Forest Visit Record}
    (hbuilt : capture.BuiltFrom closure walk)
    (hexplored : capture.Explored [capture.entrypoint] capture.entryVisit capture.entryWalk walk forest
      (capture.opened forest))
    (hcomplete : CompleteRows closure) {row : Visit × List Record} (hrow : row ∈ capture.opened forest) :
    ∃ data, capture.fs.readBeneath row.1.trustedRoot row.1.current = .ok data ∧
      dynamicSourceLoads (scanOcamlLoaders capture.tables data) = [] ∧
      dynamicArtifactRefs (scanOcamlLoaders capture.tables data) = [] := by
  have hreadable := (hexplored.limits (hbuilt.limitReasons ▸ hcomplete.limitReasons)).2.1 row hrow
  obtain ⟨analysis, hanalysis⟩ := Option.isSome_iff_exists.mp hreadable
  have hdynamic : capture.dynamicRows row.1 = [] := by
    have hall := hbuilt.dynamicLoaders.symm.trans hcomplete.dynamicLoaders
    rw [hexplored.dynamic] at hall
    exact List.flatMap_eq_nil_iff.mp (List.append_eq_nil_iff.mp hall).2 row hrow
  have hdynamicArtifacts : capture.dynamicArtifactRows row.1 = [] := by
    have hall := hbuilt.dynamicArtifacts.symm.trans hcomplete.dynamicArtifacts
    rw [hexplored.dynamicArtifacts] at hall
    exact List.flatMap_eq_nil_iff.mp (List.append_eq_nil_iff.mp hall).2 row hrow
  unfold dynamicRows at hdynamic
  unfold dynamicArtifactRows at hdynamicArtifacts
  rw [hanalysis] at hdynamic hdynamicArtifacts
  obtain ⟨data, hdata, rfl⟩ := Option.map_eq_some_iff.mp hanalysis
  refine ⟨data, ?_, List.map_eq_nil_iff.mp hdynamic, List.map_eq_nil_iff.mp hdynamicArtifacts⟩
  cases hread : capture.fs.readBeneath row.1.trustedRoot row.1.current with
  | error error =>
      rw [hread] at hdata
      cases hdata
  | ok data' =>
      rw [hread] at hdata
      cases hdata
      rfl

/-- A scan without dynamic rows was accepted, and all its rows are literal. -/
theorem literal_of_no_dynamic {tables : Loader.UnicodeTables} {data : Bytes}
    (hsource : dynamicSourceLoads (scanOcamlLoaders tables data) = [])
    (hartifact : dynamicArtifactRefs (scanOcamlLoaders tables data) = []) :
    (scanOcamlLoaders tables data).status = .ok ∧
      ∀ occurrence ∈ (scanOcamlLoaders tables data).occurrences, occurrence.outcome = .literal := by
  rcases scanOcamlLoaders_cases tables data with ⟨refusal, h⟩ | ⟨text, tokens, -, -, h⟩
  · rw [h] at hsource
    cases hsource
  · rw [h] at hsource hartifact ⊢
    refine ⟨rfl, ?_⟩
    intro occurrence hoccurrence
    cases houtcome : occurrence.outcome with
    | literal => rfl
    | dynamic =>
        exfalso
        cases hfamily : occurrence.family with
        | source =>
            have hnone := List.filter_eq_nil_iff.mp (List.map_eq_nil_iff.mp hsource) occurrence hoccurrence
            simp [hfamily, houtcome] at hnone
        | artifact =>
            have hnone := List.filter_eq_nil_iff.mp (List.map_eq_nil_iff.mp hartifact) occurrence hoccurrence
            simp [hfamily, houtcome] at hnone

/-- The record of a literal source row. -/
theorem record_of_occurrence {row : Visit × List Record} {data : Bytes}
    (hloads : capture.Loads row.1 row.2)
    (hread : capture.fs.readBeneath row.1.trustedRoot row.1.current = .ok data)
    {occurrence : Loader.LoaderOccurrence}
    (hoccurrence : occurrence ∈ (scanOcamlLoaders capture.tables data).occurrences)
    (hfamily : occurrence.family = .source) (hliteral : occurrence.outcome = .literal) :
    ∃ record ∈ row.2, record.loader = occurrence.loader ∧
      record.declaredPath = (path occurrence).getD "" := by
  unfold Loads at hloads
  have hanalysis : capture.analysisOf row.1 = some (analyze capture.tables data) := by
    unfold analysisOf
    rw [hread]
    rfl
  rw [hanalysis] at hloads
  have hedge : (⟨occurrence.loader, (path occurrence).getD "", occurrence.sourceLine⟩ : LoadEdge) ∈
      (analyze capture.tables data).edges := by
    apply List.mem_map.mpr
    refine ⟨occurrence, List.mem_filter.mpr ⟨hoccurrence, ?_⟩, rfl⟩
    simp [hfamily, hliteral]
  obtain ⟨record, hrecord, hof⟩ := exists_mem_of_forall₂ hloads hedge
  obtain ⟨found, -, -, hmade⟩ := hof.found
  exact ⟨record, hrecord, hmade.loader, hmade.declaredPath⟩

/-- The artifact row of a literal artifact occurrence. -/
theorem artifact_of_occurrence {closure : SourceClosure} {walk : Walk} {forest : Forest Visit Record}
    (hbuilt : capture.BuiltFrom closure walk)
    (hexplored : capture.Explored [capture.entrypoint] capture.entryVisit capture.entryWalk walk forest
      (capture.opened forest))
    {row : Visit × List Record} (hrow : row ∈ capture.opened forest) {data : Bytes}
    (hread : capture.fs.readBeneath row.1.trustedRoot row.1.current = .ok data)
    {occurrence : Loader.LoaderOccurrence}
    (hoccurrence : occurrence ∈ (scanOcamlLoaders capture.tables data).occurrences)
    (hfamily : occurrence.family = .artifact) (hliteral : occurrence.outcome = .literal) :
    ∃ artifact ∈ closure.artifacts, artifact.loader = occurrence.loader ∧
      artifact.declaredPath = (path occurrence).getD "" ∧ artifact.declaringPath = row.1.current := by
  have hanalysis : capture.analysisOf row.1 = some (analyze capture.tables data) := by
    unfold analysisOf
    rw [hread]
    rfl
  have hreference : ((⟨occurrence.loader, name occurrence, (path occurrence).getD "",
      occurrence.sourceLine⟩ : ArtifactRef), row.1.current) ∈ walk.artifactReferences := by
    rw [hexplored.artifacts]
    apply List.mem_append_right
    apply List.mem_flatMap.mpr
    refine ⟨row, hrow, ?_⟩
    unfold artifactRows
    rw [hanalysis]
    apply List.mem_map.mpr
    refine ⟨_, List.mem_map.mpr ⟨occurrence, List.mem_filter.mpr ⟨hoccurrence, ?_⟩, rfl⟩, rfl⟩
    simp [hfamily, hliteral]
  obtain ⟨artifact, hartifact, hof⟩ := exists_mem_of_forall₂ hbuilt.artifacts hreference
  unfold artifactRecord at hof
  split at hof
  · cases hof
  · rename_i raw _
    cases hof
    obtain ⟨hloader, hdeclared, hdeclaring, -⟩ :=
      capture.artifactOf_declared closure.projectRoot _ row.1.current raw
    exact ⟨_, hartifact, hloader, hdeclared, hdeclaring⟩

/-- Every loader token of a visited file of a complete closure is captured. -/
theorem complete_capturesTokens {closure : SourceClosure} {walk : Walk} {forest : Forest Visit Record}
    (hbuilt : capture.BuiltFrom closure walk)
    (hsearched : Searched capture.search capture.entryVisit forest)
    (hexplored : capture.Explored [capture.entrypoint] capture.entryVisit capture.entryWalk walk forest
      (capture.opened forest))
    (hrecords : closure.records = forest.preorder) (hcomplete : CompleteRows closure)
    {row : Visit × List Record} (hrow : row ∈ capture.opened forest) :
    capture.CapturesTokens closure row := by
  obtain ⟨data, hread, hsource, hartifact⟩ := complete_analysis hbuilt hexplored hcomplete hrow
  obtain ⟨hstatus, hliteral⟩ := literal_of_no_dynamic hsource hartifact
  have hscan := scanOcamlLoaders_complete capture.tables data
  rw [hstatus] at hscan
  obtain ⟨text, tokens, htext, htokens, haccounted⟩ := hscan
  refine ⟨data, text, tokens, hread, htext, htokens, ?_⟩
  intro token htoken hkind
  -- the token is one of the uses, and the scan has a row for it or lets it bind
  have hused : token ∈ (loaderUses tokens).map LoaderUse.token := by
    rw [haccounted.uses]
    exact List.mem_filter.mpr ⟨htoken, by simpa using hkind⟩
  obtain ⟨use, huse, rfl⟩ := List.mem_map.mp hused
  refine ⟨use, huse, rfl, ?_⟩
  obtain ⟨rows, hlength, hperm, hrows⟩ := haccounted.rows
  obtain ⟨index, hindex⟩ := List.mem_iff_getElem?.mp huse
  have hbound : index < rows.length := by
    obtain ⟨hlt, -⟩ := List.getElem?_eq_some_iff.mp hindex
    omega
  obtain ⟨hrowFor, -⟩ := hrows index use rows[index] hindex (List.getElem?_eq_getElem hbound)
  cases hentry : rows[index] with
  | none =>
      rw [hentry] at hrowFor
      exact .inl (hrowFor.none_iff.mp rfl)
  | some occurrence =>
      rw [hentry] at hrowFor
      obtain ⟨hloader, hspan, hfamily⟩ := hrowFor.token occurrence rfl
      have hoccurrence : occurrence ∈ (scanOcamlLoaders capture.tables data).occurrences := by
        apply hperm.mem_iff.mpr
        apply List.mem_append_right
        rw [List.mem_filterMap]
        exact ⟨_, List.getElem_mem hbound, hentry⟩
      have hout := hliteral occurrence hoccurrence
      refine .inr ⟨occurrence, hoccurrence, hloader, hspan, hout, ?_⟩
      cases huseFamily : use.family with
      | source =>
          obtain ⟨record, hrecord, hrecordLoader, hdeclared⟩ :=
            record_of_occurrence (hsearched.loads_of_mem hrow) hread hoccurrence
              (hfamily.trans huseFamily) hout
          refine ⟨record, hrecord, hrecordLoader.trans hloader, hdeclared, ?_⟩
          have hmem : record ∈ forest.preorder := Searched.mem_preorder.mpr ⟨row, hrow, hrecord⟩
          have hadmitted := hcomplete.admitted record (hrecords ▸ hmem)
          obtain ⟨target, htarget⟩ := admitted_followable hsearched hmem hadmitted
          refine ⟨target, htarget, ?_⟩
          apply digested_of_reached (by rw [hbuilt.entrypoint]) hrecords
          apply hsearched.reached_iff.mpr
          rcases hsearched.closed hmem htarget with hreached | ⟨-, hbarred⟩
          · exact hreached
          · -- a barred record would have left a limit reason
            exfalso
            have hlimits := hexplored.limits (hbuilt.limitReasons ▸ hcomplete.limitReasons)
            apply hlimits.2.2 record hmem
            exact Traversal.mark_eq_barred hbarred
      | artifact =>
          obtain ⟨artifact, hartifactMem, hartifactLoader, hdeclared, hdeclaring⟩ :=
            artifact_of_occurrence hbuilt hexplored hrow hread hoccurrence (hfamily.trans huseFamily) hout
          exact ⟨artifact, hartifactMem, hartifactLoader.trans hloader, hdeclared, hdeclaring,
            hcomplete.artifacts artifact hartifactMem⟩

end Capture

/-! ## What the traversal passes by -/

/-- A decoder that binds an artifact loader. -/
def decoderSource : Bytes :=
  utf8 "let define_from_elf name path = path;;"

def lockedSource : Bytes :=
  utf8 "needs \"locked.ml\";;"

def strangerSource : Bytes :=
  utf8 "needs \"~nobody/words.ml\";;"

/-- The digests of the three sources. -/
def passedSha256 (data : Bytes) : String :=
  if data = decoderSource then "c01cd1b6f44ad7d90817f824b769d5bec39de898b520de4059364258dd3a5977"
  else if data = lockedSource then "19583a0897b1f727970db2467f840cc13ab76652bf8f9aabccfac7f257fa722c"
  else "534d49d0fddc98d959a0df720bdb4d7fe5b0af8fbffb256c170092623e4c23fe"

/-- A repository with this one file. -/
def singleFile (source : Bytes) : Capture :=
  .ofFiles passedSha256 [(["repo", "main.ml"], source)] ["repo"] ["repo", "main.ml"]

/-- The repository also has a file `locked.ml`, which cannot be read. -/
def lockedFile : Capture :=
  let capture := singleFile lockedSource
  { capture with
    fs := { capture.fs with
      isFile := fun path =>
        abspath path = ["repo", "main.ml"] ∨ abspath path = ["repo", "locked.ml"]
      readNoFollow := fun path =>
        if path = ["repo", "locked.ml"] then .error .refused else capture.fs.readNoFollow path } }

end Hearth.Closure
