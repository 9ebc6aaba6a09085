import Hearth.Replay.ExportReading

/-!
# Where HOL finds the recorded files

HOL looks up a relative path in the pieces of its load path, which colons separate, and takes the first file that is
there.  The load path holds the directory of the source and the base of every record in order, each once; a later
occurrence decides nothing.  A record is found again when some piece leads to its file and no piece in front of all
such pieces leads to another one.
-/

namespace Hearth.Replay.Export

open Hearth.Library

/-- The files as HOL and the shell see them. -/
structure HolFiles where
  /-- the real path of the file to which a text leads from the working directory of the profile -/
  file : List Char → Option String
  /-- whether `cd` succeeds -/
  enters : List Char → Bool
  file_nul : ∀ path, '\x00' ∈ path → file path = none
  enters_nul : ∀ path, '\x00' ∈ path → enters path = false

/-- `Filename.concat`. -/
def concat (directory name : List Char) : List Char :=
  if directory = [] ∨ directory.getLast? = some '/' then directory ++ name else directory ++ '/' :: name

/-- The first file of this name below the entries of a load path. -/
def HolFiles.find (files : HolFiles) (loadPath declared : List Char) : Option String :=
  (loadPath.splitOn ':').findSome? fun entry => files.file (concat entry declared)

/-- The bases of the records that have one. -/
def basesOf (rows : List Row) : List String :=
  rows.filterMap fun row =>
    match row with
    | .relative declared resolved => some (baseOf declared resolved)
    | _ => none

/-- The directory of the source and the bases of the records, in order. -/
def directoriesOf (source : String) (rows : List Row) : List String :=
  sourceDirectory source :: basesOf rows

/-- What is left of the directories when colons separate them. -/
def piecesOf (directories : List String) : List (List Char) :=
  (directories.filter (· ≠ "")).flatMap (·.toList.splitOn ':')

/-- The files are as they were when the receipt was written. -/
structure Unchanged (files : HolFiles) (rows : List Row) (script : Script) : Prop where
  source : files.file script.source.toList ≠ none
  cwd : files.enters script.profileCwd.toList = true
  recorded : ∀ declared resolved, Row.relative declared resolved ∈ rows →
    files.file (asPosix resolved).toList = some resolved

/-- The script starts HOL on its phrases, and every recorded file is found again. -/
def Reproduces (files : HolFiles) (inherited : Shell.State) (rows : List Row) (script : Script) : Prop :=
  ∃ launch, Shell.start files.enters inherited script.text.toList = some launch ∧
    launch.input = Shell.joined script.phraseLines ∧
    ∃ loadPath, launch.state.environment Script.loadPathName = some loadPath ∧
      ∀ declared resolved, Row.relative declared resolved ∈ rows →
        files.find loadPath declared.toList = some resolved

/-- Some piece leads to the recorded file, and none in front of all such pieces leads to another file. -/
structure Placed (files : HolFiles) (pieces : List (List Char)) (declared : List Char) (resolved : String) : Prop where
  reached : ∃ piece ∈ pieces, files.file (concat piece declared) = some resolved
  unshadowed : ∀ before piece after other, pieces = before ++ piece :: after →
    files.file (concat piece declared) = some other → other ≠ resolved →
      ∃ earlier ∈ before, files.file (concat earlier declared) = some resolved

/-! ## The load path -/

theorem notes_add (path : LoadPath) (directory : String) : (path.add directory).notes = path.notes := by
  unfold LoadPath.add
  split <;> rfl

section

variable {world : World}

/-- A note stays. -/
theorem notes_ne_nil {path : LoadPath} (h : path.notes ≠ []) (rows : List Row) :
    (rows.foldl (LoadPath.step world) path).notes ≠ [] := by
  induction rows generalizing path with
  | nil => exact h
  | cons row rows ih =>
      apply ih
      fun_cases LoadPath.step world path row with
      | case1 => exact h
      | case2 => exact h
      | case3 declared resolved hends => rwa [notes_add]
      | case4 declared resolved hends => exact List.append_ne_nil_of_left_ne_nil h _
      | case5 declared resolution => exact List.append_ne_nil_of_left_ne_nil h _

/-- Without notes the loop adds the bases, and every relative row has the form that gives one. -/
theorem foldl_step_of_notes {path : LoadPath} {rows : List Row}
    (h : (rows.foldl (LoadPath.step world) path).notes = []) :
    rows.foldl (LoadPath.step world) path = (basesOf rows).foldl LoadPath.add path ∧
      ∀ declared resolved, Row.relative declared resolved ∈ rows → endsWith declared resolved = true := by
  induction rows generalizing path with
  | nil => exact ⟨rfl, nofun⟩
  | cons row rows ih =>
      obtain ⟨hfold, hends⟩ := ih h
      cases row with
      | satisfied => exact ⟨hfold, by simpa using hends⟩
      | silent => exact ⟨hfold, by simpa using hends⟩
      | foreign declared resolution =>
          exact absurd h (notes_ne_nil (List.append_ne_nil_of_right_ne_nil _ (List.cons_ne_nil _ _)) rows)
      | relative declared resolved =>
          by_cases hone : endsWith declared resolved = true
          · have hstep : LoadPath.step world path (.relative declared resolved) =
                path.add (baseOf declared resolved) := if_pos hone
            rw [hstep] at hfold
            refine ⟨by rw [List.foldl_cons, hstep]; exact hfold, ?_⟩
            intro other place hmem
            rcases List.mem_cons.mp hmem with heq | hmem
            · cases heq
              exact hone
            · exact hends other place hmem
          · refine absurd h (notes_ne_nil ?_ rows)
            show (LoadPath.step world path (.relative declared resolved)).notes ≠ []
            rw [LoadPath.step, if_neg hone]
            exact List.append_ne_nil_of_right_ne_nil _ (List.cons_ne_nil _ _)

end

theorem mem_foldl_add {path : LoadPath} {directories : List String} {directory : String} :
    directory ∈ (directories.foldl LoadPath.add path).entries ↔
      directory ∈ path.entries ∨ directory ∈ directories ∧ directory ≠ "" := by
  induction directories generalizing path with
  | nil => simp
  | cons first directories ih =>
      have hadd : directory ∈ (path.add first).entries ↔
          directory ∈ path.entries ∨ directory = first ∧ directory ≠ "" := by
        unfold LoadPath.add
        split
        · next hnew =>
            rw [List.mem_append, List.mem_singleton]
            exact or_congr_right ⟨fun heq => ⟨heq, heq ▸ hnew.1⟩, And.left⟩
        · next hold =>
            refine ⟨.inl, ?_⟩
            rintro (h | ⟨rfl, hne⟩)
            · exact h
            · by_contra hmem
              exact hold ⟨hne, hmem⟩
      rw [List.foldl_cons, ih, hadd, List.mem_cons, or_assoc, or_and_right]

/-- A directory that is there already decides nothing. -/
theorem findSome_foldl_add {β : Type} (look : List Char → Option β) (path : LoadPath) (directories : List String) :
    ((directories.foldl LoadPath.add path).entries.flatMap (·.toList.splitOn ':')).findSome? look =
      ((path.entries ++ directories.filter (· ≠ "")).flatMap (·.toList.splitOn ':')).findSome? look := by
  induction directories generalizing path with
  | nil => rw [List.filter_nil, List.append_nil]; rfl
  | cons directory directories ih =>
      rw [List.foldl_cons, ih]
      by_cases hempty : directory = ""
      · subst hempty
        rfl
      · have hkeep : (directory :: directories).filter (· ≠ "") = directory :: directories.filter (· ≠ "") :=
          List.filter_cons_of_pos (decide_eq_true hempty)
        rw [hkeep]
        by_cases hmem : directory ∈ path.entries
        · have hadd : path.add directory = path := if_neg fun h => h.2 hmem
          rw [hadd, List.flatMap_append, List.flatMap_append, List.flatMap_cons, List.findSome?_append,
            List.findSome?_append, List.findSome?_append]
          cases hfound : (path.entries.flatMap (·.toList.splitOn ':')).findSome? look with
          | some found => rfl
          | none =>
              have hnone : (directory.toList.splitOn ':').findSome? look = none := by
                rw [List.findSome?_eq_none_iff] at hfound ⊢
                exact fun piece hpiece => hfound piece (List.mem_flatMap.mpr ⟨directory, hmem, hpiece⟩)
              rw [hnone]
              rfl
        · have hadd : (path.add directory).entries = path.entries ++ [directory] := by
            rw [LoadPath.add, if_pos ⟨hempty, hmem⟩]
          rw [hadd, List.append_assoc]
          rfl

/-- A text joined by separators is split into the pieces of its parts. -/
theorem splitOn_intercalate_flatMap (separator : Char) {parts : List (List Char)} (h : parts ≠ []) :
    ([separator].intercalate parts).splitOn separator = parts.flatMap (·.splitOn separator) := by
  induction parts with
  | nil => exact absurd rfl h
  | cons part parts ih =>
      cases parts with
      | nil => rw [List.intercalate_singleton, List.flatMap_singleton]
      | cons next parts =>
          rw [List.intercalate_cons_cons, List.append_assoc, List.singleton_append, List.splitOn_append_cons_self,
            ih (List.cons_ne_nil _ _)]
          rfl

/-- Looking from the first to the last finds the file exactly when it is placed so. -/
theorem findSome_eq_some_iff_placed (files : HolFiles) (pieces : List (List Char)) (declared : List Char)
    (resolved : String) :
    pieces.findSome? (fun piece => files.file (concat piece declared)) = some resolved ↔
      Placed files pieces declared resolved := by
  constructor
  · intro h
    obtain ⟨first, piece, later, rfl, hpiece, hnone⟩ := List.findSome?_eq_some_iff.mp h
    refine ⟨⟨piece, by simp, hpiece⟩, ?_⟩
    intro before other after found hsplit hother hne
    refine ⟨piece, ?_, hpiece⟩
    -- the other piece is behind the first one that leads anywhere
    rcases List.append_eq_append_iff.mp hsplit with ⟨more, rfl, hrest⟩ | ⟨more, rfl, hrest⟩
    · cases more with
      | nil =>
          cases hrest
          rw [hpiece] at hother
          exact absurd (Option.some_inj.mp hother).symm hne
      | cons head more =>
          cases hrest
          simp
    · cases more with
      | nil =>
          cases hrest
          rw [hpiece] at hother
          exact absurd (Option.some_inj.mp hother).symm hne
      | cons head more =>
          cases hrest
          have hnil := hnone other (by simp)
          rw [hother] at hnil
          cases hnil
  · rintro ⟨⟨piece, hmem, hpiece⟩, hunshadowed⟩
    cases hfound : pieces.findSome? (fun piece => files.file (concat piece declared)) with
    | none => rw [List.findSome?_eq_none_iff.mp hfound piece hmem] at hpiece; cases hpiece
    | some found =>
        by_contra hne
        obtain ⟨before, other, after, hsplit, hother, hnone⟩ := List.findSome?_eq_some_iff.mp hfound
        obtain ⟨earlier, hearlier, hlead⟩ :=
          hunshadowed before other after found hsplit hother fun heq => hne (heq ▸ rfl)
        rw [hnone earlier hearlier] at hlead
        cases hlead

/-! ## The entries of a script -/

theorem sourceDirectory_ne_empty {source : String} (h : (RawPath.ofString source).isAbsolute = true) :
    sourceDirectory source ≠ "" := by
  unfold sourceDirectory RawPath.text
  split
  · next hanchor =>
      have hrelative : (RawPath.ofString source).anchor = .relative := hanchor
      simp [RawPath.isAbsolute, hrelative] at h
  · exact RawPath.absoluteText_ne_empty _
  · intro heq
    have htext := congrArg String.toList heq
    rw [String.toList_append] at htext
    exact absurd htext (by simp)

theorem mem_sourceDirectory {source : String} (h : (RawPath.ofString source).isAbsolute = true) {char : Char}
    (hchar : char ∈ (sourceDirectory source).toList) : char = '/' ∨ char ∈ source.toList := by
  have hparts : (RawPath.ofString source).parent.parts ⊆ RawPath.partsOf source.toList :=
    (List.dropLast_sublist _).subset
  unfold sourceDirectory RawPath.text at hchar
  split at hchar
  · next hanchor =>
      have hrelative : (RawPath.ofString source).anchor = .relative := hanchor
      simp [RawPath.isAbsolute, hrelative] at h
  · exact RawPath.mem_absoluteText hparts hchar
  · rw [String.toList_append, List.mem_append] at hchar
    rcases hchar with hchar | hchar
    · exact .inl (List.mem_singleton.mp hchar)
    · exact RawPath.mem_absoluteText hparts hchar

section

variable {world : World} {receiptPath : String} {receipt : Json} {holdirOverride : Option String} {script : Script}
  {rows : List Row}

/-- The source of a script is absolute, and the loop over the rows has given its entries and its notes. -/
theorem scriptOf_eq_ok (h : scriptOf world receiptPath receipt holdirOverride = .ok script)
    (hrows : rowsOf world receipt = .ok rows) :
    (RawPath.ofString script.source).isAbsolute = true ∧
      (⟨script.entries, script.notes⟩ : LoadPath) =
        rows.foldl (LoadPath.step world) (LoadPath.add ⟨[], []⟩ (sourceDirectory script.source)) := by
  unfold scriptOf at h
  rw [guard_eq_ok] at h
  obtain ⟨-, h⟩ := h
  split at h
  · next source hsource =>
      simp only [guard_eq_ok, bind_eq_ok, pure_eq_ok] at h
      obtain ⟨habsolute, holdir, -, path, hpath, proved, -, rfl⟩ := h
      have habsolute : (RawPath.ofString source).isAbsolute = true := by simpa using habsolute
      have htruthy : (Json.str source).truthy = true := by
        refine decide_eq_true ?_
        rintro rfl
        cases habsolute
      have htext : world.text ((receipt.get "source").orElse (.str "")) = source := by
        rw [hsource, Json.orElse, if_pos htruthy, world.text_str]
      unfold loadPathEntries at hpath
      simp only [bind_eq_ok, pure_eq_ok, hrows, htext] at hpath
      obtain ⟨found, hfound, rfl⟩ := hpath
      cases hfound
      exact ⟨habsolute, rfl⟩
  · cases h

variable {files : HolFiles}

/-- A path that leads to a file has no NUL character. -/
theorem HolFiles.not_mem_nul {path : List Char} (h : files.file path ≠ none) : '\x00' ∉ path :=
  fun hmem => h (files.file_nul path hmem)

theorem Unchanged.not_mem_nul (hunchanged : Unchanged files rows script)
    (habsolute : (RawPath.ofString script.source).isAbsolute = true) {directory : String}
    (hmem : directory ∈ directoriesOf script.source rows) : '\x00' ∉ directory.toList := by
  rcases List.mem_cons.mp hmem with rfl | hmem
  · intro hchar
    rcases mem_sourceDirectory habsolute hchar with heq | hchar
    · cases heq
    · exact files.not_mem_nul hunchanged.source hchar
  · obtain ⟨row, hrow, hbase⟩ := List.mem_filterMap.mp hmem
    cases row with
    | satisfied => cases hbase
    | silent => cases hbase
    | foreign declared resolution => cases hbase
    | relative declared resolved =>
        cases hbase
        have hfile := hunchanged.recorded declared resolved hrow
        intro hchar
        rw [baseOf, String.toList_ofList] at hchar
        exact files.not_mem_nul (by rw [hfile]; nofun) (List.mem_of_mem_take hchar)

/-- HOL looks through the pieces of the directories. -/
theorem find_entries (hscript : scriptOf world receiptPath receipt holdirOverride = .ok script)
    (hrows : rowsOf world receipt = .ok rows) (hnotes : script.notes = []) (hunchanged : Unchanged files rows script)
    (declared : List Char) :
    files.find (Shell.clean (":".intercalate script.entries).toList) declared =
      (piecesOf (directoriesOf script.source rows)).findSome? fun piece => files.file (concat piece declared) := by
  obtain ⟨habsolute, hpath⟩ := scriptOf_eq_ok hscript hrows
  have hentries : script.entries = ((directoriesOf script.source rows).foldl LoadPath.add ⟨[], []⟩).entries := by
    have hfold := (foldl_step_of_notes ((congrArg LoadPath.notes hpath).symm.trans hnotes)).1
    exact congrArg LoadPath.entries (hpath.trans hfold)
  have hne : script.entries ≠ [] := by
    apply List.ne_nil_of_mem (a := sourceDirectory script.source)
    rw [hentries, mem_foldl_add]
    exact .inr ⟨List.mem_cons_self, sourceDirectory_ne_empty habsolute⟩
  have hnul : '\x00' ∉ (":".intercalate script.entries).toList := by
    intro hmem
    rw [String.toList_intercalate] at hmem
    rcases RawPath.mem_intercalate hmem with heq | ⟨piece, hpiece, hchar⟩
    · cases heq
    · obtain ⟨directory, hdirectory, rfl⟩ := List.mem_map.mp hpiece
      rw [hentries, mem_foldl_add] at hdirectory
      rcases hdirectory with hdirectory | ⟨hdirectory, -⟩
      · cases hdirectory
      · exact hunchanged.not_mem_nul habsolute hdirectory hchar
  calc files.find (Shell.clean (":".intercalate script.entries).toList) declared
      = (([':'].intercalate (script.entries.map String.toList)).splitOn ':').findSome? fun piece =>
          files.file (concat piece declared) := by
        rw [Shell.clean_eq_self hnul, String.toList_intercalate]
        rfl
    _ = (script.entries.flatMap (·.toList.splitOn ':')).findSome? fun piece =>
          files.file (concat piece declared) := by
        rw [splitOn_intercalate_flatMap ':' (mt List.map_eq_nil_iff.mp hne), List.flatMap_map]
    _ = (piecesOf (directoriesOf script.source rows)).findSome? fun piece =>
          files.file (concat piece declared) := by
        rw [hentries, findSome_foldl_add]
        rfl

/-- A base without a colon leads to the recorded file, wherever it stands in the load path. -/
theorem Unchanged.reached (hunchanged : Unchanged files rows script) {declared resolved : String}
    (hrow : Row.relative declared resolved ∈ rows) (hends : endsWith declared resolved = true)
    (hne : baseOf declared resolved ≠ "") (hcolon : ':' ∉ (baseOf declared resolved).toList)
    (hslash : (baseOf declared resolved).toList.getLast? ≠ some '/') :
    ∃ piece ∈ piecesOf (directoriesOf script.source rows),
      files.file (concat piece declared.toList) = some resolved := by
  refine ⟨(baseOf declared resolved).toList, ?_, ?_⟩
  · refine List.mem_flatMap.mpr ⟨baseOf declared resolved, List.mem_filter.mpr ⟨?_, decide_eq_true hne⟩, ?_⟩
    · exact List.mem_cons_of_mem _ (List.mem_filterMap.mpr ⟨_, hrow, rfl⟩)
    · rw [List.splitOn_eq_singleton hcolon]
      exact List.mem_singleton_self _
  · have hnil : (baseOf declared resolved).toList ≠ [] := by
      intro heq
      exact hne (String.toList_inj.mp heq)
    obtain ⟨front, hfront⟩ := List.isSuffixOf_iff_suffix.mp hends
    have hbase : (baseOf declared resolved).toList = front := by
      rw [baseOf, String.toList_ofList, ← hfront]
      simp
    have hconcat : concat (baseOf declared resolved).toList declared.toList = (asPosix resolved).toList := by
      rw [concat, if_neg (not_or.mpr ⟨hnil, hslash⟩), hbase, hfront]
    rw [hconcat]
    exact hunchanged.recorded declared resolved hrow

theorem hex_shortSha256 (digest : String) : '\n' ∉ (shortSha256 digest).toList := by
  unfold shortSha256
  split
  · decide
  · next value hvalue =>
      simp only [normalizedSha256] at hvalue
      split at hvalue
      · next hhex =>
          cases hvalue
          rw [String.toList_ofList]
          intro hmem
          cases List.all_eq_true.mp hhex.2 _ (List.mem_of_mem_take hmem)
      · cases hvalue

/-- The texts of a receipt that stand in comments have no line feed. -/
def OneLineTexts (script : Script) : Prop :=
  ∀ text ∈ [script.receiptPath, script.source, script.logicalProfile, script.basisId, script.recipe],
    '\n' ∉ text.toList

theorem oneLine_of_texts (hscript : scriptOf world receiptPath receipt holdirOverride = .ok script)
    (hnotes : script.notes = []) (h : OneLineTexts script) : script.OneLine := by
  have hdigests : '\n' ∉ script.receiptDigest.toList ∧ '\n' ∉ script.sourceDigest.toList ∧
      '\n' ∉ script.closureDigest.toList := by
    unfold scriptOf at hscript
    rw [guard_eq_ok] at hscript
    obtain ⟨-, hscript⟩ := hscript
    split at hscript
    · simp only [guard_eq_ok, bind_eq_ok, pure_eq_ok] at hscript
      obtain ⟨-, holdir, -, path, -, proved, -, rfl⟩ := hscript
      refine ⟨?_, hex_shortSha256 _, hex_shortSha256 _⟩
      intro hmem
      cases List.all_eq_true.mp (world.receiptDigest_hex receipt) _ hmem
    · cases hscript
  obtain ⟨hreceipt, hsource, hclosure⟩ := hdigests
  simp only [OneLineTexts, List.forall_mem_cons] at h
  obtain ⟨hreceiptPath, hsourcePath, hprofile, hbasis, hrecipe, -⟩ := h
  intro text hmem
  rw [Script.comments, hnotes, List.map_nil, List.append_nil] at hmem
  simp only [List.mem_cons, List.not_mem_nil, or_false] at hmem
  rcases hmem with rfl | rfl | rfl | rfl | rfl | rfl | rfl | rfl | rfl | rfl
  · exact Shell.not_feed_of_all rfl
  · rw [String.toList_append, List.mem_append, not_or]
    exact ⟨Shell.not_feed_of_all rfl, hsourcePath⟩
  · rw [String.toList_append, List.mem_append, not_or]
    exact ⟨Shell.not_feed_of_all rfl, hreceiptPath⟩
  · simp only [String.toList_append, List.mem_append, not_or]
    exact ⟨⟨⟨⟨⟨Shell.not_feed_of_all rfl, hreceipt⟩, Shell.not_feed_of_all rfl⟩, hsource⟩,
      Shell.not_feed_of_all rfl⟩, hclosure⟩
  · simp only [String.toList_append, List.mem_append, not_or]
    exact ⟨⟨⟨⟨⟨Shell.not_feed_of_all rfl, hprofile⟩, Shell.not_feed_of_all rfl⟩, hbasis⟩,
      Shell.not_feed_of_all rfl⟩, hrecipe⟩
  · exact List.not_mem_nil
  all_goals exact Shell.not_feed_of_all rfl

end

/-! ## A receipt whose loads go astray -/

/-- `str(value)` of the scalar values. -/
def scalarText : Json → String
  | .null => "None"
  | .bool true => "True"
  | .bool false => "False"
  | .int value => toString value
  | .str text => text
  | _ => ""

/-- A receipt of `/p/leaf.ml`, which loads `sub/b.ml`. -/
def leafReceipt (records : List Json) : Json :=
  .obj
    [("evidence", .str "recorded_warm_replay"),
      ("source", .str "/p/leaf.ml"),
      ("profile_cwd", .str "/shelf/hol-light"),
      ("profile_satisfaction", .obj [("host_holdir", .str "/shelf/hol-light")]),
      ("source_dependency_closure", .obj [("records", .arr records)]),
      ("bindings", .arr [.obj [("name", .str "LEAF"), ("status", .str "proved")]])]

/-- A record of a file beside the file that declares it. -/
def localRecord (declared declaring resolved : String) : Json :=
  .obj
    [("declared_path", .str declared), ("declaring_file", .str declaring), ("resolution", .str "source_local"),
      ("resolved_path", .str resolved)]

/-- The digest of the receipt is this one. -/
def leafWorld (digest : String) (h : digest.toList.all isLowerHex = true) : World where
  text := scalarText
  text_str _ := rfl
  receiptDigest _ := digest
  receiptDigest_hex _ := h
  holLightDir := .error "no configuration"

/-- The regular files among these paths, without symbolic links. -/
def plainFiles (paths : List String) (hpaths : ∀ path ∈ paths, '\x00' ∉ path.toList) : HolFiles where
  file path := paths.find? fun other => other.toList = path
  enters path := path = "/shelf/hol-light".toList
  file_nul path hmem := by
    rw [List.find?_eq_none]
    intro other hother heq
    exact hpaths other hother (of_decide_eq_true heq ▸ hmem)
  enters_nul path hmem := by
    refine decide_eq_false ?_
    rintro rfl
    exact absurd hmem (by decide)

/-- The script of a receipt of `/p/leaf.ml` whose records have their bases there. -/
def leafScript (digest : String) (entries : List String) : Script where
  receiptPath := "/runs/transcript.log.json"
  source := "/p/leaf.ml"
  receiptDigest := digest
  sourceDigest := "?"
  closureDigest := "?"
  logicalProfile := "None"
  basisId := "None"
  recipe := "None"
  notes := []
  holdir := "/shelf/hol-light"
  profileCwd := "/shelf/hol-light"
  entries := entries
  profileBase := none
  proved := ["LEAF"]

end Hearth.Replay.Export
