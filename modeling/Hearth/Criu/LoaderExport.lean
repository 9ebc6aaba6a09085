import Hearth.Diagnostics.Text
import Hearth.Library.TextLines

/-!
# The export of the loaded files

`criu_loaded_provenance.py`: the OCaml program of `loader_export_source` prints the files that the HOL loader
holds, and `parse_loader_export` reads them from a transcript, in which other lines may stand between.
-/

namespace Hearth.Criu

open Hearth.Library.Text
open Hearth.Diagnostics (hex fromHex isFieldChar isFieldChar_hex fromHex_hex length_hex)

/-! ## What the loader holds -/

/-- `Path(name).name`.  A name is the bytes of the file system; `os.fsdecode` tells them apart. -/
def finalName (name : Bytes) : Bytes :=
  ((name.splitOn 47).filter fun part => part ≠ [] ∧ part ≠ [46]).getLast?.getD []

/-- The check of a basename in `LoaderRecord.__post_init__`. -/
def isBasename (name : Bytes) : Bool :=
  name ≠ [] && finalName name = name

/-- A file that the loader holds, with the digest of its bytes. -/
structure LoadedFile where
  name : Bytes
  digest : Bytes
  name_valid : isBasename name = true
  digest_length : digest.length = 16

/-- The check of a digest in `LoaderRecord.__post_init__`. -/
def isMd5 (digest : List Char) : Bool :=
  digest.length = 32 && digest.all isFieldChar

structure LoaderRecord where
  basename : Bytes
  loaderMd5 : List Char
  basename_valid : isBasename basename = true
  md5_valid : isMd5 loaderMd5 = true
  deriving DecidableEq

theorem isMd5_hex {digest : Bytes} (h : digest.length = 16) : isMd5 (hex digest) = true := by
  unfold isMd5
  rw [Bool.and_eq_true, decide_eq_true_eq, List.all_eq_true]
  exact ⟨by rw [length_hex, h], fun char hmem => isFieldChar_hex hmem⟩

/-- The record of a file that the loader holds. -/
def LoadedFile.record (file : LoadedFile) : LoaderRecord :=
  ⟨file.name, hex file.digest, file.name_valid, isMd5_hex file.digest_length⟩

/-! ## What the program prints -/

/-- `_EXPORT_PREFIX`. -/
def exportPrefix : List Char :=
  "__HOL_WORKBENCH_LOADED_FILE_V1__".toList

/-- `_EXPORT_BEGIN`. -/
def exportBegin : List Char :=
  exportPrefix ++ ":BEGIN".toList

/-- `_EXPORT_END_PREFIX`. -/
def exportEndPrefix : List Char :=
  exportPrefix ++ ":END:".toList

/-- The line of `Printf.printf` for one file. -/
def recordLine (file : LoadedFile) : List Char :=
  exportPrefix ++ ':' :: (hex file.name ++ ':' :: hex file.digest)

/-- The line of `Printf.printf` for the number of files. -/
def endLine (count : ℕ) : List Char :=
  exportEndPrefix ++ Nat.toDigits 10 count

/-- The lines that the program of `loader_export_source` prints; `loaded_files` has the newest file first. -/
def loaderExport (loadedFiles : List LoadedFile) : List (List Char) :=
  exportBegin :: (loadedFiles.reverse.map recordLine ++ [endLine loadedFiles.length])

/-! ## What is read -/

/-- What `str.isdigit` and `int` know of the characters. -/
structure UnicodeDigits where
  isDigit : Char → Bool
  decimal : Char → Option ℕ
  isDigit_ascii : ∀ char, char.isDigit = true → isDigit char = true
  decimal_ascii : ∀ char, char.isDigit = true → decimal char = some (char.toNat - '0'.toNat)

/-- `int(text)` of digits. -/
def UnicodeDigits.intOf (digits : UnicodeDigits) (text : List Char) : Option ℕ :=
  (text.mapM digits.decimal).map fun values => values.foldl (fun value digit => 10 * value + digit) 0

/-- Why `parse_loader_export` raises a `LoadedProvenanceError`. -/
inductive ProvenanceFailure
  /-- "loader export must contain exactly one begin marker and one end marker" -/
  | markers
  /-- "loader export end marker precedes its begin marker" -/
  | endFirst
  /-- "loader export has invalid record count: …" -/
  | count (raw : List Char)
  /-- "malformed loader export record: …" -/
  | malformed (line : List Char)
  /-- "loader export basename is not canonical filesystem-name hex" -/
  | notHex
  /-- "loader basename is not a basename: …" -/
  | basename (name : Bytes)
  /-- "loader digest is not canonical MD5 hex: …" -/
  | digest (text : List Char)
  /-- "loader export count mismatch: marker=… parsed=…" -/
  | mismatch (marker parsed : ℕ)
  deriving DecidableEq

/-- What `parse_loader_export` raises; a `ValueError` of `int` is not caught. -/
inductive ExportError
  | provenance (failure : ProvenanceFailure)
  | valueError
  deriving DecidableEq

/-- `_EXPORT_RECORD.fullmatch`: the two groups. -/
def matchRecord (line : List Char) : Option (List Char × List Char) :=
  match (line.drop exportPrefix.length) with
  | ':' :: rest =>
      match rest.dropWhile isFieldChar with
      | ':' :: digest =>
          if exportPrefix <+: line ∧ isMd5 digest = true then some (rest.takeWhile isFieldChar, digest) else none
      | _ => none
  | _ => none

/-- The record of a line that matches. -/
def recordOf (groups : List Char × List Char) : Except ExportError LoaderRecord :=
  match fromHex groups.1 with
  | none => .error (.provenance .notHex)
  | some basename =>
      if hbasename : isBasename basename = true then
        if hdigest : isMd5 groups.2 = true then .ok ⟨basename, groups.2, hbasename, hdigest⟩
        else .error (.provenance (.digest groups.2))
      else .error (.provenance (.basename basename))

/-- The loop over the lines between the markers. -/
def exportRecords : List (List Char) → Except ExportError (List LoaderRecord)
  | [] => .ok []
  | line :: lines =>
      if exportPrefix ++ [':'] <+: strip line then
        match matchRecord (strip line) with
        | none => .error (.provenance (.malformed (strip line)))
        | some groups => do
            let record ← recordOf groups
            let records ← exportRecords lines
            .ok (record :: records)
      else exportRecords lines

/-- What `parse_loader_export` makes of the lines between the markers and of the end marker. -/
def parseBody (digits : UnicodeDigits) (lines : List (List Char)) (endLine : List Char) :
    Except ExportError (List LoaderRecord) :=
  let rawCount := endLine.drop exportEndPrefix.length
  if rawCount = [] ∨ rawCount.all digits.isDigit = false then .error (.provenance (.count rawCount))
  else do
    let records ← exportRecords lines
    match digits.intOf rawCount with
    | none => .error .valueError
    | some expected =>
        if records.length ≠ expected then .error (.provenance (.mismatch expected records.length))
        else .ok records

def parseLines (digits : UnicodeDigits) (lines : List (List Char)) : Except ExportError (List LoaderRecord) :=
  let beginIndexes := (lines.zipIdx.filter fun line => strip line.1 = exportBegin).map Prod.snd
  let endRows := lines.zipIdx.filter fun line => exportEndPrefix <+: strip line.1
  match beginIndexes, endRows with
  | [start], [(line, stop)] =>
      if stop ≤ start then .error (.provenance .endFirst)
      else parseBody digits ((lines.take stop).drop (start + 1)) (strip line)
  | _, _ => .error (.provenance .markers)

/-- `parse_loader_export`. -/
def parseLoaderExport (digits : UnicodeDigits) (text : List Char) : Except ExportError (List LoaderRecord) :=
  parseLines digits (splitlines text)

/-! ## Lines of the export -/

/-- The characters of the export, of which none is a blank or ends a line. -/
def isExportChar (char : Char) : Bool :=
  48 ≤ char.toNat && char.toNat ≤ 122

theorem not_isSpace_of_isExportChar {char : Char} (h : isExportChar char = true) : isSpace char = false := by
  simp only [isExportChar, Bool.and_eq_true, decide_eq_true_eq] at h
  unfold isSpace
  simp only [Bool.or_eq_false_iff, Bool.and_eq_false_iff, decide_eq_false_iff_not, List.contains_eq_mem,
    List.mem_cons, List.not_mem_nil, or_false]
  omega

theorem not_isLineBreak_of_isExportChar {char : Char} (h : isExportChar char = true) :
    isLineBreak char = false := by
  simp only [isExportChar, Bool.and_eq_true, decide_eq_true_eq] at h
  unfold isLineBreak
  simp only [Bool.or_eq_false_iff, Bool.and_eq_false_iff, decide_eq_false_iff_not, List.contains_eq_mem,
    List.mem_cons, List.not_mem_nil, or_false]
  omega

theorem isExportChar_of_isFieldChar {char : Char} (h : isFieldChar char = true) : isExportChar char = true := by
  simp only [isFieldChar, Char.isDigit, Bool.or_eq_true, Bool.and_eq_true, decide_eq_true_eq,
    UInt32.le_iff_toNat_le, Char.le_def] at h
  simp only [isExportChar, Bool.and_eq_true, decide_eq_true_eq]
  have hcode : char.val.toNat = char.toNat := rfl
  have hfirst : 'a'.val.toNat = 97 := rfl
  have hlast : 'f'.val.toNat = 102 := rfl
  have hzero : '0'.val.toNat = 48 := rfl
  have hnine : '9'.val.toNat = 57 := rfl
  omega

/-- Nothing but characters of the export. -/
def ExportText (text : List Char) : Prop :=
  ∀ char ∈ text, isExportChar char = true

theorem ExportText.strip_eq {text : List Char} (h : ExportText text) : strip text = text :=
  strip_eq_self (fun char hmem => not_isSpace_of_isExportChar (h char (List.mem_of_mem_head? hmem)))
    fun char hmem => not_isSpace_of_isExportChar (h char (List.mem_of_mem_getLast? hmem))

theorem ExportText.append {text more : List Char} (h : ExportText text) (hmore : ExportText more) :
    ExportText (text ++ more) := by
  intro char hmem
  exact (List.mem_append.mp hmem).elim (h char) (hmore char)

theorem exportText_of_all {text : List Char} (h : text.all isExportChar = true) : ExportText text :=
  List.all_eq_true.mp h

theorem exportText_hex (name : Bytes) : ExportText (hex name) :=
  fun _ hmem => isExportChar_of_isFieldChar (isFieldChar_hex hmem)

theorem exportText_colon {text : List Char} (h : ExportText text) : ExportText (':' :: text) :=
  List.forall_mem_cons.mpr ⟨rfl, h⟩

theorem exportText_recordLine (file : LoadedFile) : ExportText (recordLine file) :=
  (exportText_of_all rfl).append <|
    exportText_colon ((exportText_hex _).append (exportText_colon (exportText_hex _)))

theorem exportText_endLine (count : ℕ) : ExportText (endLine count) := by
  refine (exportText_of_all rfl).append fun char hmem => isExportChar_of_isFieldChar ?_
  unfold isFieldChar
  rw [Library.Json.toDigits_isDigit count char hmem, Bool.true_or]

/-- A line that carries the mark of the export. -/
def Marked (line : List Char) : Prop :=
  exportPrefix <+: strip line

instance (line : List Char) : Decidable (Marked line) :=
  inferInstanceAs (Decidable (exportPrefix <+: strip line))

theorem exportEndPrefix_last : ∀ char ∈ exportEndPrefix.getLast?, isSpace char = false := by
  have hlast : exportEndPrefix.getLast? = some ':' := rfl
  rintro char hmem
  cases hlast.symm.trans hmem
  rfl

/-! ## Lines are counted by their marks -/

theorem filter_zipIdx_eq_nil {p : List Char → Bool} {lines : List (List Char)} (start : ℕ)
    (h : ∀ line ∈ lines, p line = false) : (lines.zipIdx start).filter (fun line => p line.1) = [] := by
  rw [List.filter_eq_nil_iff]
  intro line hline hp
  rw [h line.1 (List.fst_mem_of_mem_zipIdx hline)] at hp
  cases hp

theorem length_filter_zipIdx (p : List Char → Bool) (lines : List (List Char)) (start : ℕ) :
    ((lines.zipIdx start).filter fun line => p line.1).length = lines.countP p := by
  induction lines generalizing start with
  | nil => rfl
  | cons line lines ih =>
      rw [List.zipIdx_cons, List.filter_cons, List.countP_cons]
      split
      · rw [List.length_cons, ih]
      · rw [ih, Nat.add_zero]

variable {digits : UnicodeDigits}

theorem parseLines_begins {lines : List (List Char)}
    (h : (lines.countP fun line => strip line = exportBegin) ≠ 1) :
    parseLines digits lines = .error (.provenance .markers) := by
  unfold parseLines
  dsimp only
  split
  · rename_i start line stop hbegins hends
    have hlength := congrArg List.length hbegins
    rw [List.length_map, length_filter_zipIdx fun line => strip line = exportBegin] at hlength
    exact absurd hlength h
  · rfl

theorem parseLines_ends {lines : List (List Char)}
    (h : (lines.countP fun line => exportEndPrefix <+: strip line) ≠ 1) :
    parseLines digits lines = .error (.provenance .markers) := by
  unfold parseLines
  dsimp only
  split
  · rename_i start line stop hbegins hends
    have hlength := congrArg List.length hends
    rw [length_filter_zipIdx fun line => exportEndPrefix <+: strip line] at hlength
    exact absurd hlength h
  · rfl

/-- With one marker of each kind, the lines between them are read. -/
theorem parseLines_split {before between after : List (List Char)} {first last : List Char}
    (hfirst : strip first = exportBegin) (hlast : exportEndPrefix <+: strip last)
    (hbegins : ∀ line ∈ before ++ between ++ after, ¬ strip line = exportBegin)
    (hends : ∀ line ∈ before ++ between ++ after, ¬ exportEndPrefix <+: strip line) :
    parseLines digits (before ++ first :: (between ++ last :: after)) =
      parseBody digits between (strip last) := by
  have hfirst' : ¬ exportEndPrefix <+: strip first := by
    rw [hfirst]
    decide
  have hlast' : ¬ strip last = exportBegin := by
    intro heq
    rw [heq] at hlast
    exact absurd hlast (by decide)
  have hbegin : ∀ start, ((before ++ first :: (between ++ last :: after)).zipIdx start).filter
      (fun line => strip line.1 = exportBegin) = [(first, start + before.length)] := by
    intro start
    rw [List.zipIdx_append, List.zipIdx_cons, List.zipIdx_append, List.zipIdx_cons, List.filter_append,
      List.filter_cons_of_pos (by simp [hfirst]), List.filter_append, List.filter_cons_of_neg (by simp [hlast']),
      filter_zipIdx_eq_nil (p := fun line => strip line = exportBegin),
      filter_zipIdx_eq_nil (p := fun line => strip line = exportBegin),
      filter_zipIdx_eq_nil (p := fun line => strip line = exportBegin)]
    · rfl
    all_goals
      intro line hmem
      exact decide_eq_false (hbegins line (by simp [hmem]))
  have hend : ∀ start, ((before ++ first :: (between ++ last :: after)).zipIdx start).filter
      (fun line => exportEndPrefix <+: strip line.1) = [(last, start + before.length + 1 + between.length)] := by
    intro start
    rw [List.zipIdx_append, List.zipIdx_cons, List.zipIdx_append, List.zipIdx_cons, List.filter_append,
      List.filter_cons_of_neg (by simp [hfirst']), List.filter_append, List.filter_cons_of_pos (by simp [hlast]),
      filter_zipIdx_eq_nil (p := fun line => exportEndPrefix <+: strip line),
      filter_zipIdx_eq_nil (p := fun line => exportEndPrefix <+: strip line),
      filter_zipIdx_eq_nil (p := fun line => exportEndPrefix <+: strip line)]
    · rfl
    all_goals
      intro line hmem
      exact decide_eq_false (hends line (by simp [hmem]))
  have hbetween : ((before ++ first :: (between ++ last :: after)).take (0 + before.length + 1 + between.length)).drop
      (0 + before.length + 1) = between := by
    have htake : before ++ first :: (between ++ last :: after) = (before ++ [first]) ++ between ++ (last :: after) := by
      simp
    have hlength : 0 + before.length + 1 + between.length = ((before ++ [first]) ++ between).length := by
      simp
      omega
    have hdrop : 0 + before.length + 1 = (before ++ [first]).length := by simp
    rw [htake, hlength, List.take_left, hdrop, List.drop_left]
  unfold parseLines
  dsimp only
  rw [hbegin, hend]
  show (if 0 + before.length + 1 + between.length ≤ 0 + before.length then _ else _) = _
  rw [if_neg (by omega), hbetween]

/-- Lines without the mark are passed over. -/
theorem exportRecords_filter (lines : List (List Char)) :
    exportRecords (lines.filter (Marked ·)) = exportRecords lines := by
  induction lines with
  | nil => rfl
  | cons line lines ih =>
      by_cases hmarked : Marked line
      · rw [List.filter_cons_of_pos (by simpa using hmarked), exportRecords, exportRecords, ih]
      · have hcolon : ¬ exportPrefix ++ [':'] <+: strip line := fun h =>
          hmarked ((List.prefix_append exportPrefix [':']).trans h)
        rw [List.filter_cons_of_neg (by simpa using hmarked), ih, exportRecords, if_neg hcolon]

theorem parseBody_filter (lines : List (List Char)) (endLine : List Char) :
    parseBody digits (lines.filter (Marked ·)) endLine = parseBody digits lines endLine := by
  unfold parseBody
  rw [exportRecords_filter]

/-- What is read depends on the marked lines alone. -/
theorem parseLines_marked {lines before between after : List (List Char)} {first last : List Char}
    (hlines : lines.filter (Marked ·) = before ++ first :: (between ++ last :: after))
    (hfirst : strip first = exportBegin) (hlast : exportEndPrefix <+: strip last)
    (hbegins : ∀ line ∈ before ++ between ++ after, ¬ strip line = exportBegin)
    (hends : ∀ line ∈ before ++ between ++ after, ¬ exportEndPrefix <+: strip line) :
    parseLines digits lines = parseBody digits between (strip last) := by
  obtain ⟨before', rest, rfl, hbefore, hrest⟩ := List.filter_eq_append_iff.mp hlines
  obtain ⟨skipped, rest', rfl, hskipped, -, hrest'⟩ := List.filter_eq_cons_iff.mp hrest
  obtain ⟨between', rest'', rfl, hbetween, hrest''⟩ := List.filter_eq_append_iff.mp hrest'
  obtain ⟨skipped', after', rfl, hskipped', -, hafter⟩ := List.filter_eq_cons_iff.mp hrest''
  have hmem : ∀ line ∈ (before' ++ skipped) ++ (between' ++ skipped') ++ after', Marked line →
      line ∈ before ++ between ++ after := by
    intro line hline hmarked
    rw [← hbefore, ← hbetween, ← hafter]
    simp only [List.mem_append, List.mem_filter, decide_eq_true_eq] at hline ⊢
    rcases hline with ((hline | hline) | hline | hline) | hline
    · exact .inl (.inl ⟨hline, hmarked⟩)
    · exact absurd hmarked (by simpa using hskipped line hline)
    · exact .inl (.inr ⟨hline, hmarked⟩)
    · exact absurd hmarked (by simpa using hskipped' line hline)
    · exact .inr ⟨hline, hmarked⟩
  have hassoc : before' ++ (skipped ++ first :: (between' ++ (skipped' ++ last :: after'))) =
      (before' ++ skipped) ++ first :: ((between' ++ skipped') ++ last :: after') := by simp
  have hnone : (between' ++ skipped').filter (Marked ·) = between := by
    rw [List.filter_append, hbetween, List.filter_eq_nil_iff.mpr hskipped', List.append_nil]
  rw [hassoc, parseLines_split hfirst hlast, ← parseBody_filter, hnone]
  · intro line hline heq
    refine hbegins line (hmem line hline ?_) heq
    unfold Marked
    rw [heq]
    exact List.prefix_append _ _
  · intro line hline hend
    exact hends line (hmem line hline ((List.prefix_append _ _).trans hend)) hend

theorem countP_marked {p : List Char → Bool} (lines : List (List Char)) (h : ∀ line, p line = true → Marked line) :
    lines.countP p = (lines.filter (Marked ·)).countP p := by
  rw [List.countP_filter]
  refine List.countP_congr fun line _ => ?_
  simpa using h line

/-! ## Records are read as they were printed -/

theorem matchRecord_recordLine (file : LoadedFile) :
    matchRecord (recordLine file) = some (hex file.name, hex file.digest) := by
  have hcolon : isFieldChar ':' = false := by decide
  have hname : ∀ char ∈ hex file.name, isFieldChar char = true := fun _ hmem => isFieldChar_hex hmem
  have hdrop : (hex file.name ++ ':' :: hex file.digest).dropWhile isFieldChar = ':' :: hex file.digest := by
    rw [List.dropWhile_append_of_pos hname, List.dropWhile_cons_of_neg (by simp [hcolon])]
  have htake : (hex file.name ++ ':' :: hex file.digest).takeWhile isFieldChar = hex file.name := by
    rw [List.takeWhile_append_of_pos hname, List.takeWhile_cons_of_neg (by simp [hcolon]), List.append_nil]
  unfold matchRecord recordLine
  rw [List.drop_left]
  simp only [hdrop, htake]
  exact if_pos ⟨List.prefix_append _ _, isMd5_hex file.digest_length⟩

theorem recordOf_hex (file : LoadedFile) : recordOf (hex file.name, hex file.digest) = .ok file.record := by
  unfold recordOf
  rw [fromHex_hex]
  dsimp only
  rw [dif_pos file.name_valid, dif_pos (isMd5_hex file.digest_length)]
  rfl

theorem exportRecords_recordLines (files : List LoadedFile) :
    exportRecords (files.map recordLine) = .ok (files.map LoadedFile.record) := by
  induction files with
  | nil => rfl
  | cons file files ih =>
      have hstrip : strip (recordLine file) = recordLine file := (exportText_recordLine file).strip_eq
      have hmark : exportPrefix ++ [':'] <+: recordLine file :=
        ⟨hex file.name ++ ':' :: hex file.digest, List.append_assoc _ _ _⟩
      rw [List.map_cons, exportRecords, hstrip, if_pos hmark, matchRecord_recordLine]
      dsimp only
      rw [recordOf_hex, ih]
      rfl

theorem mapM_decimal {text : List Char} (h : ∀ char ∈ text, char.isDigit = true) :
    text.mapM digits.decimal = some (text.map fun char => char.toNat - '0'.toNat) := by
  induction text with
  | nil => rfl
  | cons char text ih =>
      rw [List.mapM_cons, digits.decimal_ascii char (h char List.mem_cons_self),
        ih fun other hmem => h other (List.mem_cons_of_mem _ hmem)]
      rfl

/-- ASCII digits are read as they stand. -/
theorem intOf_ascii {text : List Char} (h : ∀ char ∈ text, char.isDigit = true) :
    digits.intOf text = some (Nat.ofDigitChars 10 text 0) := by
  unfold UnicodeDigits.intOf
  rw [mapM_decimal h, Nat.ofDigitChars_eq_foldl, Option.map_some, List.foldl_map]

/-- Fewer digits are a smaller number, and no digits at all are a zero. -/
theorem ofDigitChars_lt {count : ℕ} {front back : List Char} (h : front ++ back = Nat.toDigits 10 count)
    (hfront : front ≠ []) (hback : back ≠ []) : Nat.ofDigitChars 10 front 0 < count := by
  have hvalue : count = 10 ^ back.length * Nat.ofDigitChars 10 front 0 + Nat.ofDigitChars 10 back 0 := by
    rw [← Nat.ofDigitChars_eq_ofDigitChars_zero, ← Nat.ofDigitChars_append, h, Nat.ofDigitChars_ten_toDigits]
  have hpow : 10 ≤ 10 ^ back.length := Nat.le_self_pow (by simpa using hback) 10
  have hpos : 0 < count := by
    rw [Nat.pos_iff_ne_zero]
    rintro rfl
    have hlength := congrArg List.length h
    have hone := List.length_pos_iff.mpr hfront
    have hother := List.length_pos_iff.mpr hback
    rw [List.length_append] at hlength
    have hzero : (Nat.toDigits 10 0).length = 1 := rfl
    omega
  have hmul : 10 * Nat.ofDigitChars 10 front 0 ≤ 10 ^ back.length * Nat.ofDigitChars 10 front 0 :=
    Nat.mul_le_mul_right _ hpow
  omega

/-- The records of the export under an end marker of ASCII digits. -/
theorem parseBody_recordLines (files : List LoadedFile) {raw : List Char} (hne : raw ≠ [])
    (hdigits : ∀ char ∈ raw, char.isDigit = true) :
    parseBody digits (files.map recordLine) (exportEndPrefix ++ raw) =
      if files.length ≠ Nat.ofDigitChars 10 raw 0 then
        .error (.provenance (.mismatch (Nat.ofDigitChars 10 raw 0) files.length))
      else .ok (files.map LoadedFile.record) := by
  have hall : raw.all digits.isDigit = true :=
    List.all_eq_true.mpr fun char hmem => digits.isDigit_ascii char (hdigits char hmem)
  unfold parseBody
  rw [List.drop_left]
  dsimp only
  rw [if_neg (by simp [hne, hall]), exportRecords_recordLines, intOf_ascii hdigits]
  show (if (files.map LoadedFile.record).length ≠ _ then _ else _) = _
  rw [List.length_map]

end Hearth.Criu
