import Hearth.Criu.LoaderExport

/-!
# Transcripts that hold an export

A transcript is cut into the lines that the program of `loader_export_source` printed and into other text, which
stands on lines of its own.  The parser answers with the files of the loader when all lines of the export are
there; where lines are lost, where the end is cut off and where a line stands twice, the answer follows from the
lines that carry the mark of the export.
-/

namespace Hearth.Criu

open Hearth.Library.Text
open Hearth.Diagnostics (hex isFieldChar isFieldChar_hex)

/-- What is printed before a line feed. -/
inductive Piece
  /-- a line of the export -/
  | own (line : List Char)
  /-- other text, of any number of lines -/
  | other (text : List Char)

def Piece.text : Piece → List Char
  | .own line => line
  | .other text => text

/-- The line of the export in a piece. -/
def Piece.ownLine : Piece → Option (List Char)
  | .own line => some line
  | .other _ => none

/-- The text of a transcript before its last line. -/
def transcript (pieces : List Piece) : List Char :=
  (pieces.map fun piece => piece.text ++ ['\n']).flatten

def ownLines (pieces : List Piece) : List (List Char) :=
  pieces.filterMap Piece.ownLine

/-- No line of the text carries the mark of the export. -/
def Unmarked (text : List Char) : Prop :=
  ∀ line ∈ splitlines text, ¬ Marked line

/-- Text that is not of the export does not carry its mark. -/
def OthersUnmarked (pieces : List Piece) : Prop :=
  ∀ text, Piece.other text ∈ pieces → Unmarked text

/-- A line as the export has them. -/
def ExportLine (line : List Char) : Prop :=
  ExportText line ∧ exportPrefix <+: line

/-! ## The lines of an export -/

theorem ExportLine.strip_eq {line : List Char} (h : ExportLine line) : strip line = line :=
  h.1.strip_eq

theorem ExportLine.marked {line : List Char} (h : ExportLine line) : Marked line := by
  unfold Marked
  rw [h.strip_eq]
  exact h.2

theorem ExportLine.no_break {line : List Char} (h : ExportLine line) : ∀ char ∈ line, isLineBreak char = false :=
  fun char hmem => not_isLineBreak_of_isExportChar (h.1 char hmem)

theorem exportLine_begin : ExportLine exportBegin :=
  ⟨exportText_of_all rfl, List.prefix_append _ _⟩

theorem exportLine_recordLine (file : LoadedFile) : ExportLine (recordLine file) :=
  ⟨exportText_recordLine file, List.prefix_append _ _⟩

theorem exportLine_endLine (count : ℕ) : ExportLine (endLine count) :=
  ⟨exportText_endLine count, (List.prefix_append _ _).trans (List.prefix_append _ _)⟩

theorem exportLine_of_mem {files : List LoadedFile} {line : List Char} (h : line ∈ loaderExport files) :
    ExportLine line := by
  unfold loaderExport at h
  rcases List.mem_cons.mp h with rfl | h
  · exact exportLine_begin
  rcases List.mem_append.mp h with h | h
  · obtain ⟨file, -, rfl⟩ := List.mem_map.mp h
    exact exportLine_recordLine file
  · rw [List.mem_singleton.mp h]
    exact exportLine_endLine _

theorem endPrefix_endLine (count : ℕ) : exportEndPrefix <+: endLine count :=
  List.prefix_append _ _

theorem recordLine_ne_begin (file : LoadedFile) : recordLine file ≠ exportBegin := by
  intro h
  have hlength := congrArg List.length h
  unfold recordLine exportBegin at hlength
  simp only [List.length_append, List.length_cons, Diagnostics.length_hex, file.digest_length] at hlength
  have hbegin : ":BEGIN".toList.length = 6 := rfl
  omega

theorem recordLine_not_end (file : LoadedFile) : ¬ exportEndPrefix <+: recordLine file := by
  unfold exportEndPrefix recordLine
  rw [List.prefix_append_right_inj]
  intro h
  have hfirst : ['E'] <+: hex file.name ++ ':' :: hex file.digest :=
    List.IsPrefix.trans (List.prefix_append ['E'] ['N', 'D', ':']) (List.cons_prefix_cons.mp h).2
  cases hname : hex file.name with
  | nil =>
      rw [hname] at hfirst
      exact absurd (List.cons_prefix_cons.mp hfirst).1 (by decide)
  | cons char name =>
      rw [hname] at hfirst
      have hchar : isFieldChar char = true := isFieldChar_hex (hname ▸ List.mem_cons_self)
      rw [← (List.cons_prefix_cons.mp hfirst).1] at hchar
      exact absurd hchar (by decide)

theorem begin_not_end : ¬ exportEndPrefix <+: exportBegin := by
  decide

theorem endLine_ne_begin (count : ℕ) : endLine count ≠ exportBegin :=
  fun h => begin_not_end (h ▸ endPrefix_endLine count)

/-! ## The marked lines of a transcript -/

theorem not_marked_nil : ¬ Marked [] := by
  decide

theorem transcript_cons (piece : Piece) (pieces : List Piece) :
    transcript (piece :: pieces) = piece.text ++ '\n' :: transcript pieces := by
  unfold transcript
  rw [List.map_cons, List.flatten_cons, List.append_assoc]
  rfl

theorem filter_unmarked {lines : List (List Char)} (h : ∀ line ∈ lines, ¬ Marked line) :
    lines.filter (Marked ·) = [] :=
  List.filter_eq_nil_iff.mpr fun line hline => by simpa using h line hline

/-- The marked lines of a transcript are the lines of the export that it holds, and those of its end. -/
theorem marked_transcript {pieces : List Piece} (hother : OthersUnmarked pieces)
    (hown : ∀ line ∈ ownLines pieces, ExportLine line) (tail : List Char) :
    (splitlines (transcript pieces ++ tail)).filter (Marked ·) =
      ownLines pieces ++ (splitlines tail).filter (Marked ·) := by
  induction pieces with
  | nil => rfl
  | cons piece pieces ih =>
      have hother' : OthersUnmarked pieces := fun text hmem => hother text (List.mem_cons_of_mem _ hmem)
      rw [transcript_cons, List.append_assoc, List.cons_append]
      cases piece with
      | own line =>
          have hline : ExportLine line := hown line List.mem_cons_self
          show List.filter (Marked ·) (splitlines (line ++ '\n' :: (transcript pieces ++ tail))) = _
          rw [splitlines_line hline.no_break, List.filter_cons_of_pos (by simpa using hline.marked),
            ih hother' fun line hmem => hown line (List.mem_cons_of_mem _ hmem)]
          rfl
      | other text =>
          have hnone : (splitlines (text ++ ['\n'])).filter (Marked ·) = [] := by
            refine filter_unmarked fun line hline => ?_
            rcases mem_splitlines_append_lf hline with hline | rfl
            · exact hother text List.mem_cons_self line hline
            · exact not_marked_nil
          show List.filter (Marked ·) (splitlines (text ++ '\n' :: (transcript pieces ++ tail))) = _
          rw [splitlines_append_lf, List.filter_append, hnone, ih hother' hown]
          rfl

variable {digits : UnicodeDigits}

/-- Without one begin marker among its marked lines, a text is refused. -/
theorem parse_begins {text : List Char} {lines : List (List Char)}
    (hlines : (splitlines text).filter (Marked ·) = lines)
    (h : (lines.countP fun line => strip line = exportBegin) ≠ 1) :
    parseLoaderExport digits text = .error (.provenance .markers) := by
  refine parseLines_begins ?_
  rwa [countP_marked, hlines]
  intro line hline
  unfold Marked
  rw [of_decide_eq_true hline]
  exact List.prefix_append _ _

/-- Without one end marker among its marked lines, a text is refused. -/
theorem parse_ends {text : List Char} {lines : List (List Char)}
    (hlines : (splitlines text).filter (Marked ·) = lines)
    (h : (lines.countP fun line => exportEndPrefix <+: strip line) ≠ 1) :
    parseLoaderExport digits text = .error (.provenance .markers) := by
  refine parseLines_ends ?_
  rwa [countP_marked, hlines]
  intro line hline
  exact (List.prefix_append _ _).trans (of_decide_eq_true hline)

/-- With one marker of each kind, what stands between them is read, and records outside of them are not. -/
theorem parse_between {text : List Char} (before after : List LoadedFile) {inner : List LoadedFile} {raw : List Char}
    (hlines : (splitlines text).filter (Marked ·) = before.map recordLine ++
      exportBegin :: (inner.map recordLine ++ (exportEndPrefix ++ raw) :: after.map recordLine))
    (hdigits : ∀ char ∈ raw, char.isDigit = true) :
    parseLoaderExport digits text = parseBody digits (inner.map recordLine) (exportEndPrefix ++ raw) := by
  have hraw : ExportText (exportEndPrefix ++ raw) := by
    refine (exportText_of_all rfl).append fun char hmem => isExportChar_of_isFieldChar ?_
    unfold isFieldChar
    rw [hdigits char hmem, Bool.true_or]
  have hrecord : ∀ line ∈ before.map recordLine ++ inner.map recordLine ++ after.map recordLine,
      ∃ file, line = recordLine file := by
    intro line hmem
    rw [← List.map_append, ← List.map_append] at hmem
    obtain ⟨file, -, rfl⟩ := List.mem_map.mp hmem
    exact ⟨file, rfl⟩
  unfold parseLoaderExport
  rw [parseLines_marked hlines exportLine_begin.strip_eq, hraw.strip_eq]
  · rw [hraw.strip_eq]
    exact List.prefix_append _ _
  · intro line hmem
    obtain ⟨file, rfl⟩ := hrecord line hmem
    rw [(exportLine_recordLine file).strip_eq]
    exact recordLine_ne_begin file
  · intro line hmem
    obtain ⟨file, rfl⟩ := hrecord line hmem
    rw [(exportLine_recordLine file).strip_eq]
    exact recordLine_not_end file

theorem parse_framed {text : List Char} (before after : List LoadedFile) {inner : List LoadedFile} {raw : List Char}
    (hlines : (splitlines text).filter (Marked ·) = before.map recordLine ++
      exportBegin :: (inner.map recordLine ++ (exportEndPrefix ++ raw) :: after.map recordLine))
    (hne : raw ≠ []) (hdigits : ∀ char ∈ raw, char.isDigit = true) :
    parseLoaderExport digits text =
      if inner.length ≠ Nat.ofDigitChars 10 raw 0 then
        .error (.provenance (.mismatch (Nat.ofDigitChars 10 raw 0) inner.length))
      else .ok (inner.map LoadedFile.record) := by
  rw [parse_between before after hlines hdigits, parseBody_recordLines _ hne hdigits]

/-! ## How often the markers stand in an export -/

theorem countP_begin_records (files : List LoadedFile) :
    (files.map recordLine).countP (fun line => strip line = exportBegin) = 0 := by
  rw [List.countP_eq_zero]
  intro line hmem
  obtain ⟨file, -, rfl⟩ := List.mem_map.mp hmem
  rw [(exportLine_recordLine file).strip_eq, decide_eq_true_eq]
  exact recordLine_ne_begin file

theorem countP_end_records (files : List LoadedFile) :
    (files.map recordLine).countP (fun line => exportEndPrefix <+: strip line) = 0 := by
  rw [List.countP_eq_zero]
  intro line hmem
  obtain ⟨file, -, rfl⟩ := List.mem_map.mp hmem
  rw [(exportLine_recordLine file).strip_eq, decide_eq_true_eq]
  exact recordLine_not_end file

theorem countP_begin (lines : List (List Char)) :
    (exportBegin :: lines).countP (fun line => strip line = exportBegin) =
      lines.countP (fun line => strip line = exportBegin) + 1 :=
  List.countP_cons_of_pos (by rw [exportLine_begin.strip_eq, decide_eq_true_eq])

theorem countP_end_begin (lines : List (List Char)) :
    (exportBegin :: lines).countP (fun line => exportEndPrefix <+: strip line) =
      lines.countP (fun line => exportEndPrefix <+: strip line) :=
  List.countP_cons_of_neg (by rw [exportLine_begin.strip_eq, decide_eq_true_eq]; exact begin_not_end)

theorem countP_begin_endLine (count : ℕ) :
    [endLine count].countP (fun line => strip line = exportBegin) = 0 :=
  List.countP_cons_of_neg (by
    rw [(exportLine_endLine count).strip_eq, decide_eq_true_eq]
    exact endLine_ne_begin count)

theorem countP_endLine (count : ℕ) :
    [endLine count].countP (fun line => exportEndPrefix <+: strip line) = 1 :=
  List.countP_cons_of_pos (by
    rw [(exportLine_endLine count).strip_eq, decide_eq_true_eq]
    exact endPrefix_endLine count)

theorem countP_begin_export (files : List LoadedFile) :
    (loaderExport files).countP (fun line => strip line = exportBegin) = 1 := by
  unfold loaderExport
  rw [countP_begin, List.countP_append, countP_begin_records, countP_begin_endLine]

theorem countP_end_export (files : List LoadedFile) :
    (loaderExport files).countP (fun line => exportEndPrefix <+: strip line) = 1 := by
  unfold loaderExport
  rw [countP_end_begin, List.countP_append, countP_end_records, countP_endLine]

/-! ## What becomes of an export -/

/-- The parser raises a `LoadedProvenanceError`. -/
def Refused (result : Except ExportError (List LoaderRecord)) : Prop :=
  ∃ failure, result = .error (.provenance failure)

theorem ownLines_unmarked {pieces : List Piece} {tail : List Char} {lines : List (List Char)}
    (hother : OthersUnmarked pieces) (htail : Unmarked tail) (hown : ownLines pieces = lines)
    (hlines : ∀ line ∈ lines, ExportLine line) :
    (splitlines (transcript pieces ++ tail)).filter (Marked ·) = lines := by
  rw [marked_transcript hother (hown ▸ hlines), filter_unmarked htail, List.append_nil, hown]

/-- The whole export is read, oldest file first. -/
theorem parse_whole {pieces : List Piece} {tail : List Char} {files : List LoadedFile}
    (hother : OthersUnmarked pieces) (htail : Unmarked tail) (hown : ownLines pieces = loaderExport files) :
    parseLoaderExport digits (transcript pieces ++ tail) = .ok (files.reverse.map LoadedFile.record) := by
  have hmarked := ownLines_unmarked hother htail hown fun line => exportLine_of_mem
  rw [parse_framed [] [] hmarked Nat.toDigits_ne_nil (Library.Json.toDigits_isDigit _),
    if_neg (by rw [Nat.ofDigitChars_ten_toDigits, List.length_reverse]; exact not_not_intro rfl)]

/-- An export from which lines were lost is refused. -/
theorem parse_lost {pieces : List Piece} {tail : List Char} {files : List LoadedFile}
    (hother : OthersUnmarked pieces) (htail : Unmarked tail) (hown : (ownLines pieces).Sublist (loaderExport files))
    (hlost : ownLines pieces ≠ loaderExport files) :
    Refused (parseLoaderExport digits (transcript pieces ++ tail)) := by
  have hmarked := ownLines_unmarked hother htail rfl fun line hmem => exportLine_of_mem (hown.subset hmem)
  rcases List.sublist_cons_iff.mp hown with hrest | ⟨rest, heq, hrest⟩
  · -- the begin marker is lost
    refine ⟨.markers, parse_begins hmarked ?_⟩
    have hle : (ownLines pieces).countP (fun line => strip line = exportBegin) ≤ _ := hrest.countP_le
    rw [List.countP_append, countP_begin_records, countP_begin_endLine] at hle
    omega
  obtain ⟨records, last, rfl, hrecords, hlast⟩ := List.sublist_append_iff.mp hrest
  obtain ⟨kept, hkept, rfl⟩ := List.sublist_map_iff.mp hrecords
  rcases List.sublist_cons_iff.mp hlast with hnone | ⟨none, rfl, hnone⟩
  · -- the end marker is lost
    refine ⟨.markers, parse_ends hmarked ?_⟩
    rw [heq, List.sublist_nil.mp hnone, List.append_nil, countP_end_begin, countP_end_records]
    exact Nat.zero_ne_one
  · -- a record is lost
    rw [List.sublist_nil.mp hnone] at heq
    rw [heq] at hmarked
    refine ⟨_, (parse_framed [] [] hmarked Nat.toDigits_ne_nil
      (Library.Json.toDigits_isDigit _)).trans (if_pos ?_)⟩
    rw [Nat.ofDigitChars_ten_toDigits]
    intro hlength
    have hall : kept = files.reverse := hkept.eq_of_length (by rw [hlength, List.length_reverse])
    rw [hall] at heq
    exact hlost heq

/-- An export that is cut off before the last digit of its end marker is refused. -/
theorem parse_cut {pieces : List Piece} {files : List LoadedFile} {text : List Char}
    (hother : OthersUnmarked pieces) (hown : ownLines pieces ++ [endLine files.length] = loaderExport files)
    (hcut : text <+: transcript pieces ++ endLine files.length)
    (hshort : text ≠ transcript pieces ++ endLine files.length) : Refused (parseLoaderExport digits text) := by
  have hown' : ownLines pieces = exportBegin :: files.reverse.map recordLine := by
    rw [loaderExport, ← List.cons_append] at hown
    exact List.append_cancel_right hown
  have hline : ∀ line ∈ ownLines pieces, ExportLine line := by
    intro line hmem
    exact exportLine_of_mem (hown ▸ List.mem_append_left _ hmem)
  have hmarked : ∀ tail, (splitlines (transcript pieces ++ tail)).filter (Marked ·) =
      exportBegin :: (files.reverse.map recordLine ++ (splitlines tail).filter (Marked ·)) := by
    intro tail
    rw [marked_transcript hother hline, hown']
    rfl
  have hends : ∀ line ∈ splitlines (transcript pieces), ¬ exportEndPrefix <+: strip line := by
    have hcount : (splitlines (transcript pieces)).countP (fun line => exportEndPrefix <+: strip line) = 0 := by
      have hall := hmarked []
      rw [List.append_nil] at hall
      rw [countP_marked, hall, countP_end_begin, List.countP_append, countP_end_records]
      · rfl
      · intro line h
        exact (List.prefix_append _ _).trans (of_decide_eq_true h)
    intro line hmem h
    exact List.countP_eq_zero.mp hcount line hmem (decide_eq_true h)
  rcases List.prefix_or_prefix_of_prefix hcut (List.prefix_append (transcript pieces) _) with hbefore | ⟨last, rfl⟩
  · -- the cut is in front of the end marker
    refine ⟨.markers, parseLines_ends ?_⟩
    rw [List.countP_eq_zero.mpr]
    · exact Nat.zero_ne_one
    · intro line hmem h
      obtain ⟨whole, hwhole, hbegins⟩ := exists_line_of_prefix hbefore hmem
      exact hends whole hwhole (prefix_strip_of_longer (by decide) exportEndPrefix_last hbegins (of_decide_eq_true h))
  have hlast : last <+: endLine files.length := (List.prefix_append_right_inj _).mp hcut
  have htext : ExportText last := fun char hmem => exportText_endLine _ char (hlast.subset hmem)
  by_cases hend : exportEndPrefix <+: last
  · obtain ⟨raw, rfl⟩ := hend
    obtain ⟨lost, hlost⟩ := (List.prefix_append_right_inj _).mp hlast
    have hraw : ∀ char ∈ raw, char.isDigit = true := fun char hmem =>
      Library.Json.toDigits_isDigit files.length char (hlost ▸ List.mem_append_left _ hmem)
    have hne : exportEndPrefix ++ raw ≠ [] := List.append_ne_nil_of_left_ne_nil (by decide) _
    have hlines : (splitlines (exportEndPrefix ++ raw)).filter (Marked ·) = [exportEndPrefix ++ raw] := by
      rw [splitlines_last (fun char hmem => not_isLineBreak_of_isExportChar (htext char hmem)) hne,
        List.filter_cons_of_pos, List.filter_nil]
      rw [decide_eq_true_eq, Marked, htext.strip_eq]
      exact (List.prefix_append exportPrefix _).trans (List.prefix_append exportEndPrefix raw)
    have hall := hmarked (exportEndPrefix ++ raw)
    rw [hlines] at hall
    by_cases hnone : raw = []
    · -- no digit is left
      subst hnone
      rw [parse_between [] [] hall hraw]
      exact ⟨.count [], rfl⟩
    · -- the number is smaller than the number of records
      refine ⟨_, (parse_framed [] [] hall hnone hraw).trans (if_pos ?_)⟩
      have hlt : Nat.ofDigitChars 10 raw 0 < files.length := by
        refine ofDigitChars_lt hlost hnone ?_
        rintro rfl
        rw [List.append_nil] at hlost
        exact hshort (hlost ▸ rfl)
      rw [List.length_reverse]
      exact hlt.ne'
  · -- the mark of the end is cut
    refine ⟨.markers, parse_ends (hmarked last) ?_⟩
    have hnone : ((splitlines last).filter (Marked ·)).countP (fun line => exportEndPrefix <+: strip line) = 0 := by
      rw [List.countP_eq_zero]
      intro line hmem
      rcases eq_or_ne last [] with rfl | hne
      · exact absurd (List.mem_of_mem_filter hmem) List.not_mem_nil
      · have hlines := splitlines_last (fun char hmem => not_isLineBreak_of_isExportChar (htext char hmem)) hne
        rw [hlines] at hmem
        rw [List.mem_singleton.mp (List.mem_of_mem_filter hmem), htext.strip_eq, decide_eq_true_eq]
        exact hend
    rw [countP_end_begin, List.countP_append, countP_end_records, hnone]
    exact Nat.zero_ne_one

/-- A line of the export that stands twice. -/
structure Doubled (files : List LoadedFile) (lines before after : List (List Char)) (line : List Char) : Prop where
  lines_eq : lines = before ++ line :: after
  once : before ++ after = loaderExport files
  mem : line ∈ loaderExport files

theorem Doubled.exportLine {files : List LoadedFile} {lines before after : List (List Char)} {line : List Char}
    (h : Doubled files lines before after line) : ∀ other ∈ lines, ExportLine other := by
  intro other hmem
  rw [h.lines_eq] at hmem
  rcases List.mem_append.mp hmem with hmem | hmem
  · exact exportLine_of_mem (h.once ▸ List.mem_append_left _ hmem)
  · rcases List.mem_cons.mp hmem with rfl | hmem
    · exact exportLine_of_mem h.mem
    · exact exportLine_of_mem (h.once ▸ List.mem_append_right _ hmem)

theorem Doubled.countP {files : List LoadedFile} {lines before after : List (List Char)} {line : List Char}
    (h : Doubled files lines before after line) (p : List Char → Bool) :
    lines.countP p = (loaderExport files).countP p + [line].countP p := by
  rw [h.lines_eq, ← h.once, List.countP_append, List.countP_append, ← List.singleton_append, List.countP_append]
  omega

/-- A marker that stands twice is refused. -/
theorem parse_doubled_marker {pieces : List Piece} {tail : List Char} {files : List LoadedFile}
    {before after : List (List Char)} {line : List Char} (hother : OthersUnmarked pieces) (htail : Unmarked tail)
    (h : Doubled files (ownLines pieces) before after line)
    (hmarker : line = exportBegin ∨ line = endLine files.length) :
    Refused (parseLoaderExport digits (transcript pieces ++ tail)) := by
  have hmarked := ownLines_unmarked hother htail rfl h.exportLine
  rcases hmarker with rfl | rfl
  · refine ⟨.markers, parse_begins hmarked ?_⟩
    rw [h.countP, countP_begin_export, countP_begin]
    exact Nat.succ_ne_self 1
  · refine ⟨.markers, parse_ends hmarked ?_⟩
    rw [h.countP, countP_end_export, countP_endLine]
    exact Nat.succ_ne_self 1

/-- A record that stands twice between the markers is refused. -/
theorem parse_doubled_record {pieces : List Piece} {tail : List Char} {files : List LoadedFile}
    {before after : List (List Char)} {file : LoadedFile} (hother : OthersUnmarked pieces) (htail : Unmarked tail)
    (h : Doubled files (ownLines pieces) before after (recordLine file)) (hbefore : before ≠ [])
    (hafter : after ≠ []) : Refused (parseLoaderExport digits (transcript pieces ++ tail)) := by
  have hmarked := ownLines_unmarked hother htail h.lines_eq (h.lines_eq ▸ h.exportLine)
  obtain ⟨first, front, rfl⟩ := List.exists_cons_of_ne_nil hbefore
  obtain ⟨back, last, rfl⟩ := (List.eq_nil_or_concat' after).resolve_left hafter
  have honce := h.once
  rw [loaderExport, List.cons_append, List.cons.injEq, ← List.append_assoc] at honce
  obtain ⟨rfl, honce⟩ := honce
  obtain ⟨hrecords, hlast⟩ := List.append_inj' honce rfl
  obtain ⟨earlier, later, hfiles, rfl, rfl⟩ := List.map_eq_append_iff.mp hrecords.symm
  rw [List.singleton_inj.mp hlast, show exportBegin :: earlier.map recordLine ++
    recordLine file :: (later.map recordLine ++ [endLine files.length]) =
      exportBegin :: ((earlier ++ file :: later).map recordLine ++ [endLine files.length]) by simp] at hmarked
  refine ⟨_, (parse_framed [] [] hmarked Nat.toDigits_ne_nil
    (Library.Json.toDigits_isDigit _)).trans (if_pos ?_)⟩
  have hlength := congrArg List.length hfiles
  rw [List.length_reverse, List.length_append] at hlength
  rw [Nat.ofDigitChars_ten_toDigits, List.length_append, List.length_cons]
  omega

/-- A record that stands a second time outside of the markers is passed over. -/
theorem parse_doubled_outside {pieces : List Piece} {tail : List Char} {files : List LoadedFile}
    {before after : List (List Char)} {file : LoadedFile} (hother : OthersUnmarked pieces) (htail : Unmarked tail)
    (h : Doubled files (ownLines pieces) before after (recordLine file)) (houtside : before = [] ∨ after = []) :
    parseLoaderExport digits (transcript pieces ++ tail) = .ok (files.reverse.map LoadedFile.record) := by
  have hmarked := ownLines_unmarked hother htail h.lines_eq (h.lines_eq ▸ h.exportLine)
  have hlength : ¬ files.reverse.length ≠ Nat.ofDigitChars 10 (Nat.toDigits 10 files.length) 0 := by
    rw [Nat.ofDigitChars_ten_toDigits, List.length_reverse]
    exact not_not_intro rfl
  have honce := h.once
  rcases houtside with rfl | rfl
  · rw [List.nil_append] at honce
    rw [honce] at hmarked
    rw [parse_framed [file] [] hmarked Nat.toDigits_ne_nil (Library.Json.toDigits_isDigit _), if_neg hlength]
  · rw [List.append_nil] at honce
    rw [honce, loaderExport, List.cons_append, List.append_assoc] at hmarked
    rw [parse_framed [] [file] hmarked Nat.toDigits_ne_nil (Library.Json.toDigits_isDigit _), if_neg hlength]

/-- The round trip of the export.  A transcript that holds its lines among unmarked text is read as the files of the
loader, oldest first.  Where lines of it are lost, or the text ends before the last digit of the end marker, or a
line stands twice, the transcript is refused; only a record whose second copy stands outside of the markers is
passed over. -/
theorem parseLoaderExport_transcript (digits : UnicodeDigits) (files : List LoadedFile) (pieces : List Piece)
    (tail : List Char) (hother : OthersUnmarked pieces) (htail : Unmarked tail) :
    (ownLines pieces = loaderExport files →
      parseLoaderExport digits (transcript pieces ++ tail) = .ok (files.reverse.map LoadedFile.record)) ∧
    ((ownLines pieces).Sublist (loaderExport files) → ownLines pieces ≠ loaderExport files →
      Refused (parseLoaderExport digits (transcript pieces ++ tail))) ∧
    (ownLines pieces ++ [endLine files.length] = loaderExport files →
      ∀ text, text <+: transcript pieces ++ endLine files.length → text ≠ transcript pieces ++ endLine files.length →
        Refused (parseLoaderExport digits text)) ∧
    ∀ before after line, Doubled files (ownLines pieces) before after line →
      if (line = exportBegin ∨ line = endLine files.length) ∨ (before ≠ [] ∧ after ≠ []) then
        Refused (parseLoaderExport digits (transcript pieces ++ tail))
      else parseLoaderExport digits (transcript pieces ++ tail) = .ok (files.reverse.map LoadedFile.record) := by
  refine ⟨parse_whole hother htail, parse_lost hother htail, fun hown text => parse_cut hother hown, ?_⟩
  intro before after line h
  by_cases hmarker : line = exportBegin ∨ line = endLine files.length
  · rw [if_pos (.inl hmarker)]
    exact parse_doubled_marker hother htail h hmarker
  obtain ⟨file, rfl⟩ : ∃ file, line = recordLine file := by
    have hmem := h.mem
    unfold loaderExport at hmem
    rcases List.mem_cons.mp hmem with heq | hmem
    · exact absurd (.inl heq) hmarker
    rcases List.mem_append.mp hmem with hmem | hmem
    · obtain ⟨file, -, heq⟩ := List.mem_map.mp hmem
      exact ⟨file, heq.symm⟩
    · exact absurd (.inr (List.mem_singleton.mp hmem)) hmarker
  by_cases hinside : before ≠ [] ∧ after ≠ []
  · rw [if_pos (.inr hinside)]
    exact parse_doubled_record hother htail h hinside.1 hinside.2
  · rw [if_neg (not_or.mpr ⟨hmarker, hinside⟩)]
    refine parse_doubled_outside hother htail h ?_
    by_cases hbefore : before = []
    · exact .inl hbefore
    · exact .inr (not_not.mp fun hafter => hinside ⟨hbefore, hafter⟩)

/-- Digits of ASCII alone. -/
def asciiDigits : UnicodeDigits where
  isDigit := Char.isDigit
  decimal := fun char => if char.isDigit then some (char.toNat - '0'.toNat) else none
  isDigit_ascii := fun _ h => h
  decimal_ascii := fun _ h => if_pos h

/-- A loaded file "a" with the digest of sixteen zeros. -/
def fileA : LoadedFile :=
  ⟨[97], List.replicate 16 0, by decide, rfl⟩

/-- The phrases of the program are echoed between its lines, and the prompt stands at the end. -/
def echoedTranscript : List Piece :=
  [.other "val hol_workbench_hex : string -> string = <fun>".toList, .own exportBegin, .own (recordLine fileA),
    .other [], .own (endLine 1)]

theorem unmarked_prompt : Unmarked "# ".toList := by
  unfold Unmarked
  decide +kernel

theorem echoedTranscript_others : OthersUnmarked echoedTranscript := by
  have hall : ∀ piece ∈ echoedTranscript, ∀ text, piece = .other text → Unmarked text := by
    have hecho : Unmarked "val hol_workbench_hex : string -> string = <fun>".toList := by
      unfold Unmarked
      decide +kernel
    intro piece hmem text heq
    simp only [echoedTranscript, List.mem_cons, List.not_mem_nil, or_false] at hmem
    rcases hmem with rfl | rfl | rfl | rfl | rfl
    · exact Piece.other.inj heq ▸ hecho
    · cases heq
    · cases heq
    · exact Piece.other.inj heq ▸ fun line hline => absurd hline List.not_mem_nil
    · cases heq
  exact fun text hmem => hall _ hmem text rfl

theorem parseLoaderExport_echoed :
    parseLoaderExport asciiDigits (transcript echoedTranscript ++ "# ".toList) = .ok [fileA.record] :=
  (parseLoaderExport_transcript asciiDigits [fileA] echoedTranscript "# ".toList echoedTranscript_others
    unmarked_prompt).1 rfl

/-- A record in front of the begin marker is passed over, so that its line stands twice in what is read. -/
theorem parseLoaderExport_doubled :
    Doubled [fileA] (ownLines [.own (recordLine fileA), .own exportBegin, .own (recordLine fileA), .own (endLine 1)])
        [] (loaderExport [fileA]) (recordLine fileA) ∧
      ¬ Refused (parseLoaderExport asciiDigits
        (transcript [.own (recordLine fileA), .own exportBegin, .own (recordLine fileA), .own (endLine 1)] ++ [])) := by
  have hdoubled : Doubled [fileA]
      (ownLines [.own (recordLine fileA), .own exportBegin, .own (recordLine fileA), .own (endLine 1)])
      [] (loaderExport [fileA]) (recordLine fileA) := ⟨rfl, rfl, by simp [loaderExport]⟩
  have hothers : OthersUnmarked
      [.own (recordLine fileA), .own exportBegin, .own (recordLine fileA), .own (endLine 1)] := by
    intro text hmem
    simp at hmem
  refine ⟨hdoubled, ?_⟩
  rw [parse_doubled_outside hothers (fun line hline => absurd hline List.not_mem_nil) hdoubled (.inl rfl)]
  rintro ⟨failure, h⟩
  cases h

end Hearth.Criu
