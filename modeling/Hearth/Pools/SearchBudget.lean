import Hearth.Diagnostics.Text
import Hearth.Library.Incremental
import Hearth.Library.TextLines
import Hearth.Replay.NaturalOutput
import Mathlib.Data.List.DropRight
import Mathlib.Data.List.Infix

/-!
# The search budget of a proof

`ProofSearchBudgetProgress.scan` looks again and again at a transcript that grows.  It reads on from where it stopped, keeps
the line that is not complete yet, and gives the bindings that were completed since.  The scans together give what one scan
of the whole transcript gives, wherever the transcript is cut between them.
-/

namespace Hearth.Pools

open Hearth.Library
open Hearth.Replay (WordTable isNameStart isNameChar isBoundary)
open Hearth.Diagnostics (decodeReplace)

/-! ## Lines -/

/-- What `ANSI_RE` matches behind an escape character: the number of its characters. -/
def ansiLength (rest : List Char) : Option ℕ :=
  match rest with
  | '[' :: parameters =>
      let intermediates := parameters.dropWhile fun char => '0' ≤ char ∧ char ≤ '?'
      match intermediates.dropWhile fun char => ' ' ≤ char ∧ char ≤ '/' with
      | final :: after => if '@' ≤ final ∧ final ≤ '~' then some (rest.length - after.length) else none
      | [] => none
  | _ => none

/-- `ANSI_RE.sub("", line)`; the first characters belong to the last match. -/
def stripAnsiFrom : ℕ → List Char → List Char
  | _, [] => []
  | skip + 1, _ :: rest => stripAnsiFrom skip rest
  | 0, char :: rest =>
      match if char = '\x1b' then ansiLength rest else none with
      | some length => stripAnsiFrom length rest
      | none => char :: stripAnsiFrom 0 rest

def stripAnsi (line : List Char) : List Char :=
  stripAnsiFrom 0 line

/-- The line without blanks around it and without a prompt. -/
def semanticLine (line : List Char) : List Char :=
  match Text.strip line with
  | '#' :: rest => rest.dropWhile Text.isSpace
  | stripped => stripped

/-- The loader and the path of a marker line.  A line holds no line feed, so the path is all that follows. -/
def literalLoadEvent (marker : String) (line : List Char) : Option (String × List Char) :=
  if marker.toList.isPrefixOf line then
    ["needs", "loadt", "loads"].findSome? fun loader =>
      let event := line.drop marker.length
      let path := event.drop (loader.length + 1)
      if (loader ++ ":").toList.isPrefixOf event ∧ path ≠ [] then some (loader, path) else none
  else none

def literalLoadStartedEvent : List Char → Option (String × List Char) :=
  literalLoadEvent "__PROOF_RUN_LITERAL_LOAD_STARTED__:"

def literalLoadCompletedEvent : List Char → Option (String × List Char) :=
  literalLoadEvent "__PROOF_RUN_LITERAL_LOAD_COMPLETED__:"

/-- `ANONYMOUS_TOP_LEVEL`. -/
def anonymousTopLevel : String := "__anonymous_top_level__"

section

variable (table : WordTable)

/-- `VAL_BINDING_RE`: the longest name that ends at a boundary. -/
def valBinding (line : List Char) : Option (List Char) :=
  if "val ".toList.isPrefixOf line ∧ (line.drop 4).head?.any isNameStart then
    let named := line.drop 4
    (named.takeWhile isNameChar).inits.reverse.find? fun name =>
      name ≠ [] ∧ isBoundary table name.getLast? (named.drop name.length).head?
  else none

/-- `val_binding_name`. -/
def valBindingName (line : List Char) : Option String :=
  match valBinding table line with
  | some name => some (String.ofList name)
  | none =>
      match line with
      | '-' :: rest => if (rest.dropWhile Text.isSpace).head? = some ':' then some anonymousTopLevel else none
      | _ => none

/-- What is read of a line before its events are looked for. -/
def transcriptLine (rawLine : Bytes) : List Char :=
  semanticLine (stripAnsi ((decodeReplace rawLine).toList.rdropWhile (· = '\r')))

/-- One round of the loop over the lines: the depth of literal loads and the bindings that were completed. -/
def scanLine : ℕ × List String → Bytes → ℕ × List String
  | (depth, completed), rawLine =>
      let line := transcriptLine rawLine
      match literalLoadStartedEvent line with
      | some _ => (depth + 1, completed)
      | none =>
          match literalLoadCompletedEvent line with
          | some (loader, path) =>
              (depth - 1, completed ++ [loader ++ " \"" ++ String.ofList path ++ "\""])
          | none =>
              match valBindingName table line with
              | some name => (depth, completed ++ [name])
              | none => (depth, completed)

/-! ## Scans -/

/-- `ProofSearchBudgetProgress`. -/
structure ProofSearchBudgetProgress where
  offset : ℕ := 0
  pending : Bytes := []
  resetCount : ℕ := 0
  lastCompletedBinding : Option String := none
  literalLoadDepth : ℕ := 0
  deriving DecidableEq, Repr

/-- What a scan meets: the transcript when its size is asked for and when it is read, either of which can fail. -/
structure ScanPoll where
  atStat : Bytes
  atRead : Bytes
  statFails : Bool := false
  readFails : Bool := false

/-- The transcript at rest. -/
def ScanPoll.whole (transcript : Bytes) : ScanPoll where
  atStat := transcript
  atRead := transcript

namespace ProofSearchBudgetProgress

/-- `scan`: the bindings that were completed, and what is kept. -/
def scan (progress : ProofSearchBudgetProgress) (poll : ScanPoll) : List String × ProofSearchBudgetProgress :=
  if poll.statFails then ([], progress)
  else
    let size := poll.atStat.length
    let progress := if size < progress.offset then { progress with offset := 0, pending := [] } else progress
    if size = progress.offset then ([], progress)
    else if poll.readFails then ([], progress)
    else
      let chunk := poll.atRead.drop progress.offset
      let (parts, pending) := pieces 10 (progress.pending ++ chunk)
      let (depth, completed) := parts.foldl (scanLine table) (progress.literalLoadDepth, [])
      let resets := if completed = [] then 0 else completed.length
      let last := if completed = [] then progress.lastCompletedBinding else completed.getLast?
      (completed,
        { offset := progress.offset + chunk.length
          pending := pending
          resetCount := progress.resetCount + resets
          lastCompletedBinding := last
          literalLoadDepth := depth })

/-- Scan after scan: all that was completed, and what is kept at the end. -/
def scans (progress : ProofSearchBudgetProgress) : List ScanPoll → List String × ProofSearchBudgetProgress
  | [] => ([], progress)
  | poll :: polls =>
      let (completed, progress) := progress.scan table poll
      let (later, progress) := scans progress polls
      (completed ++ later, progress)

end ProofSearchBudgetProgress

/-- The transcript grows from poll to poll, and within each of them, up to the whole. -/
def Grows (whole : Bytes) : Bytes → List ScanPoll → Prop
  | seen, [] => seen <+: whole
  | seen, poll :: polls => seen <+: poll.atStat ∧ poll.atStat <+: poll.atRead ∧ Grows whole poll.atRead polls

/-! ## The scans are one scan -/

variable {table}

theorem scanLine_append (depth : ℕ) (completed : List String) (rawLine : Bytes) :
    scanLine table (depth, completed) rawLine =
      ((scanLine table (depth, []) rawLine).1, completed ++ (scanLine table (depth, []) rawLine).2) := by
  unfold scanLine
  dsimp only
  split
  · simp
  · split
    · simp
    · split <;> simp

theorem foldl_scanLine_append (depth : ℕ) (completed : List String) (lines : List Bytes) :
    lines.foldl (scanLine table) (depth, completed) =
      ((lines.foldl (scanLine table) (depth, [])).1, completed ++ (lines.foldl (scanLine table) (depth, [])).2) := by
  induction lines generalizing depth completed with
  | nil => simp
  | cons line lines ih =>
      rw [List.foldl_cons, List.foldl_cons, scanLine_append]
      rw [ih, ih _ (scanLine table (depth, []) line).2, List.append_assoc]

variable (table)

/-- The depth of literal loads behind the complete lines of a transcript, and the bindings completed in them. -/
def accounts (transcript : Bytes) : ℕ × List String :=
  (pieces 10 transcript).1.foldl (scanLine table) (0, [])

/-- What is kept of a transcript that was read up to here. -/
def ProofSearchBudgetProgress.behind (transcript : Bytes) : ProofSearchBudgetProgress where
  offset := transcript.length
  pending := (pieces 10 transcript).2
  resetCount := (accounts table transcript).2.length
  lastCompletedBinding := (accounts table transcript).2.getLast?
  literalLoadDepth := (accounts table transcript).1

variable {table}

variable (table) in
theorem accounts_append (transcript chunk : Bytes) :
    accounts table (transcript ++ chunk) =
      let later := (pieces 10 ((pieces 10 transcript).2 ++ chunk)).1.foldl (scanLine table) ((accounts table transcript).1, [])
      (later.1, (accounts table transcript).2 ++ later.2) := by
  unfold accounts
  rw [pieces_append, List.foldl_append, foldl_scanLine_append]

namespace ProofSearchBudgetProgress

variable (table) in
/-- What a scan does behind the part of the transcript that was read before: it reads more of it, or nothing. -/
structure Reads (seen : Bytes) (poll : ScanPoll) (now : Bytes) : Prop where
  before : seen <+: now
  within : now <+: poll.atRead
  completed : (accounts table now).2 = (accounts table seen).2 ++ ((behind table seen).scan table poll).1
  kept : ((behind table seen).scan table poll).2 = behind table now

theorem scan_idle (seen : Bytes) (poll : ScanPoll) (within : seen <+: poll.atRead)
    (h : (behind table seen).scan table poll = ([], behind table seen)) : Reads table seen poll seen := by
  constructor
  · exact List.prefix_rfl
  · exact within
  · rw [h, List.append_nil]
  · rw [h]

variable (table) in
/-- A scan reads what the transcript has become, unless it cannot. -/
theorem exists_reads {seen : Bytes} {poll : ScanPoll} (hstat : seen <+: poll.atStat)
    (hread : poll.atStat <+: poll.atRead) :
    ∃ now, Reads table seen poll now ∧
      (poll.statFails = false → poll.readFails = false → poll.atStat <+: now) := by
  have hwithin := hstat.trans hread
  have hsize : ¬ poll.atStat.length < (behind table seen).offset := Nat.not_lt.mpr hstat.length_le
  by_cases hstatFails : poll.statFails = true
  · refine ⟨seen, scan_idle seen poll hwithin ?_, fun hok => absurd hstatFails (by simp [hok])⟩
    rw [scan, if_pos hstatFails]
  by_cases hsame : poll.atStat.length = (behind table seen).offset
  · refine ⟨seen, scan_idle seen poll hwithin ?_, fun _ _ => ?_⟩
    · rw [scan, if_neg hstatFails]
      dsimp only
      rw [if_neg hsize, if_pos hsame]
    · rw [hstat.eq_of_length hsame.symm]
  by_cases hreadFails : poll.readFails = true
  · refine ⟨seen, scan_idle seen poll hwithin ?_, fun _ hok => absurd hreadFails (by simp [hok])⟩
    rw [scan, if_neg hstatFails]
    dsimp only
    rw [if_neg hsize, if_neg hsame, if_pos hreadFails]
  -- what is read is all that stands behind the offset
  obtain ⟨chunk, hchunk⟩ := hwithin
  have hdrop : poll.atRead.drop (behind table seen).offset = chunk := by
    rw [← hchunk]
    exact List.drop_left
  have haccounts := accounts_append table seen chunk
  have hpieces := pieces_append 10 seen chunk
  refine ⟨seen ++ chunk, ?_, fun _ _ => hchunk ▸ hread⟩
  have hscan : (behind table seen).scan table poll =
      (((pieces 10 ((pieces 10 seen).2 ++ chunk)).1.foldl (scanLine table) ((accounts table seen).1, [])).2,
        behind table (seen ++ chunk)) := by
    rw [scan, if_neg hstatFails]
    dsimp only
    rw [if_neg hsize, if_neg hsame, if_neg hreadFails, hdrop]
    unfold behind
    rw [haccounts, hpieces]
    dsimp only
    generalize (pieces 10 ((pieces 10 seen).2 ++ chunk)).1.foldl (scanLine table) ((accounts table seen).1, []) = later
    cases hlater : later.2 with
    | nil => simp
    | cons first others => simp [List.getLast?_append, List.getLast?_cons]
  constructor
  · exact List.prefix_append seen chunk
  · exact hchunk ▸ List.prefix_rfl
  · rw [hscan, haccounts]
  · rw [hscan]

theorem scans_cons (progress : ProofSearchBudgetProgress) (poll : ScanPoll) (polls : List ScanPoll) :
    progress.scans table (poll :: polls) =
      ((progress.scan table poll).1 ++ ((progress.scan table poll).2.scans table polls).1,
        ((progress.scan table poll).2.scans table polls).2) := rfl

theorem scans_singleton (progress : ProofSearchBudgetProgress) (poll : ScanPoll) :
    progress.scans table [poll] = progress.scan table poll := by
  rw [scans_cons]
  exact Prod.ext (List.append_nil _) rfl

variable (table) in
/-- The scans of a growing transcript read a part of it. -/
theorem exists_reads_scans {whole seen read : Bytes} {polls : List ScanPoll} (hgrows : Grows whole seen polls)
    (hread : read <+: seen) :
    ∃ now, read <+: now ∧ now <+: whole ∧
      (accounts table now).2 = (accounts table read).2 ++ ((behind table read).scans table polls).1 ∧
        ((behind table read).scans table polls).2 = behind table now := by
  induction polls generalizing seen read with
  | nil => exact ⟨read, List.prefix_rfl, hread.trans hgrows, (List.append_nil _).symm, rfl⟩
  | cons poll polls ih =>
      obtain ⟨hstat, hpoll, hlater⟩ := hgrows
      obtain ⟨middle, hmiddle, -⟩ := exists_reads table (hread.trans hstat) hpoll
      obtain ⟨now, hbefore, hwhole, hcompleted, hkept⟩ := ih hlater hmiddle.within
      refine ⟨now, hmiddle.before.trans hbefore, hwhole, ?_, ?_⟩
      · rw [hcompleted, hmiddle.completed, List.append_assoc, scans_cons, hmiddle.kept]
      · rw [scans_cons, hmiddle.kept]
        exact hkept

theorem scans_append (progress : ProofSearchBudgetProgress) (polls later : List ScanPoll) :
    progress.scans table (polls ++ later) =
      let first := progress.scans table polls
      let second := first.2.scans table later
      (first.1 ++ second.1, second.2) := by
  induction polls generalizing progress with
  | nil => rfl
  | cons poll polls ih =>
      rw [List.cons_append, scans_cons, scans_cons, ih]
      dsimp only
      rw [List.append_assoc]

theorem behind_nil : behind table [] = {} := rfl

variable (table) in
/-- One scan of a transcript at rest reads all of it. -/
theorem scan_whole {seen whole : Bytes} (h : seen <+: whole) :
    (accounts table whole).2 = (accounts table seen).2 ++ ((behind table seen).scan table (.whole whole)).1 ∧
      ((behind table seen).scan table (.whole whole)).2 = behind table whole := by
  obtain ⟨now, hreads, hall⟩ :=
    exists_reads table (show seen <+: (ScanPoll.whole whole).atStat from h) List.prefix_rfl
  obtain rfl : now = whole := hreads.within.eq_of_length_le (hall rfl rfl).length_le
  exact ⟨hreads.completed, hreads.kept⟩

/-- **However a transcript grows, its scans give what one scan of the whole gives.**  The last of them finds it complete. -/
theorem scans_eq_scan {whole : Bytes} {polls : List ScanPoll} (hgrows : Grows whole [] polls) :
    ({} : ProofSearchBudgetProgress).scans table (polls ++ [.whole whole]) =
      ({} : ProofSearchBudgetProgress).scan table (.whole whole) := by
  obtain ⟨read, -, hwhole, hcompleted, hkept⟩ := exists_reads_scans table hgrows List.prefix_rfl
  obtain ⟨hlast, hend⟩ := scan_whole table hwhole
  obtain ⟨hone, hbehind⟩ := scan_whole table (show [] <+: whole from List.nil_prefix)
  rw [behind_nil] at hcompleted hkept hone hbehind
  have hnil : (accounts table []).2 = [] := rfl
  rw [hnil, List.nil_append] at hcompleted hone
  rw [scans_append]
  dsimp only
  rw [hkept, scans_singleton]
  refine Prod.ext ?_ ?_
  · rw [← hcompleted, ← hlast, hone]
  · exact hend.trans hbehind.symm

/-- A transcript that a scan cuts in a line, and the next in a character. -/
def sampleTranscript : Bytes :=
  utf8 "val n : \u2115 = 1\nval t' : thm\n"

def sampleGrowth : List ScanPoll :=
  [⟨sampleTranscript.take 5, sampleTranscript.take 6, false, false⟩,
    ⟨sampleTranscript.take 9, sampleTranscript.take 10, false, true⟩,
    ⟨sampleTranscript.take 10, sampleTranscript.take 17, false, false⟩]

/-- The sample cut twice. -/
theorem scans_of_sample :
    ({} : ProofSearchBudgetProgress).scans .asciiOnly (sampleGrowth ++ [.whole sampleTranscript]) =
        ({} : ProofSearchBudgetProgress).scan .asciiOnly (.whole sampleTranscript) ∧
      (({} : ProofSearchBudgetProgress).scan .asciiOnly (.whole sampleTranscript)).1 = ["n", "t"] := by
  have hgrows : Grows sampleTranscript [] sampleGrowth := by
    refine ⟨?_, ?_, ?_, ?_, ?_, ?_, List.take_prefix 17 _⟩ <;> decide
  exact ⟨scans_eq_scan hgrows, by decide +kernel⟩

end ProofSearchBudgetProgress

end

end Hearth.Pools
