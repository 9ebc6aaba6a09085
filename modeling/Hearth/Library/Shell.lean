import Mathlib.Data.List.TakeWhile

/-!
# A fragment of the shell

Comment lines, assignments, `set`, `cd`, `export`, and `exec` with a here-document whose delimiter is quoted.  Words
are put together from safe characters, single quotes and double quotes with variables.  A script that leaves this
fragment, or a `cd` that fails under `set -e`, starts nothing.

`quote` is `shlex.quote`: a text that it has quoted is read back as it was, whatever stands behind it.
-/

namespace Hearth.Library.Shell

/-- What the shell reads: it drops the NUL characters of a script. -/
def clean (text : List Char) : List Char :=
  text.filter (· ≠ '\x00')

def isNameChar (char : Char) : Bool :=
  char.isAlphanum || char == '_'

/-- The characters that mean themselves wherever they stand in a word. -/
def isSafe (char : Char) : Bool :=
  isNameChar char || ['@', '%', '+', '=', ':', ',', '.', '/', '-'].contains char

/-- One character between single quotes; an apostrophe leaves them for double quotes. -/
def quoteChar (char : Char) : List Char :=
  if char = '\x27' then ['\x27', '\x22', '\x27', '\x22', '\x27'] else [char]

/-- `shlex.quote(text)`. -/
def quote (text : List Char) : List Char :=
  if text = [] then ['\x27', '\x27']
  else if text.all isSafe then text
  else '\x27' :: (text.flatMap quoteChar ++ ['\x27'])

/-! ## Reading a line -/

inductive Token
  | word (text : List Char)
  /-- `<<`, with a quoted delimiter behind it -/
  | here
  deriving DecidableEq

/-- Where the reader stands: between two words, in a word without quotes or with them, or behind a dollar sign, with
the name so far in reverse order. -/
inductive Place
  | between | bare | single | double
  | variable (name : List Char)

/-- The rest of the open word, the tokens behind it and the text behind the line. -/
structure Line where
  word : List Char
  tokens : List Token
  rest : List Char

namespace Line

/-- More text in front of the open word. -/
def push (text : List Char) (line : Line) : Line :=
  { line with word := text ++ line.word }

/-- The open word becomes the first token. -/
def close (line : Line) : Line :=
  ⟨[], .word line.word :: line.tokens, line.rest⟩

/-- A here-document in front of the open word. -/
def here (line : Line) : Line :=
  ⟨[], .here :: .word line.word :: line.tokens, line.rest⟩

@[simp] theorem push_nil (line : Line) : line.push [] = line := rfl

@[simp] theorem push_push (text more : List Char) (line : Line) :
    (line.push more).push text = line.push (text ++ more) := by
  simp [push]

end Line

section Reading

variable (value : List Char → Option (List Char))

/-- The line from a place on. -/
def readLine : Place → List Char → Option Line
  | .between, [] => some ⟨[], [], []⟩
  | .between, '\n' :: rest => some ⟨[], [], rest⟩
  | .between, '<' :: '<' :: '\x27' :: rest => (readLine .single rest).map Line.here
  | .between, char :: rest =>
      if char = ' ' then readLine .between rest
      else if char = '\x27' then (readLine .single rest).map Line.close
      else if char = '\x22' then (readLine .double rest).map Line.close
      else if isSafe char then (readLine .bare rest).map (Line.close ∘ Line.push [char])
      else none
  | .bare, [] => some ⟨[], [], []⟩
  | .bare, '\n' :: rest => some ⟨[], [], rest⟩
  | .bare, char :: rest =>
      if char = ' ' then readLine .between rest
      else if char = '\x27' then readLine .single rest
      else if char = '\x22' then readLine .double rest
      else if isSafe char then (readLine .bare rest).map (Line.push [char])
      else none
  | .single, [] => none
  | .single, char :: rest =>
      if char = '\x27' then readLine .bare rest
      else (readLine .single rest).map (Line.push [char])
  | .double, [] => none
  | .double, char :: rest =>
      if char = '\x22' then readLine .bare rest
      else if char = '$' then readLine (.variable []) rest
      else if char = '\\' || char = '\x60' then none
      else (readLine .double rest).map (Line.push [char])
  | .variable _, [] => none
  | .variable name, char :: rest =>
      if isNameChar char then readLine (.variable (char :: name)) rest
      else
        match value name.reverse with
        | none => none
        | some found =>
            if char = '\x22' then (readLine .bare rest).map (Line.push found)
            else if char = '$' || char = '\\' || char = '\x60' then none
            else (readLine .double rest).map (Line.push (found ++ [char]))

attribute [grind =] readLine

end Reading

/-! ## Running a script -/

/-- The working directory and the variables, the latest assignment first, with the names that are exported. -/
structure State where
  directory : List Char
  bindings : List (List Char × List Char)
  exported : List (List Char)

namespace State

def value (state : State) (name : List Char) : Option (List Char) :=
  state.bindings.lookup name

def assign (state : State) (name text : List Char) : State :=
  { state with bindings := (name, text) :: state.bindings }

def exporting (state : State) (name : List Char) : State :=
  { state with exported := name :: state.exported }

/-- What a program that is started finds under a name. -/
def environment (state : State) (name : List Char) : Option (List Char) :=
  if name ∈ state.exported then state.value name else none

end State

/-- The name and the text of an assignment. -/
def assignment (text : List Char) : Option (List Char × List Char) :=
  match text.dropWhile isNameChar with
  | '=' :: rest => some (text.takeWhile isNameChar, rest)
  | _ => none

/-- The text of these lines. -/
def joined (lines : List (List Char)) : List Char :=
  lines.flatMap (· ++ ['\n'])

/-- The text in front of the line that is the delimiter. -/
def hereDocument (delimiter text : List Char) : Option (List Char) :=
  let lines := text.splitOn '\n'
  if delimiter ∈ lines then some (joined (lines.takeWhile (· ≠ delimiter))) else none

/-- A program that takes the place of the shell. -/
structure Launch where
  program : List Char
  state : State
  input : List Char

section Running

variable (enters : List Char → Bool)

/-- A command that the shell carries out itself. -/
def perform (state : State) : List Token → Option State
  | [.word first] => (assignment first).map fun row => state.assign row.1 row.2
  | [.word first, .word second] =>
      if first = ['c', 'd'] then
        if enters second then some { state with directory := second } else none
      else if first = ['e', 'x', 'p', 'o', 'r', 't'] then
        (assignment second).map fun row => (state.assign row.1 row.2).exporting row.1
      else none
  | .word first :: _ => if first = ['s', 'e', 't'] then some state else none
  | _ => none

/-- The program that a script starts, if it reads at most that many lines and commands before it. -/
def run : ℕ → State → List Char → Option Launch
  | 0, _, _ => none
  | _ + 1, _, [] => none
  | count + 1, state, char :: rest =>
      if char = '\n' then run count state rest
      else if char = '#' then run count state (rest.dropWhile (· ≠ '\n'))
      else
        match readLine state.value .between (char :: rest) with
        | none => none
        | some ⟨_, [.word ['e', 'x', 'e', 'c'], .word program, .here, .word delimiter], rest⟩ =>
            (hereDocument delimiter rest).map (Launch.mk program state)
        | some ⟨_, tokens, rest⟩ => (perform enters state tokens).bind fun state => run count state rest

/-- What a script starts; every step of the shell reads a character of it. -/
def start (state : State) (script : List Char) : Option Launch :=
  run enters script.length state (clean script)

end Running

/-! ## Quoted text -/

theorem clean_append (text rest : List Char) : clean (text ++ rest) = clean text ++ clean rest :=
  List.filter_append ..

theorem clean_eq_self {text : List Char} (h : '\x00' ∉ text) : clean text = text := by
  apply List.filter_eq_self.mpr
  intro char hmem
  exact decide_eq_true fun heq => h (heq ▸ hmem)

theorem not_mem_clean (text : List Char) : '\x00' ∉ clean text := by
  intro hmem
  exact of_decide_eq_true (List.mem_filter.mp hmem).2 rfl

theorem not_feed_of_all {text : List Char} (h : text.all (· ≠ '\n') = true) : '\n' ∉ text := by
  intro hmem
  exact of_decide_eq_true (List.all_eq_true.mp h _ hmem) rfl

theorem clean_flatMap_quoteChar (text : List Char) :
    clean (text.flatMap quoteChar) = (clean text).flatMap quoteChar := by
  induction text with
  | nil => rfl
  | cons char text ih =>
      rw [List.flatMap_cons, clean_append, ih]
      by_cases hnul : char = '\x00'
      · subst hnul
        rfl
      · have hkeep : clean (char :: text) = char :: clean text := List.filter_cons_of_pos (decide_eq_true hnul)
        have hquoted : clean (quoteChar char) = quoteChar char := by
          apply clean_eq_self
          unfold quoteChar
          split
          · decide
          · simpa using fun heq => hnul heq.symm
        rw [hkeep, List.flatMap_cons, hquoted]

section

variable (value : List Char → Option (List Char))

theorem readLine_bare {char : Char} (h : isSafe char = true) (rest : List Char) :
    readLine value .bare (char :: rest) = (readLine value .bare rest).map (Line.push [char]) := by
  rw [readLine]
  · rw [if_neg, if_neg, if_neg, if_pos h]
    all_goals
      rintro rfl
      cases h
  · rintro rfl
    cases h

/-- A word starts with a character that is neither blank nor an operator. -/
theorem readLine_start {char : Char} (h : ¬ (char = ' ' ∨ char = '\n' ∨ char = '<')) (rest : List Char) :
    readLine value .between (char :: rest) = (readLine value .bare (char :: rest)).map Line.close := by
  rw [not_or, not_or] at h
  obtain ⟨hblank, hfeed, hoperator⟩ := h
  rw [readLine, readLine]
  · rw [if_neg hblank, if_neg hblank]
    split
    · rfl
    · split
      · rfl
      · split
        · rw [Option.map_map]
        · rfl
  · exact fun heq => hfeed heq
  · exact fun heq => hfeed heq
  · exact fun _ heq => absurd heq hoperator

theorem readLine_blank (rest : List Char) : readLine value .bare (' ' :: rest) = readLine value .between rest := by
  rw [readLine]
  · exact if_pos rfl
  · nofun

/-- Safe text in a word stands for itself. -/
theorem readLine_safe {text : List Char} (h : text.all isSafe = true) (rest : List Char) :
    readLine value .bare (text ++ rest) = (readLine value .bare rest).map (Line.push text) := by
  induction text with
  | nil =>
      show readLine value .bare rest = _
      cases readLine value .bare rest <;> rfl
  | cons char text ih =>
      rw [List.all_cons, Bool.and_eq_true] at h
      rw [List.cons_append, readLine_bare value h.1, ih h.2, Option.map_map]
      rfl

/-- Text between single quotes stands for itself, its apostrophes included. -/
theorem readLine_single (text rest : List Char) :
    readLine value .single (text.flatMap quoteChar ++ '\x27' :: rest) =
      (readLine value .bare rest).map (Line.push text) := by
  induction text with
  | nil =>
      show readLine value .bare rest = _
      cases readLine value .bare rest <;> rfl
  | cons char text ih =>
      have hone : readLine value .single (quoteChar char ++ (text.flatMap quoteChar ++ '\x27' :: rest)) =
          (readLine value .single (text.flatMap quoteChar ++ '\x27' :: rest)).map (Line.push [char]) := by
        unfold quoteChar
        split
        · next heq =>
            subst heq
            rfl
        · next hne => exact if_neg hne
      rw [List.flatMap_cons, List.append_assoc, hone, ih, Option.map_map]
      rfl

/-- What `quote` has quoted is read back, whatever stands behind it. -/
theorem readLine_quote (text rest : List Char) :
    readLine value .bare (clean (quote text) ++ rest) =
      (readLine value .bare rest).map (Line.push (clean text)) := by
  unfold quote
  split
  · next hnil =>
      subst hnil
      exact readLine_single value [] rest
  · split
    · next hsafe =>
        have hnul : '\x00' ∉ text := by
          intro hmem
          cases List.all_eq_true.mp hsafe _ hmem
        rw [clean_eq_self hnul]
        exact readLine_safe value hsafe rest
    · have hquoted : clean ('\x27' :: (text.flatMap quoteChar ++ ['\x27'])) ++ rest =
          '\x27' :: ((clean text).flatMap quoteChar ++ '\x27' :: rest) := by
        have hcons : clean ('\x27' :: (text.flatMap quoteChar ++ ['\x27'])) =
            '\x27' :: clean (text.flatMap quoteChar ++ ['\x27']) := rfl
        rw [hcons, clean_append, clean_flatMap_quoteChar, List.cons_append, List.append_assoc]
        rfl
      rw [hquoted]
      exact readLine_single value (clean text) rest

/-- Quoted text makes a word of its own. -/
theorem readLine_between_quote (text rest : List Char) :
    readLine value .between (clean (quote text) ++ rest) =
      (readLine value .bare rest).map fun line => (line.push (clean text)).close := by
  have hstart : readLine value .between (clean (quote text) ++ rest) =
      (readLine value .bare (clean (quote text) ++ rest)).map Line.close := by
    unfold quote
    split
    · exact readLine_start value (by decide) _
    · next hne =>
        split
        · next hsafe =>
            obtain ⟨char, more, rfl⟩ := List.exists_cons_of_ne_nil hne
            have hchar : isSafe char = true := List.all_eq_true.mp hsafe char List.mem_cons_self
            have hnul : '\x00' ∉ char :: more := by
              intro hmem
              cases List.all_eq_true.mp hsafe _ hmem
            rw [clean_eq_self hnul]
            apply readLine_start
            rintro (rfl | rfl | rfl) <;> cases hchar
        · exact readLine_start value (by decide) _
  rw [hstart, readLine_quote, Option.map_map]
  rfl

/-- A safe word. -/
theorem readLine_between_safe {char : Char} {text : List Char} (h : (char :: text).all isSafe = true)
    (rest : List Char) :
    readLine value .between (char :: text ++ rest) =
      (readLine value .bare rest).map fun line => (line.push (char :: text)).close := by
  have hchar : isSafe char = true := List.all_eq_true.mp h char List.mem_cons_self
  rw [List.cons_append, readLine_start, ← List.cons_append, readLine_safe value h, Option.map_map]
  · rfl
  · rintro (rfl | rfl | rfl) <;> cases hchar

/-- A safe word with another word behind it. -/
theorem readLine_command (char : Char) (text : List Char) (h : (char :: text).all isSafe = true)
    (rest : List Char) :
    readLine value .between (char :: text ++ ' ' :: rest) =
      (readLine value .between rest).map fun line => (line.push (char :: text)).close := by
  rw [readLine_between_safe value h, readLine_blank]

/-- A name behind a dollar sign, up to a character that is no part of it. -/
theorem readLine_variable {name acc found : List Char} {char : Char} (hname : name.all isNameChar = true)
    (hfound : value (acc.reverse ++ name) = some found) (hsafe : isSafe char = true)
    (hchar : isNameChar char = false) (rest : List Char) :
    readLine value (.variable acc) (name ++ char :: rest) =
      (readLine value .double rest).map (Line.push (found ++ [char])) := by
  induction name generalizing acc with
  | nil =>
      rw [List.append_nil] at hfound
      rw [List.nil_append, readLine, hchar, if_neg (by decide), hfound]
      show (if char = '\x22' then _ else _) = _
      rw [if_neg, if_neg]
      · intro h
        rw [Bool.or_eq_true, Bool.or_eq_true, decide_eq_true_eq, decide_eq_true_eq, decide_eq_true_eq] at h
        rcases h with (rfl | rfl) | rfl <;> cases hsafe
      · rintro rfl
        cases hsafe
  | cons first name ih =>
      rw [List.all_cons, Bool.and_eq_true] at hname
      rw [List.cons_append, readLine, if_pos hname.1]
      exact ih hname.2 (by rwa [List.reverse_cons, List.append_assoc])

theorem readLine_double_safe {text : List Char} (h : text.all isSafe = true) (rest : List Char) :
    readLine value .double (text ++ rest) = (readLine value .double rest).map (Line.push text) := by
  induction text with
  | nil =>
      show readLine value .double rest = _
      cases readLine value .double rest <;> rfl
  | cons char text ih =>
      rw [List.all_cons, Bool.and_eq_true] at h
      have hone : readLine value .double (char :: (text ++ rest)) =
          (readLine value .double (text ++ rest)).map (Line.push [char]) := by
        have hsafe := h.1
        rw [readLine, if_neg, if_neg, if_neg]
        · intro heq
          rw [Bool.or_eq_true, decide_eq_true_eq, decide_eq_true_eq] at heq
          rcases heq with rfl | rfl <;> cases hsafe
        · rintro rfl
          cases hsafe
        · rintro rfl
          cases hsafe
      rw [List.cons_append, hone, ih h.2, Option.map_map]
      rfl

/-- Text in single quotes that holds no apostrophe. -/
theorem readLine_single_plain {text : List Char} (h : '\x27' ∉ text) (rest : List Char) :
    readLine value .single (text ++ '\x27' :: rest) = (readLine value .bare rest).map (Line.push text) := by
  have hquote : text.flatMap quoteChar = text := by
    induction text with
    | nil => rfl
    | cons char text ih =>
        rw [List.mem_cons, not_or] at h
        rw [List.flatMap_cons, ih h.2, quoteChar, if_neg fun heq => h.1 heq.symm]
        rfl
  rw [← readLine_single value text rest, hquote]

end

/-! ## Lines -/

theorem joined_cons (line : List Char) (lines : List (List Char)) :
    joined (line :: lines) = line ++ '\n' :: joined lines := by
  rw [joined, List.flatMap_cons, List.append_assoc]
  rfl

theorem joined_append (lines more : List (List Char)) : joined (lines ++ more) = joined lines ++ joined more :=
  List.flatMap_append

theorem clean_joined (lines : List (List Char)) : clean (joined lines) = joined (lines.map clean) := by
  induction lines with
  | nil => rfl
  | cons line lines ih =>
      rw [joined_cons, clean_append, List.map_cons, joined_cons]
      exact congrArg (fun rest => clean line ++ '\n' :: rest) ih

theorem joined_eq_intercalate {lines : List (List Char)} (h : lines ≠ []) :
    joined lines = ['\n'].intercalate lines ++ ['\n'] := by
  induction lines with
  | nil => exact absurd rfl h
  | cons line lines ih =>
      cases lines with
      | nil => rw [joined_cons, List.intercalate_singleton]; rfl
      | cons next lines =>
          rw [joined_cons, ih (List.cons_ne_nil _ _), List.intercalate_cons_cons]
          simp

/-- A text whose last line is empty is the text of the lines before. -/
theorem intercalate_concat_nil (lines : List (List Char)) :
    ['\n'].intercalate (lines ++ [[]]) = joined lines := by
  induction lines with
  | nil => rfl
  | cons line lines ih =>
      obtain ⟨next, more, hnext⟩ := List.exists_cons_of_ne_nil (List.append_ne_nil_of_right_ne_nil lines
        (List.cons_ne_nil ([] : List Char) []))
      rw [List.cons_append, hnext, List.intercalate_cons_cons, ← hnext, ih, joined_cons]
      simp

theorem splitOn_joined (lines : List (List Char)) :
    (joined lines).splitOn '\n' = lines.flatMap (·.splitOn '\n') ++ [[]] := by
  induction lines with
  | nil => rfl
  | cons line lines ih =>
      rw [joined_cons, List.splitOn_append_cons_self, ih, List.flatMap_cons, List.append_assoc]

/-- Lines that hold line feeds are several lines. -/
theorem joined_splitOn (lines : List (List Char)) : joined (lines.flatMap (·.splitOn '\n')) = joined lines := by
  induction lines with
  | nil => rfl
  | cons line lines ih =>
      rw [List.flatMap_cons, joined_append, ih, joined_eq_intercalate (List.splitOn_ne_nil '\n' line),
        List.intercalate_splitOn, joined_cons, List.append_assoc]
      rfl

theorem length_joined (lines : List (List Char)) : lines.length ≤ (joined lines).length := by
  induction lines with
  | nil => exact Nat.le_refl 0
  | cons line lines ih =>
      rw [joined_cons, List.length_append, List.length_cons, List.length_cons]
      omega

theorem length_joined_comments (texts : List (List Char)) :
    2 * texts.length ≤ (joined (texts.map ('#' :: ·))).length := by
  induction texts with
  | nil => exact Nat.le_refl 0
  | cons text texts ih =>
      rw [List.map_cons, joined_cons, List.length_append, List.length_cons, List.length_cons, List.length_cons]
      omega

/-- The delimiter behind the lines ends the document there or before. -/
theorem hereDocument_joined {delimiter : List Char} (h : '\n' ∉ delimiter) (lines : List (List Char)) :
    hereDocument delimiter (joined (lines ++ [delimiter])) =
      some (joined ((lines.flatMap (·.splitOn '\n')).takeWhile (· ≠ delimiter))) := by
  have hsplit : (joined (lines ++ [delimiter])).splitOn '\n' =
      lines.flatMap (·.splitOn '\n') ++ (delimiter :: [[]]) := by
    rw [splitOn_joined, List.flatMap_append, List.flatMap_singleton, List.splitOn_eq_singleton h, List.append_assoc]
    rfl
  unfold hereDocument
  rw [hsplit]
  show (if delimiter ∈ _ then some (joined _) else none) = _
  rw [if_pos (List.mem_append_right _ List.mem_cons_self), List.takeWhile_append]
  split
  · next hall =>
      rw [List.takeWhile_cons_of_neg (by simp), List.append_nil,
        (List.takeWhile_prefix (· ≠ delimiter)).eq_of_length hall]
  · rfl

/-- The document is the lines when no line of theirs is the delimiter, and only then. -/
theorem joined_takeWhile_eq_iff (delimiter : List Char) (lines : List (List Char)) :
    joined ((lines.flatMap (·.splitOn '\n')).takeWhile (· ≠ delimiter)) = joined lines ↔
      delimiter ∉ lines.flatMap (·.splitOn '\n') := by
  rw [← joined_splitOn lines]
  generalize lines.flatMap (·.splitOn '\n') = pieces
  constructor
  · intro heq hmem
    have hrest : joined (pieces.dropWhile (· ≠ delimiter)) = [] := by
      have happend := joined_append (pieces.takeWhile (· ≠ delimiter)) (pieces.dropWhile (· ≠ delimiter))
      rw [List.takeWhile_append_dropWhile, heq] at happend
      exact List.append_right_eq_self.mp happend.symm
    have hnil : pieces.dropWhile (· ≠ delimiter) = [] := by
      have hlength := length_joined (pieces.dropWhile (· ≠ delimiter))
      rw [hrest] at hlength
      exact List.length_eq_zero_iff.mp (Nat.le_zero.mp hlength)
    exact of_decide_eq_true (List.dropWhile_eq_nil_iff.mp hnil delimiter hmem) rfl
  · intro hmem
    rw [List.takeWhile_eq_self_iff.mpr]
    intro piece hpiece
    exact decide_eq_true fun heq => hmem (heq ▸ hpiece)

/-! ## The lines of a script -/

section

variable (enters : List Char → Bool)

/-- A comment reaches up to the next line feed. -/
theorem run_comment (count : ℕ) (state : State) {text : List Char} (h : '\n' ∉ text) (rest : List Char) :
    run enters (count + 2) state ('#' :: (text ++ '\n' :: rest)) = run enters count state rest := by
  have hdrop : (text ++ '\n' :: rest).dropWhile (· ≠ '\n') = '\n' :: rest := by
    rw [List.dropWhile_append_of_pos]
    · rfl
    · intro char hmem
      exact decide_eq_true fun heq => h (heq ▸ hmem)
  show run enters (count + 1) state ((text ++ '\n' :: rest).dropWhile (· ≠ '\n')) = _
  rw [hdrop]
  rfl

theorem run_comments (count : ℕ) (state : State) {texts : List (List Char)} (h : ∀ text ∈ texts, '\n' ∉ text)
    (rest : List Char) :
    run enters (count + 2 * texts.length) state (joined (texts.map ('#' :: ·)) ++ rest) =
      run enters count state rest := by
  induction texts with
  | nil => rfl
  | cons text texts ih =>
      have hone := run_comment enters (count + 2 * texts.length) state (h text List.mem_cons_self)
        (joined (texts.map ('#' :: ·)) ++ rest)
      rw [ih fun other hmem => h other (List.mem_cons_of_mem _ hmem)] at hone
      rw [List.map_cons, joined_cons, List.append_assoc, List.length_cons, Nat.mul_succ, ← Nat.add_assoc]
      exact hone

/-- A command that the shell carries out itself. -/
theorem run_perform {count : ℕ} {state next : State} {char : Char} {text word after : List Char}
    {tokens : List Token} (hchar : ¬ (char = '\n' ∨ char = '#'))
    (hline : readLine state.value .between (char :: text) = some ⟨word, tokens, after⟩)
    (h : perform enters state tokens = some next) :
    run enters (count + 1) state (char :: text) = run enters count next after := by
  rw [not_or] at hchar
  rw [run, if_neg hchar.1, if_neg hchar.2, hline]
  split
  · next heq => cases heq
  · next heq =>
      cases heq
      exact absurd h (by simp [perform])
  · next heq =>
      cases heq
      rw [h]
      rfl

theorem assignment_eq {name : List Char} (h : name.all isNameChar = true) (text : List Char) :
    assignment (name ++ '=' :: text) = some (name, text) := by
  have hname : ∀ char ∈ name, isNameChar char = true := List.all_eq_true.mp h
  unfold assignment
  rw [List.dropWhile_append_of_pos hname, List.takeWhile_append_of_pos hname]
  show some (name ++ [], text) = _
  rw [List.append_nil]

theorem not_blank_of_isNameChar {char : Char} (h : isNameChar char = true) : ¬ (char = '\n' ∨ char = '#') := by
  rintro (rfl | rfl) <;> cases h

theorem isSafe_of_isNameChar {name : List Char} (h : name.all isNameChar = true) :
    (name ++ ['=']).all isSafe = true := by
  rw [List.all_append, Bool.and_eq_true, List.all_eq_true]
  refine ⟨fun char hmem => ?_, rfl⟩
  rw [isSafe, List.all_eq_true.mp h char hmem]
  rfl

/-- The word of an assignment of a quoted text. -/
theorem readLine_assign (value : List Char → Option (List Char)) {char : Char} {name : List Char}
    (hname : (char :: name).all isNameChar = true) (text rest : List Char) :
    readLine value .between (char :: name ++ '=' :: (clean (quote text) ++ '\n' :: rest)) =
      some ⟨[], [.word (char :: name ++ '=' :: clean text)], rest⟩ := by
  have hsafe : (char :: (name ++ ['='])).all isSafe = true := isSafe_of_isNameChar hname
  calc readLine value .between (char :: name ++ '=' :: (clean (quote text) ++ '\n' :: rest))
      = readLine value .between (char :: (name ++ ['=']) ++ (clean (quote text) ++ '\n' :: rest)) := by simp
    _ = some ⟨[], [.word (char :: (name ++ ['=']) ++ (clean text ++ []))], rest⟩ := by
        rw [readLine_between_safe value hsafe, readLine_quote]
        rfl
    _ = some ⟨[], [.word (char :: name ++ '=' :: clean text)], rest⟩ := by simp

/-- An assignment of a quoted text. -/
theorem run_assign (count : ℕ) (state : State) (char : Char) (name : List Char)
    (hname : (char :: name).all isNameChar = true) (text rest : List Char) :
    run enters (count + 1) state (char :: name ++ '=' :: (clean (quote text) ++ '\n' :: rest)) =
      run enters count (state.assign (char :: name) (clean text)) rest := by
  have hchar : isNameChar char = true := List.all_eq_true.mp hname char List.mem_cons_self
  apply run_perform enters (not_blank_of_isNameChar hchar) (readLine_assign state.value hname text rest)
  rw [perform, assignment_eq hname]
  rfl

/-- `export` of a quoted text. -/
theorem run_export (count : ℕ) (state : State) (char : Char) (name : List Char)
    (hname : (char :: name).all isNameChar = true) (text rest : List Char) :
    run enters (count + 1) state
        (['e', 'x', 'p', 'o', 'r', 't', ' '] ++ (char :: name ++ '=' :: (clean (quote text) ++ '\n' :: rest))) =
      run enters count ((state.assign (char :: name) (clean text)).exporting (char :: name)) rest := by
  have hline : readLine state.value .between
      (['e', 'x', 'p', 'o', 'r', 't', ' '] ++ (char :: name ++ '=' :: (clean (quote text) ++ '\n' :: rest))) =
      some ⟨[], [.word ['e', 'x', 'p', 'o', 'r', 't'], .word (char :: name ++ '=' :: clean text)], rest⟩ := by
    refine (readLine_command state.value 'e' ['x', 'p', 'o', 'r', 't'] rfl _).trans ?_
    exact congrArg (Option.map fun line => (Line.push ['e', 'x', 'p', 'o', 'r', 't'] line).close)
      (readLine_assign state.value hname text rest)
  apply run_perform enters (by decide) hline
  show (assignment (char :: name ++ '=' :: clean text)).map _ = _
  rw [assignment_eq hname]
  rfl

/-- `cd` to a quoted directory. -/
theorem run_cd (count : ℕ) (state : State) {directory : List Char} (h : enters (clean directory) = true)
    (rest : List Char) :
    run enters (count + 1) state (['c', 'd', ' '] ++ (clean (quote directory) ++ '\n' :: rest)) =
      run enters count { state with directory := clean directory } rest := by
  have hline : readLine state.value .between (['c', 'd', ' '] ++ (clean (quote directory) ++ '\n' :: rest)) =
      some ⟨[], [.word ['c', 'd'], .word (clean directory)], rest⟩ := by
    have hword : readLine state.value .between (clean (quote directory) ++ '\n' :: rest) =
        some ⟨[], [.word (clean directory)], rest⟩ := by
      rw [readLine_between_quote]
      show some (⟨[], [.word (clean directory ++ [])], rest⟩ : Line) = _
      rw [List.append_nil]
    refine (readLine_command state.value 'c' ['d'] rfl _).trans ?_
    exact congrArg (Option.map fun line => (Line.push ['c', 'd'] line).close) hword
  apply run_perform enters (by decide) hline
  exact if_pos h

/-- The words of `exec "$NAME…" <<'DELIMITER'`. -/
theorem readLine_exec {value : List Char → Option (List Char)} {name found tail delimiter : List Char} {char : Char}
    (hname : name.all isNameChar = true) (hfound : value name = some found)
    (htail : (char :: tail).all isSafe = true) (hchar : isNameChar char = false) (hdelimiter : '\x27' ∉ delimiter)
    (rest : List Char) :
    readLine value .between
        (['e', 'x', 'e', 'c', ' ', '\x22', '$'] ++ (name ++ char :: (tail ++ ['\x22', ' ', '<', '<', '\x27'] ++
          (delimiter ++ '\x27' :: '\n' :: rest)))) =
      some ⟨[], [.word ['e', 'x', 'e', 'c'], .word (found ++ char :: tail), .here, .word delimiter], rest⟩ := by
  have hsafe : isSafe char = true := List.all_eq_true.mp htail char List.mem_cons_self
  have htail : tail.all isSafe = true := (Bool.and_eq_true _ _ ▸ htail).2
  have hdocument : readLine value .double ('\x22' :: ' ' :: '<' :: '<' :: '\x27' ::
      (delimiter ++ '\x27' :: '\n' :: rest)) = some ⟨[], [.here, .word delimiter], rest⟩ := by
    show readLine value .bare (' ' :: _) = _
    rw [readLine_blank]
    show (readLine value .single (delimiter ++ _)).map Line.here = _
    rw [readLine_single_plain value hdelimiter]
    show some (⟨[], [.here, .word (delimiter ++ [])], rest⟩ : Line) = _
    rw [List.append_nil]
  have hprogram : readLine value .between ('\x22' :: '$' :: (name ++ char :: (tail ++ ['\x22', ' ', '<', '<', '\x27'] ++
      (delimiter ++ '\x27' :: '\n' :: rest)))) =
      some ⟨[], [.word (found ++ char :: tail), .here, .word delimiter], rest⟩ := by
    show (readLine value (.variable []) (name ++ char :: _)).map Line.close = _
    rw [readLine_variable value hname (show value ([].reverse ++ name) = _ from hfound) hsafe hchar, List.append_assoc, readLine_double_safe value htail]
    show (((readLine value .double ('\x22' :: ' ' :: '<' :: '<' :: '\x27' ::
      (delimiter ++ '\x27' :: '\n' :: rest))).map _).map _).map _ = _
    rw [hdocument]
    simp [Line.push, Line.close]
  refine (readLine_command value 'e' ['x', 'e', 'c'] rfl _).trans ?_
  exact congrArg (Option.map fun line => (Line.push ['e', 'x', 'e', 'c'] line).close) hprogram

/-- `exec` of a program below the value of a variable, with a here-document. -/
theorem run_exec (count : ℕ) (state : State) (name : List Char) {found : List Char} (char : Char)
    (tail delimiter : List Char) (hname : name.all isNameChar = true) (hfound : state.value name = some found)
    (htail : (char :: tail).all isSafe = true) (hchar : isNameChar char = false) (hdelimiter : '\x27' ∉ delimiter)
    (rest : List Char) :
    run enters (count + 1) state
        (['e', 'x', 'e', 'c', ' ', '\x22', '$'] ++ (name ++ char :: (tail ++ ['\x22', ' ', '<', '<', '\x27'] ++
          (delimiter ++ '\x27' :: '\n' :: rest)))) =
      (hereDocument delimiter rest).map (Launch.mk (found ++ char :: tail) state) := by
  have hline := readLine_exec hname hfound htail hchar hdelimiter rest
  rw [List.cons_append] at hline ⊢
  rw [run, if_neg (by decide), if_neg (by decide), hline]
  rfl

end

end Hearth.Library.Shell
