import Hearth.Loader.Literal

/-!
# The reopened scratch

What `reopen` in `cli/reopen.py` writes: a comment that says where the scratch comes from, the source up
to the selected binding or an import of its copy, the goal, and a comment with the recorded tactic.  The
texts in the comments are arbitrary; a quoted string whose delimiter they do not have shields them.
-/

namespace Hearth.Reopen

open Hearth.Library
open Hearth.Loader

/-! ## Shielded comments -/

/-- The delimiter, and what ends a quoted string that it opens. -/
def quotedEnd (delimiter : List Char) : List Char :=
  ['|'] ++ delimiter ++ ['}']

/-- The loop of `_comment`, for at most `fuel` underscores. -/
def commentDelimiterFrom (text : List Char) : ℕ → List Char → List Char
  | 0, delimiter => delimiter
  | fuel + 1, delimiter =>
      if (splitAtText (quotedEnd delimiter) text).isSome then
        commentDelimiterFrom text fuel (delimiter ++ ['_'])
      else delimiter

/-- The delimiter that `_comment` selects; one that is longer than the text is absent from it. -/
def commentDelimiter (text : List Char) : List Char :=
  commentDelimiterFrom text text.length "hearth_reopen".toList

/-- `_comment`. -/
def comment (text : List Char) : List Char :=
  "(* ".toList ++ '\x7b' :: (commentDelimiter text ++ "|\n".toList ++ text ++ '\n' ::
    (quotedEnd (commentDelimiter text) ++ " *)\n".toList))

/-! ## The scratch -/

/-- The text of a path of the file system, which has no NUL. -/
structure PathText where
  chars : List Char
  nulFree : '\x00' ∉ chars

/-- `source_layout`; a copied package is imported by the path of its prefix. -/
inductive SourceLayout
  | originalProject
  | copiedPackage (prefixRelative : PathText)

/-- The text of `scratch_header`, behind the origin. -/
def scratchHeaderText (origin profileNote : List Char) (layout : SourceLayout) : List Char :=
  origin ++
    "Fresh diagnostic goal, not a recovered residual. The selected tactic stays inactive.\n".toList ++
    (match layout with
      | .originalProject =>
          "Original project coordinates: ordinary prove recaptures current dependency and ELF bytes.".toList
      | .copiedPackage _ => "Imports the copied prefix and dependencies below.".toList) ++
    profileNote

/-- The text of the comment with the recorded tactic. -/
def tacticText (tactic : List Char) : List Char :=
  "Recorded tactic, inactive. Copy selected steps into e (...) and replay the scratch:\n".toList ++
    ("e (".toList ++ tactic ++ ");;".toList)

/-- `scratch_prefix`, for the source up to the binding. -/
def scratchPrefix (sourcePrefix : Bytes) : SourceLayout → Bytes
  | .originalProject => sourcePrefix
  | .copiedPackage prefixRelative =>
      encode ("needs ".toList ++ (ocamlStringLiteral (String.ofList prefixRelative.chars)).toList ++
        ";;\n".toList)

/-- `bytes.decode("utf-8")`. -/
def decode (raw : Bytes) : Option (List Char) :=
  (String.fromUTF8? ⟨raw.toArray⟩).map String.toList

/-- The bytes that `reopen` writes to the scratch; `none` if a span of the binding does not decode. -/
def reopenScratch (source : Bytes) (binding : ProveBinding) (origin profileNote : List Char)
    (layout : SourceLayout) : Option Bytes := do
  let quote ← decode (binding.statementSpan.bytesFrom source)
  let tactic ← decode (binding.tacticSpan.bytesFrom source)
  some (encode (comment (scratchHeaderText origin profileNote layout)) ++
    scratchPrefix (source.take binding.bindingSpan.start) layout ++
    encode ("\n".toList ++ ("g ".toList ++ quote ++ ";;\n\n".toList) ++ comment (tacticText tactic)))

/-! ## Comments are read over -/

theorem isDelimiterChar_commentDelimiterFrom {text delimiter : List Char}
    (h : ∀ char ∈ delimiter, isDelimiterChar char = true) (fuel : ℕ) :
    ∀ char ∈ commentDelimiterFrom text fuel delimiter, isDelimiterChar char = true := by
  induction fuel generalizing delimiter with
  | zero => exact h
  | succ fuel ih =>
      rw [commentDelimiterFrom]
      split
      · refine ih fun char hchar => ?_
        rcases List.mem_append.mp hchar with hchar | hchar
        · exact h char hchar
        · rw [List.mem_singleton.mp hchar]
          decide
      · exact h

theorem isDelimiterChar_commentDelimiter (text : List Char) :
    ∀ char ∈ commentDelimiter text, isDelimiterChar char = true := by
  have hstart : "hearth_reopen".toList.all isDelimiterChar = true := rfl
  exact isDelimiterChar_commentDelimiterFrom (List.all_eq_true.mp hstart) _

theorem length_le_of_splitAtText {pattern text : List Char} (hpattern : pattern ≠ [])
    (h : (splitAtText pattern text).isSome = true) : pattern.length ≤ text.length := by
  obtain ⟨⟨before, after⟩, hsplit⟩ := Option.isSome_iff_exists.mp h
  rw [(splitAtText_read hpattern hsplit).1]
  simp
  omega

theorem commentDelimiterFrom_absent {text delimiter : List Char} {fuel : ℕ}
    (hfuel : text.length < delimiter.length + fuel + 2) :
    splitAtText (quotedEnd (commentDelimiterFrom text fuel delimiter)) text = none := by
  induction fuel generalizing delimiter with
  | zero =>
      by_contra hsome
      have hle := length_le_of_splitAtText (by simp [quotedEnd]) (Option.isSome_iff_ne_none.mpr hsome)
      simp only [commentDelimiterFrom, quotedEnd, List.length_append, List.length_singleton] at hle
      omega
  | succ fuel ih =>
      rw [commentDelimiterFrom]
      split
      · exact ih (by simp only [List.length_append, List.length_singleton]; omega)
      · rename_i habsent
        exact Option.not_isSome_iff_eq_none.mp habsent

/-- The text does not end the string that shields it. -/
theorem commentDelimiter_absent (text : List Char) :
    splitAtText (quotedEnd (commentDelimiter text)) text = none :=
  commentDelimiterFrom_absent (by omega)

/-- A pattern that a text does not have is found behind it, if what separates them is not in the pattern. -/
theorem splitAtText_append {pattern text : List Char} {separator : Char} (hpattern : pattern ≠ [])
    (hseparator : separator ∉ pattern) (h : splitAtText pattern text = none) (after : List Char) :
    splitAtText pattern (text ++ separator :: (pattern ++ after)) = some (text ++ [separator], after) := by
  have hhere : ∀ text rest, pattern.isPrefixOf (text ++ separator :: rest) = true →
      pattern.isPrefixOf text = true := by
    intro text rest hmatch
    obtain ⟨tail, htail⟩ := List.isPrefixOf_iff_prefix.mp hmatch
    rw [List.isPrefixOf_iff_prefix]
    rcases List.append_eq_append_iff.mp htail with ⟨middle, rfl, -⟩ | ⟨middle, hmiddle, hrest⟩
    · exact ⟨middle, rfl⟩
    · cases middle with
      | nil => exact ⟨[], by rw [hmiddle]; simp⟩
      | cons first middle =>
          cases hrest
          exact absurd (by rw [hmiddle]; simp) hseparator
  induction text with
  | nil =>
      have hmiss : ¬ pattern.isPrefixOf (separator :: (pattern ++ after)) = true := by
        intro hmatch
        have hnil := List.isPrefixOf_iff_prefix.mp (hhere [] (pattern ++ after) hmatch)
        exact hpattern (List.prefix_nil.mp hnil)
      obtain ⟨first, rest, rfl⟩ := List.exists_cons_of_ne_nil hpattern
      have hfound : splitAtText (first :: rest) (first :: rest ++ after) = some ([], after) := by
        rw [List.cons_append, splitAtText, ← List.cons_append,
          if_pos (List.isPrefixOf_iff_prefix.mpr ⟨after, rfl⟩), List.drop_left]
      rw [List.nil_append, splitAtText, if_neg hmiss, hfound]
      rfl
  | cons head text ih =>
      rw [splitAtText] at h
      split at h
      · cases h
      rename_i hmiss
      have hrest := ih (Option.map_eq_none_iff.mp h)
      have hmiss' : ¬ pattern.isPrefixOf (head :: (text ++ separator :: (pattern ++ after))) = true :=
        fun hmatch => hmiss (hhere (head :: text) (pattern ++ after) hmatch)
      rw [List.cons_append, splitAtText, if_neg hmiss', hrest]
      rfl

section

variable {tables : UnicodeTables}

theorem commentFrom_skip {size start depth : ℕ} (piece rest : List Char) :
    commentFrom tables size start piece.length depth (piece ++ rest) =
      commentFrom tables size start 0 depth rest := by
  induction piece with
  | nil => rfl
  | cons char piece ih => exact ih

/-- A blank in a comment. -/
theorem commentFrom_space {size start depth : ℕ} (rest : List Char) :
    commentFrom tables size start 0 depth (' ' :: rest) = commentFrom tables size start 0 depth rest := by
  rw [commentFrom, if_neg (by decide), if_neg (by simp), if_neg (by simp),
    commentEmbedded_other (by decide) (by decide)]

/-- A shielded text is skipped, whatever it is. -/
theorem commentFrom_shielded {size start depth : ℕ} {delimiter text rest : List Char}
    (hchars : ∀ char ∈ delimiter, isDelimiterChar char = true)
    (hlimit : delimiter.length ≤ maxQuotedDelimiterChars)
    (habsent : splitAtText (quotedEnd delimiter) text = none) :
    commentFrom tables size start 0 depth
        ('\x7b' :: (delimiter ++ '|' :: '\n' :: (text ++ '\n' :: (quotedEnd delimiter ++ rest)))) =
      commentFrom tables size start 0 depth rest := by
  have hpercent : (delimiter ++ '|' :: '\n' :: (text ++ '\n' :: (quotedEnd delimiter ++ rest))).head? ≠
      some '%' := by
    cases delimiter with
    | nil => simp
    | cons first delimiter =>
        intro hhead
        have hfirst := hchars first List.mem_cons_self
        rw [Option.some.inj hhead] at hfirst
        exact absurd hfirst (by decide)
  have hopener : ∀ index content, quotedOpener index (delimiter ++ '|' :: content) =
      .ok (some (delimiter, content)) := by
    intro index content
    have htake : (delimiter ++ '|' :: content).takeWhile isDelimiterChar = delimiter := by
      rw [List.takeWhile_append_of_pos hchars, List.takeWhile_cons, if_neg (by decide), List.append_nil]
    unfold quotedOpener
    dsimp only
    rw [htake, if_neg (by omega), List.drop_left]
    rfl
  have hfound : splitAtText (quotedEnd delimiter) ('\n' :: (text ++ '\n' :: (quotedEnd delimiter ++ rest))) =
      some ('\n' :: (text ++ ['\n']), rest) := by
    have hnewline : '\n' ∉ quotedEnd delimiter := by
      intro hmem
      rcases List.mem_append.mp hmem with hmem | hmem
      · rcases List.mem_append.mp hmem with hmem | hmem
        · exact absurd (List.mem_singleton.mp hmem) (by decide)
        · exact absurd (hchars _ hmem) (by decide)
      · exact absurd (List.mem_singleton.mp hmem) (by decide)
    rw [splitAtText, if_neg (by simp [quotedEnd]), splitAtText_append (by simp [quotedEnd]) hnewline habsent]
    rfl
  have hquoted : ∀ index, quotedString size index delimiter
      ('\n' :: (text ++ '\n' :: (quotedEnd delimiter ++ rest))) =
        .ok (normalizedBytes ('\n' :: (text ++ ['\n'])), rest) := by
    intro index
    unfold quotedString
    rw [show ['|'] ++ delimiter ++ ['\x7d'] = quotedEnd delimiter from rfl, hfound]
  obtain ⟨piece, hpiece⟩ : ∃ piece, delimiter ++ '|' :: '\n' :: (text ++ '\n' :: (quotedEnd delimiter ++ rest)) =
      piece ++ rest := ⟨delimiter ++ '|' :: '\n' :: (text ++ '\n' :: quotedEnd delimiter), by simp⟩
  rw [commentFrom, if_neg (by decide), if_neg (by simp), if_neg (by simp), commentEmbedded_brace hpercent,
    hopener]
  dsimp only
  rw [hquoted]
  dsimp only [Except.map]
  rw [hpiece, List.length_append, Nat.add_sub_cancel, commentFrom_skip]

/-- A comment that `_comment` made is a round without a token; its line end is left. -/
theorem readsRound_comment {text : List Char}
    (hlimit : (commentDelimiter text).length ≤ maxQuotedDelimiterChars) :
    ∃ piece, (∀ tail, comment text ++ tail = '(' :: (piece ++ '\n' :: tail)) ∧
      ∀ tail, ReadsRound tables '(' (piece ++ '\n' :: tail) none ('\n' :: tail) := by
  refine ⟨'*' :: ' ' :: '\x7b' :: (commentDelimiter text ++ '|' :: '\n' :: (text ++ '\n' ::
    (quotedEnd (commentDelimiter text) ++ [' ', '*', ')']))), fun tail => ?_,
    fun tail size previous => ?_⟩
  · unfold comment
    simp
  · have hread : ∀ start, commentFrom tables size start 0 1 (' ' :: '\x7b' :: (commentDelimiter text ++
        '|' :: '\n' :: (text ++ '\n' :: (quotedEnd (commentDelimiter text) ++
          ' ' :: '*' :: ')' :: '\n' :: tail)))) = .ok ('\n' :: tail) := by
      intro start
      rw [commentFrom_space, commentFrom_shielded (isDelimiterChar_commentDelimiter text) hlimit
        (commentDelimiter_absent text), commentFrom_space, commentFrom, if_neg (by decide), if_neg (by simp),
        if_pos (by simp), if_pos rfl, List.tail_cons]
    have hassoc : '*' :: ' ' :: '\x7b' :: (commentDelimiter text ++ '|' :: '\n' :: (text ++ '\n' ::
        (quotedEnd (commentDelimiter text) ++ [' ', '*', ')']))) ++ '\n' :: tail =
        '*' :: ' ' :: '\x7b' :: (commentDelimiter text ++ '|' :: '\n' :: (text ++ '\n' ::
          (quotedEnd (commentDelimiter text) ++ ' ' :: '*' :: ')' :: '\n' :: tail))) := by simp
    unfold lexToken
    dsimp only
    rw [hassoc, if_neg (by decide), if_neg (by decide)]
    dsimp only
    rw [if_pos ⟨rfl, rfl⟩, List.tail_cons, hread]
    exact ⟨_, rfl, rfl, rfl, rfl⟩

/-- The goal and the recorded tactic, behind a new line. -/
def goalText (quote tactic : List Char) : List Char :=
  "g ".toList ++ quote ++ ";;\n\n".toList ++ comment (tacticText tactic)

/-- The tokens of the goal, where `read` stands in front of it. -/
def goalTokens (read quote : List Char) : List Token :=
  [placedToken read ['g'] .ident "g" none, placedToken (read ++ ['g', ' ']) quote .hol "" none,
    placedToken (read ++ ['g', ' '] ++ quote) [';', ';'] .semisemi ";;" none]

theorem goalTokens_read {text read body tactic : List Char} (hbody : backquote ∉ body)
    (htext : text = read ++ goalText (backquote :: (body ++ [backquote])) tactic)
    (hlimit : (commentDelimiter (tacticText tactic)).length ≤ maxQuotedDelimiterChars)
    {count : ℕ} (hcount : count + 3 ≤ maxTokens) :
    ReadsAs tables text read (goalText (backquote :: (body ++ [backquote])) tactic) count
      (goalTokens read (backquote :: (body ++ [backquote]))) := by
  obtain ⟨piece, hcomment, hround⟩ : ∃ piece, _ ∧ ∀ tail, ReadsRound tables '(' (piece ++ '\n' :: tail) none _ :=
    readsRound_comment hlimit
  have hgoal : goalText (backquote :: (body ++ [backquote])) tactic =
      'g' :: ([] ++ ' ' :: ([] ++ backquote :: ((body ++ [backquote]) ++ ';' :: ([';'] ++ '\n' :: ([] ++ '\n' ::
        ([] ++ '(' :: (piece ++ '\n' :: ([] ++ [])))))))) := by
    unfold goalText
    rw [← List.append_nil (comment _), hcomment]
    simp
  have hword : ∀ rest, ReadsRound tables 'g' ([] ++ ' ' :: rest) (some (.ident, "g", none)) (' ' :: rest) :=
    readsRound_word rfl (fun _ h => absurd h List.not_mem_nil)
  have htokens : goalTokens read (backquote :: (body ++ [backquote])) =
      [placedToken read ['g'] .ident "g" none,
        placedToken (read ++ ['g'] ++ [' ']) (backquote :: (body ++ [backquote])) .hol "" none,
        placedToken (read ++ ['g'] ++ [' '] ++ backquote :: (body ++ [backquote])) [';', ';'] .semisemi ";;"
          none] := by
    simp [goalTokens]
  rw [hgoal] at htext ⊢
  rw [htokens]
  exact .token (hword _) (by omega) <| .blank (readsRound_space _) <|
    .token (readsRound_quotation hbody _) (by omega) <| .token (readsRound_semisemi _) (by omega) <|
      .blank (readsRound_newline _) <| .blank (readsRound_newline _) <| .blank (hround _) <|
        .blank (readsRound_newline _) (readsAs_done (by simp [htext]))

/-- The header leaves no token; the reading goes on behind its new line. -/
theorem reading_header {text header rest : List Char} {found : List Token}
    (hlimit : (commentDelimiter header).length ≤ maxQuotedDelimiterChars)
    (h : Reading tables text (comment header) rest (some '\n') 0 [] found) :
    Reading tables text [] (comment header ++ rest) none 0 [] found := by
  obtain ⟨piece, hcomment, hround⟩ : ∃ piece, _ ∧ ∀ tail, ReadsRound tables '(' (piece ++ '\n' :: tail) none _ :=
    readsRound_comment hlimit
  have hheader : comment header = ([] ++ '(' :: piece) ++ ['\n'] := by
    rw [← List.append_nil (comment header), hcomment]
    simp
  rw [hheader] at h
  rw [hcomment]
  obtain ⟨lexed, hlexed, htoken, hopen, hrest⟩ := hround rest text.length none
  exact .blank hlexed hrest htoken (hopen ▸ h.newline)

end

/-! ## Fidelity -/

theorem decode_encode (text : List Char) : decode (encode text) = some text := by
  unfold decode
  rw [fromUTF8?_encode, Option.map_some, String.toList_ofList]

/-- What the scratch has in front of the new line and the goal. -/
def scratchLead (sourcePrefix : List Char) : SourceLayout → List Char
  | .originalProject => sourcePrefix
  | .copiedPackage prefixRelative =>
      "needs ".toList ++ (ocamlStringLiteral (String.ofList prefixRelative.chars)).toList ++ ";;\n".toList

variable {tables : UnicodeTables} {source : Bytes} {binding : ProveBinding}
  {sourcePrefix following body tactic : List Char} {tokens before later : List Token} {token : Token}

/-- The text of the scratch. -/
theorem reopenScratch_eq
    (hcut : BindingCut tables source binding sourcePrefix following body tactic tokens before later token)
    (origin profileNote : List Char) (layout : SourceLayout) :
    reopenScratch source binding origin profileNote layout =
      some (encode (comment (scratchHeaderText origin profileNote layout) ++
        (scratchLead sourcePrefix layout ++ '\n' :: goalText (backquote :: (body ++ [backquote])) tactic))) := by
  have htake : source.take binding.bindingSpan.start = encode sourcePrefix := by
    rw [hcut.encoded, hcut.bindingStart, encode_append, ← length_encode, List.take_left]
  have hlead : scratchPrefix (encode sourcePrefix) layout = encode (scratchLead sourcePrefix layout) := by
    cases layout <;> rfl
  have hgoal : "\n".toList ++ ("g ".toList ++ (backquote :: (body ++ [backquote])) ++ ";;\n\n".toList) ++
      comment (tacticText tactic) = '\n' :: goalText (backquote :: (body ++ [backquote])) tactic := by
    simp [goalText]
  unfold reopenScratch
  rw [hcut.statement, hcut.tactic, decode_encode, decode_encode, htake, hlead]
  dsimp only [Option.bind_eq_bind, Option.bind_some]
  rw [hgoal, ← encode_append, ← encode_append, List.append_assoc]

/-- The scratch stays within the size limits of the lexer: its bytes, and the delimiters of its two
comments. -/
structure WithinLimits (source : Bytes) (binding : ProveBinding) (origin profileNote : List Char)
    (layout : SourceLayout) (scratch : Bytes) : Prop where
  size : scratch.length ≤ maxSourceBytes
  header : (commentDelimiter (scratchHeaderText origin profileNote layout)).length ≤ maxQuotedDelimiterChars
  tactic : ∀ tactic, decode (binding.tacticSpan.bytesFrom source) = some tactic →
    (commentDelimiter (tacticText tactic)).length ≤ maxQuotedDelimiterChars

/-- The scratch of an original project is accepted, and its tokens are those of the source in front of the
binding, `shift` bytes further on, and then the goal. -/
structure FaithfulToSource (tables : UnicodeTables) (source : Bytes) (binding : ProveBinding)
    (tokens : List Token) (shift : ℕ) (scratch : Bytes) : Prop where
  accepted : (scanOcamlLoaders tables scratch).status = .ok
  tokens : ∃ goal statement ending, lexedTokens tables scratch = some
      ((tokens.filter fun token => token.span.start < binding.bindingSpan.start).map (Token.shift shift) ++
        [goal, statement, ending]) ∧
    goal.kind = .ident ∧ goal.value = "g" ∧ statement.kind = .hol ∧
    statement.span.bytesFrom scratch = binding.statementSpan.bytesFrom source ∧ ending.kind = .semisemi

/-- The scratch of a copied package is accepted, and imports the copied prefix and nothing else. -/
structure ImportsPrefix (tables : UnicodeTables) (prefixRelative : PathText) (scratch : Bytes) : Prop where
  accepted : (scanOcamlLoaders tables scratch).status = .ok
  imports : ∃ occurrence, (scanOcamlLoaders tables scratch).occurrences = [occurrence] ∧
    occurrence.loader = "needs" ∧ occurrence.outcome = .literal ∧
    occurrence.pathLiteral.bind OcamlStringLiteral.utf8Text = some (String.ofList prefixRelative.chars)

/-- The tokens of the scratch of an original project. -/
theorem tokenize_original
    (hcut : BindingCut tables source binding sourcePrefix following body tactic tokens before later token)
    {header : List Char} (hheader : (commentDelimiter header).length ≤ maxQuotedDelimiterChars)
    (htactic : (commentDelimiter (tacticText tactic)).length ≤ maxQuotedDelimiterChars) :
    tokenize tables (comment header ++
        (sourcePrefix ++ '\n' :: goalText (backquote :: (body ++ [backquote])) tactic)) =
      .ok (before.map (Token.shift (width (comment header))) ++
        goalTokens (comment header ++ sourcePrefix ++ ['\n']) (backquote :: (body ++ [backquote]))) := by
  obtain ⟨goal, hgoal⟩ : ∃ goal, goal = goalText (backquote :: (body ++ [backquote])) tactic := ⟨_, rfl⟩
  obtain ⟨text, htext⟩ : ∃ text, text = comment header ++ (sourcePrefix ++ '\n' :: goal) := ⟨_, rfl⟩
  have hgoalText : text = (comment header ++ sourcePrefix ++ ['\n']) ++
      goalText (backquote :: (body ++ [backquote])) tactic := by
    rw [htext, hgoal]
    simp
  have hcount : 0 + before.length + 3 ≤ maxTokens := by
    rw [Nat.zero_add]
    exact hcut.limit
  have hgoalTokens : Reading tables text _ _ (some '\n') (0 + before.length) [] _ :=
    goalTokens_read hcut.quotation hgoalText htactic hcount _
  -- The source is read up to the cut, and again from the new line behind the header on.
  have hsource := reading_of_tokenize hcut.tokenized
  obtain ⟨-, hagain⟩ := hsource.cut hcut.follows text (comment header) goal rfl hcut.split hcut.start
    hcut.endsPhrase (fun _ => rfl)
  rw [← hgoal] at hgoalTokens ⊢
  rw [← htext]
  have hread := hagain (some '\n') [] _ rfl rfl hgoalTokens
  rw [List.append_nil] at hread
  have hwhole := reading_header hheader hread
  rw [← htext] at hwhole
  exact hwhole.tokenize_eq

theorem original_faithful
    (hcut : BindingCut tables source binding sourcePrefix following body tactic tokens before later token)
    {origin profileNote : List Char} {scratch : Bytes}
    (hscratch : reopenScratch source binding origin profileNote .originalProject = some scratch)
    (hlimits : WithinLimits source binding origin profileNote .originalProject scratch) :
    FaithfulToSource tables source binding tokens
      (encode (comment (scratchHeaderText origin profileNote .originalProject))).length scratch := by
  rw [reopenScratch_eq hcut] at hscratch
  obtain ⟨header, hheader⟩ : ∃ header, header = scratchHeaderText origin profileNote .originalProject := ⟨_, rfl⟩
  obtain ⟨quote, hquote⟩ : ∃ quote, quote = backquote :: (body ++ [backquote]) := ⟨_, rfl⟩
  have hheaderLimit := hlimits.header
  have htactic := hlimits.tactic tactic (by rw [hcut.tactic, decode_encode])
  have hsize := hlimits.size
  rw [← hheader] at hheaderLimit hscratch ⊢
  have htokens := tokenize_original hcut hheaderLimit htactic
  rw [← hquote] at htokens hscratch
  cases hscratch
  obtain ⟨hscan, hlexed⟩ := scanOcamlLoaders_encode hsize htokens
  let lead := comment header ++ sourcePrefix ++ ['\n']
  refine ⟨by rw [hscan], placedToken lead ['g'] .ident "g" none,
    placedToken (lead ++ ['g', ' ']) quote .hol "" none,
    placedToken (lead ++ ['g', ' '] ++ quote) [';', ';'] .semisemi ";;" none, ?_, rfl, rfl, rfl, ?_, rfl⟩
  · rw [hlexed, hcut.before_eq, length_encode]
    rfl
  · have htext : comment header ++ (sourcePrefix ++ '\n' :: goalText quote tactic) =
        (comment header ++ sourcePrefix ++ ['\n'] ++ ['g', ' ']) ++
          (quote ++ (";;\n\n".toList ++ comment (tacticText tactic))) := by
      simp [goalText]
    rw [hcut.statement, ← hquote]
    show (⟨width _, width _⟩ : ByteSpan).bytesFrom
      (encode (comment header ++ (sourcePrefix ++ '\n' :: goalText quote tactic))) = _
    rw [htext, bytesFrom_encode]

/-- The tokens of the import, where `read` stands in front of it. -/
def importTokens (read : List Char) (path : String) : List Token :=
  [placedToken read "needs".toList .loader "needs" none,
    placedToken (read ++ "needs ".toList) ('"' :: literalBody path) .string "" (some (utf8 path, false)),
    placedToken (read ++ "needs ".toList ++ '"' :: literalBody path) [';', ';'] .semisemi ";;" none]

/-- The tokens of the scratch of a copied package. -/
theorem tokenize_copied {header : List Char} (prefixRelative : PathText) (hquotation : backquote ∉ body)
    (hheader : (commentDelimiter header).length ≤ maxQuotedDelimiterChars)
    (htactic : (commentDelimiter (tacticText tactic)).length ≤ maxQuotedDelimiterChars) :
    ∃ read, tokenize tables (comment header ++ (scratchLead sourcePrefix (.copiedPackage prefixRelative) ++
        '\n' :: goalText (backquote :: (body ++ [backquote])) tactic)) =
      .ok (importTokens (comment header) (String.ofList prefixRelative.chars) ++
        goalTokens read (backquote :: (body ++ [backquote]))) := by
  obtain ⟨path, hpath⟩ : ∃ path, path = String.ofList prefixRelative.chars := ⟨_, rfl⟩
  obtain ⟨goal, hgoal⟩ : ∃ goal, goal = goalText (backquote :: (body ++ [backquote])) tactic := ⟨_, rfl⟩
  obtain ⟨needs, hneeds⟩ : ∃ needs, needs = "eeds".toList := ⟨_, rfl⟩
  have hlead : scratchLead sourcePrefix (.copiedPackage prefixRelative) ++ '\n' :: goal =
      'n' :: (needs ++ ' ' :: ([] ++ '"' :: (literalBody path ++ ';' :: ([';'] ++ '\n' :: ([] ++ '\n' ::
        ([] ++ goal)))))) := by
    have htext : scratchLead sourcePrefix (.copiedPackage prefixRelative) =
        "needs ".toList ++ (ocamlStringLiteral path).toList ++ ";;\n".toList := hpath ▸ rfl
    rw [hneeds, htext, ocamlStringLiteral_toList]
    simp
  have hword : ∀ rest, ReadsRound tables 'n' (needs ++ ' ' :: rest) (some (.loader, "needs", none))
      (' ' :: rest) := by
    have hletters : "eeds".toList.all Replay.isAsciiLetter = true := rfl
    rw [hneeds]
    exact readsRound_word rfl (List.all_eq_true.mp hletters)
  have hliteral : ∀ rest, ReadsRound tables '"' (literalBody path ++ rest)
      (some (.string, "", some (utf8 path, false))) rest :=
    readsRound_literal path
  have hfirst : "needs".toList = 'n' :: needs := hneeds ▸ rfl
  have hspaced : "needs ".toList = 'n' :: needs ++ [' '] := hneeds ▸ rfl
  obtain ⟨text, htext⟩ : ∃ text, text = comment header ++
      (scratchLead sourcePrefix (.copiedPackage prefixRelative) ++ '\n' :: goal) := ⟨_, rfl⟩
  obtain ⟨read, hread⟩ : ∃ read, read = comment header ++ 'n' :: needs ++ [' '] ++ '"' :: literalBody path ++
      [';', ';'] ++ ['\n'] ++ ['\n'] := ⟨_, rfl⟩
  have hgoalTokens : ReadsAs tables text read _ (0 + 1 + 1 + 1) _ :=
    goalTokens_read hquotation (by rw [htext, hlead, hread, hgoal]; simp) htactic (by decide)
  have hrest : ReadsAs tables text (comment header) _ 0 _ :=
    .token (hword _) (by decide) <| .blank (readsRound_space _) <|
      .token (hliteral _) (by decide) <| .token (readsRound_semisemi _) (by decide) <|
        .blank (readsRound_newline _) <| .blank (readsRound_newline _) (hread ▸ hgoalTokens)
  rw [← hgoal] at hrest ⊢
  have hwhole := reading_header hheader (hrest (some '\n'))
  have htext' := htext
  rw [hlead] at htext'
  rw [← htext'] at hwhole
  have htokens := hwhole.tokenize_eq
  refine ⟨read, ?_⟩
  rw [← htext, ← hpath]
  unfold importTokens
  rw [hfirst, hspaced, hread]
  simpa using htokens

/-- The tokens of the scratch of a copied package are classified as one literal import. -/
theorem classifyTokens_copied (tables : UnicodeTables) (scratch : Bytes) {header read quote : List Char} (prefixRelative : PathText) :
    ∃ occurrence, classifyTokens scratch tables (importTokens header (String.ofList prefixRelative.chars) ++
        goalTokens read quote) = [occurrence] ∧
      occurrence.loader = "needs" ∧ occurrence.outcome = .literal ∧
      occurrence.pathLiteral.bind OcamlStringLiteral.utf8Text = some (String.ofList prefixRelative.chars) := by
  obtain ⟨path, hpath⟩ : ∃ path, path = String.ofList prefixRelative.chars := ⟨_, rfl⟩
  have hzero : '\x00' ∉ path.toList := by
    rw [hpath, String.toList_ofList]
    exact prefixRelative.nulFree
  have huncaptured : uncapturedExecutionOccurrences scratch tables []
      (importTokens header path ++ goalTokens read quote) = [] := by
    rfl
  -- The one loader token stands in front of everything else.
  obtain ⟨literal, hliteral⟩ : ∃ literal : OcamlStringLiteral, literal =
      ⟨⟨width (header ++ "needs ".toList), width (header ++ "needs ".toList ++ '"' :: literalBody path)⟩,
        utf8 path, encode ('"' :: literalBody path), false⟩ := ⟨_, rfl⟩
  have hvalue : literal.valueBytes = utf8 path := by rw [hliteral]
  obtain ⟨hdecoded, hsupported⟩ := unsupported_of_path hvalue hzero
  have huses : loaderUses (importTokens header path ++ goalTokens read quote) =
      [⟨[], placedToken header "needs".toList .loader "needs" none,
        (importTokens header path).tail ++ goalTokens read quote, false⟩] := by
    rfl
  have hargument : exactStringArgument ((importTokens header path).tail ++ goalTokens read quote) =
      some (literal, (importTokens header path).drop 2 ++ goalTokens read quote, literal.span.stop) := by
    rw [hliteral]
    rfl
  have hloader : "needs" ∈ sourceLoaders := by decide
  rw [← hpath]
  exact ⟨_, classifyTokens_literal huncaptured huses rfl rfl hloader hargument hsupported rfl, rfl, rfl, hdecoded⟩

theorem copied_imports
    (hcut : BindingCut tables source binding sourcePrefix following body tactic tokens before later token)
    {origin profileNote : List Char} {prefixRelative : PathText} {scratch : Bytes}
    (hscratch : reopenScratch source binding origin profileNote (.copiedPackage prefixRelative) = some scratch)
    (hlimits : WithinLimits source binding origin profileNote (.copiedPackage prefixRelative) scratch) :
    ImportsPrefix tables prefixRelative scratch := by
  rw [reopenScratch_eq hcut] at hscratch
  have htactic := hlimits.tactic tactic (by rw [hcut.tactic, decode_encode])
  have hsize := hlimits.size
  obtain ⟨read, htokens⟩ : ∃ read, tokenize tables _ = .ok (_ ++ goalTokens read _) :=
    tokenize_copied prefixRelative hcut.quotation hlimits.header htactic
  cases hscratch
  obtain ⟨hscan, -⟩ := scanOcamlLoaders_encode hsize htokens
  obtain ⟨occurrence, hoccurrence, hloader, houtcome, hpath⟩ :=
    classifyTokens_copied tables (encode _) prefixRelative
  refine ⟨by rw [hscan], occurrence, ?_, hloader, houtcome, hpath⟩
  rw [hscan]
  exact hoccurrence

/-- Every scratch of a binding that the scan returns is faithful, whatever its origin says. -/
theorem reopened_scratch_faithful
    (hbinding : binding ∈ (scanProveBindings tables source).bindings) (origin profileNote : List Char) :
    ∃ tokens, lexedTokens tables source = some tokens ∧
      (∃ scratch, reopenScratch source binding origin profileNote .originalProject = some scratch ∧
        (WithinLimits source binding origin profileNote .originalProject scratch →
          FaithfulToSource tables source binding tokens
            (encode (comment (scratchHeaderText origin profileNote .originalProject))).length scratch)) ∧
      ∀ prefixRelative, ∃ scratch,
        reopenScratch source binding origin profileNote (.copiedPackage prefixRelative) = some scratch ∧
          (WithinLimits source binding origin profileNote (.copiedPackage prefixRelative) scratch →
            ImportsPrefix tables prefixRelative scratch) := by
  obtain ⟨sourcePrefix, following, body, tactic, tokens, before, later, token, hcut⟩ := exists_bindingCut hbinding
  refine ⟨tokens, hcut.lexed, ⟨_, reopenScratch_eq hcut origin profileNote _, fun hlimits => ?_⟩,
    fun prefixRelative => ⟨_, reopenScratch_eq hcut origin profileNote _, fun hlimits => ?_⟩⟩
  · exact original_faithful hcut (reopenScratch_eq hcut origin profileNote _) hlimits
  · exact copied_imports hcut (reopenScratch_eq hcut origin profileNote _) hlimits

/-- A source with a phrase in front of the binding, reopened in its project. -/
theorem small_scratch_faithful :
    ∃ tokens scratch, lexedTokens .ascii (utf8 "A;;\nlet T = prove(`p`,TAC);;") = some tokens ∧
      reopenScratch (utf8 "A;;\nlet T = prove(`p`,TAC);;") ⟨"T", ⟨4, 28⟩, ⟨18, 21⟩, ⟨22, 25⟩, 2⟩ "origin\n".toList []
        .originalProject = some scratch ∧
      FaithfulToSource .ascii (utf8 "A;;\nlet T = prove(`p`,TAC);;") ⟨"T", ⟨4, 28⟩, ⟨18, 21⟩, ⟨22, 25⟩, 2⟩ tokens
        (encode (comment (scratchHeaderText "origin\n".toList [] .originalProject))).length scratch := by
  have hbinding : (⟨"T", ⟨4, 28⟩, ⟨18, 21⟩, ⟨22, 25⟩, 2⟩ : ProveBinding) ∈
      (scanProveBindings .ascii (utf8 "A;;\nlet T = prove(`p`,TAC);;")).bindings := by
    decide +kernel
  obtain ⟨tokens, htokens, ⟨scratch, hscratch, hfaithful⟩, -⟩ :=
    reopened_scratch_faithful hbinding "origin\n".toList []
  refine ⟨tokens, scratch, htokens, hscratch, hfaithful ⟨?_, by decide +kernel, fun tactic htactic => ?_⟩⟩
  · have hsize : (reopenScratch (utf8 "A;;\nlet T = prove(`p`,TAC);;") ⟨"T", ⟨4, 28⟩, ⟨18, 21⟩, ⟨22, 25⟩, 2⟩
        "origin\n".toList [] .originalProject).all (fun scratch => scratch.length ≤ maxSourceBytes) = true := by
      decide +kernel
    rw [hscratch] at hsize
    simpa using hsize
  · have hlimit : (decode ((⟨22, 25⟩ : ByteSpan).bytesFrom (utf8 "A;;\nlet T = prove(`p`,TAC);;"))).all
        (fun tactic => (commentDelimiter (tacticText tactic)).length ≤ maxQuotedDelimiterChars) = true := by
      decide +kernel
    rw [htactic] at hlimit
    simpa using hlimit

end Hearth.Reopen
