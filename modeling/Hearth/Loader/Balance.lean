import Hearth.Loader.ProveBindings

/-!
# Balanced tokens

The delimiters of an accepted source are balanced, and a double semicolon stands outside of them.  Three passes over
the tokens rely on this: two pop a stack without looking, and `_single_expression_end` goes to the closer of an opening
delimiter.
-/

namespace Hearth.Loader

open Hearth.Library

/-- The closers that are expected behind a token of this kind; `none` where it closes what is not open. -/
def TokenKind.closersBehind (kind : TokenKind) (closers : List TokenKind) : Option (List TokenKind) :=
  match kind.closer with
  | some closer => some (closer :: closers)
  | none =>
      if kind.isClose then
        if closers.head? = some kind then some closers.tail else none
      else some closers

/-- The closers that are expected behind the tokens. -/
def closersBehind (closers : List TokenKind) : List Token → Option (List TokenKind)
  | [] => some closers
  | token :: rest => (token.kind.closersBehind closers).bind fun next => closersBehind next rest

/-- What holds of the tokens of an accepted source of this many bytes. -/
structure WellFormed (size : ℕ) (tokens : List Token) : Prop where
  covers : ∀ token ∈ tokens, token.span.start < token.span.stop
  inside : ∀ token ∈ tokens, token.span.stop ≤ size
  ordered : tokens.Pairwise fun first second => first.span.stop ≤ second.span.start
  balanced : closersBehind [] tokens = some []
  phraseEnds : ∀ before token after, tokens = before ++ token :: after → token.kind = .semisemi →
    closersBehind [] before = some []

/-! ## A round -/

theorem TokenKind.closersBehind_plain {kind : TokenKind} (hopens : kind.closer = none) (hcloses : kind.isClose = false)
    (closers : List TokenKind) : kind.closersBehind closers = some closers := by
  unfold TokenKind.closersBehind
  rw [hopens, hcloses]
  rfl

/-- What a round does to the open delimiters: only the token of a delimiter changes them, and a double semicolon is
read where none is open. -/
structure ClosersOfRound (delimiters : List (TokenKind × ℕ)) (lexed : Lexed) : Prop where
  none : lexed.token = none → lexed.delimiters = delimiters
  token : ∀ kind value literal, lexed.token = some (kind, value, literal) →
    kind.closersBehind (delimiters.map Prod.fst) = some (lexed.delimiters.map Prod.fst)
  semisemi : ∀ value literal, lexed.token = some (.semisemi, value, literal) → delimiters = []

section

variable {tables : UnicodeTables} {size index : ℕ} {delimiters : List (TokenKind × ℕ)}

theorem closersOfRound_of_kind {lexed : Lexed} {kind : TokenKind} {value : String} {literal : Option (Bytes × Bool)}
    (htoken : lexed.token = some (kind, value, literal))
    (hnext : kind.closersBehind (delimiters.map Prod.fst) = some (lexed.delimiters.map Prod.fst))
    (hsemisemi : kind = .semisemi → delimiters = []) : ClosersOfRound delimiters lexed := by
  refine ⟨fun h => ?_, fun kind' value' literal' h => ?_, fun value' literal' h => ?_⟩
  · rw [htoken] at h
    cases h
  · rw [htoken] at h
    cases h
    exact hnext
  · rw [htoken] at h
    cases h
    exact hsemisemi rfl

/-- A token that is no delimiter and ends no phrase. -/
theorem closersOfRound_of_plain {lexed : Lexed} {kind : TokenKind} {value : String} {literal : Option (Bytes × Bool)}
    (htoken : lexed.token = some (kind, value, literal)) (hsame : lexed.delimiters = delimiters)
    (hopens : kind.closer = none) (hcloses : kind.isClose = false) (hsemisemi : kind ≠ .semisemi) :
    ClosersOfRound delimiters lexed :=
  closersOfRound_of_kind htoken (by rw [hsame, TokenKind.closersBehind_plain hopens hcloses])
    fun heq => absurd heq hsemisemi

theorem closersOfRound_of_none {lexed : Lexed} (htoken : lexed.token = none) (hsame : lexed.delimiters = delimiters) :
    ClosersOfRound delimiters lexed := by
  refine ⟨fun _ => hsame, fun kind value literal h => ?_, fun value literal h => ?_⟩ <;>
    (rw [htoken] at h; cases h)

theorem stepDelimiter_closers {char : Char} {kind : TokenKind} {next : List (TokenKind × ℕ)}
    (hkind : delimiterKind char = some kind) (h : stepDelimiter index char kind delimiters = .ok next) :
    kind.closersBehind (delimiters.map Prod.fst) = some (next.map Prod.fst) := by
  have hdelimiter : kind.closer = none → kind.isClose = true := by
    intro hcloser
    unfold delimiterKind at hkind
    split at hkind <;> cases hkind <;> first | rfl | cases hcloser
  unfold stepDelimiter at h
  unfold TokenKind.closersBehind
  cases hcloser : kind.closer with
  | some closer =>
      rw [hcloser] at h
      dsimp only at h
      split at h
      · nomatch h
      · rw [← Except.ok.inj h]
        rfl
  | none =>
      rw [hcloser] at h
      dsimp only at h
      rw [hdelimiter hcloser]
      split at h
      · split at h
        · rename_i hexpected
          rw [← Except.ok.inj h, ← hexpected]
          simp
        · nomatch h
      · nomatch h

theorem lexPlain_closers {char : Char} {rest : List Char} {lexed : Lexed}
    (h : lexPlain tables size index delimiters char rest = .ok lexed) : ClosersOfRound delimiters lexed := by
  unfold lexPlain at h
  dsimp only at h
  split at h
  · split at h
    · cases h
    · rename_i hopen
      cases h
      have hnil : delimiters = [] := not_not.mp hopen
      exact closersOfRound_of_kind rfl rfl fun _ => hnil
  split at h
  · cases h
    exact closersOfRound_of_plain rfl rfl rfl rfl nofun
  split at h
  · cases h
    exact closersOfRound_of_plain rfl rfl rfl rfl nofun
  split at h
  · rename_i kind hkind
    obtain ⟨next, hstep, rfl⟩ := map_eq_ok.mp h
    refine closersOfRound_of_kind rfl (stepDelimiter_closers hkind hstep) ?_
    rintro rfl
    unfold delimiterKind at hkind
    split at hkind <;> cases hkind
  split at h
  · cases h
    exact closersOfRound_of_plain rfl rfl rfl rfl nofun
  split at h
  · obtain ⟨⟨kind, value, after⟩, hraw, rfl⟩ := map_eq_ok.mp h
    rcases lexRawIdentifier_kind hraw with rfl | rfl <;> exact closersOfRound_of_plain rfl rfl rfl rfl nofun
  split at h
  · cases h
    rcases wordKind_eq .ident (String.ofList (char :: rest.takeWhile (identifierContinue tables))) with hword | hword
    · exact closersOfRound_of_plain rfl rfl (by rw [hword]; rfl) (by rw [hword]; rfl) (by rw [hword]; nofun)
    · exact closersOfRound_of_plain rfl rfl (by rw [hword]; rfl) (by rw [hword]; rfl) (by rw [hword]; nofun)
  · obtain ⟨⟨kind, value, after⟩, hsymbol, rfl⟩ := map_eq_ok.mp h
    rcases lexSymbol_kind hsymbol with rfl | rfl <;> exact closersOfRound_of_plain rfl rfl rfl rfl nofun

theorem lexToken_closers {previous : Option Char} {char : Char} {rest : List Char} {lexed : Lexed}
    (h : lexToken tables size previous delimiters char rest = .ok lexed) : ClosersOfRound delimiters lexed := by
  unfold lexToken at h
  dsimp only at h
  split at h
  · cases h
    exact closersOfRound_of_none rfl rfl
  split at h
  · cases h
  · cases h
    exact closersOfRound_of_none rfl rfl
  split at h
  · obtain ⟨after, -, rfl⟩ := map_eq_ok.mp h
    exact closersOfRound_of_none rfl rfl
  split at h
  · obtain ⟨⟨value, after⟩, -, rfl⟩ := map_eq_ok.mp h
    exact closersOfRound_of_plain rfl rfl rfl rfl nofun
  split at h
  · cases h
  · rename_i kind literal after hbrace
    cases h
    split at hbrace
    · rcases lexBrace_kind hbrace with rfl | rfl <;> exact closersOfRound_of_plain rfl rfl rfl rfl nofun
    · cases hbrace
  split at h
  · obtain ⟨⟨kind, value, after⟩, hchar, rfl⟩ := map_eq_ok.mp h
    rcases charOrTypevar_kind hchar with rfl | rfl <;> exact closersOfRound_of_plain rfl rfl rfl rfl nofun
  split at h
  · obtain ⟨after, -, rfl⟩ := map_eq_ok.mp h
    exact closersOfRound_of_plain rfl rfl rfl rfl nofun
  · exact lexPlain_closers h

end

/-! ## A run -/

section

variable {tables : UnicodeTables} {text read after : List Char} {previous : Option Char} {count : ℕ}
  {delimiters : List (TokenKind × ℕ)} {tokens : List Token}

theorem closersBehind_placed {closers : List TokenKind} {read piece : List Char} {kind : TokenKind}
    {value : String} {literal : Option (Bytes × Bool)} {tokens : List Token} :
    closersBehind closers (placedToken read piece kind value literal :: tokens) =
      (kind.closersBehind closers).bind fun next => closersBehind next tokens :=
  rfl

/-- The tokens that are still to come close what is open. -/
theorem Reading.closers (h : Reading tables text read after previous count delimiters tokens) :
    closersBehind (delimiters.map Prod.fst) tokens = some [] := by
  induction h with
  | done => rfl
  | blank hlexed hafter htoken hrun ih => rwa [(lexToken_closers hlexed).none htoken] at ih
  | token hlexed hafter htoken hlimit hrun ih =>
      have hnext := (lexToken_closers hlexed).token _ _ _ htoken
      rw [closersBehind_placed, hnext]
      exact ih

/-- A double semicolon among them stands where nothing is open. -/
theorem Reading.phraseEnds (h : Reading tables text read after previous count delimiters tokens) :
    ∀ before token later, tokens = before ++ token :: later → token.kind = .semisemi →
      closersBehind (delimiters.map Prod.fst) before = some [] := by
  induction h with
  | done =>
      intro before token later hsplit
      simp at hsplit
  | blank hlexed hafter htoken hrun ih => rwa [(lexToken_closers hlexed).none htoken] at ih
  | @token read piece after char previous count delimiters tokens lexed kind value literal hlexed hafter htoken
      hlimit hrun ih =>
      intro before token later hsplit hkind
      cases before with
      | nil =>
          cases hsplit
          cases hkind
          rw [(lexToken_closers hlexed).semisemi _ _ htoken]
          rfl
      | cons first before =>
          cases hsplit
          rw [closersBehind_placed, (lexToken_closers hlexed).token _ _ _ htoken]
          exact ih before token later rfl hkind

end

/-- The tokens of an accepted source. -/
theorem lexedTokens_wellFormed {tables : UnicodeTables} {source : Bytes} {tokens : List Token}
    (h : lexedTokens tables source = some tokens) : WellFormed source.length tokens := by
  obtain ⟨text, rfl, hlexed⟩ := text_of_lexedTokens h
  have hreading := reading_of_tokenize hlexed
  have hsize : (encode text).length = width text := length_encode text
  refine ⟨fun token hmem => (hreading.standsIn token hmem).covers, fun token hmem => ?_,
    (tokenize_inOrder hlexed).order, hreading.closers, hreading.phraseEnds⟩
  obtain ⟨read, piece, after, hsplit, -, hspan, -⟩ := hreading.standsIn token hmem
  rw [hsize, hspan, hsplit, ← List.append_assoc, width_append (read ++ piece)]
  exact Nat.le_add_right _ _

/-! ## Progress -/

/-- The places a round of the main loop leads to. -/
def RoundLeaves (tables : UnicodeTables) (size : ℕ) (after before : List Char) : Prop :=
  ∃ previous delimiters char rest lexed, before = char :: rest ∧
    lexToken tables size previous delimiters char rest = .ok lexed ∧ lexed.rest = after

theorem RoundLeaves.length_lt {tables : UnicodeTables} {size : ℕ} {after before : List Char}
    (h : RoundLeaves tables size after before) : after.length < before.length := by
  obtain ⟨previous, delimiters, char, rest, lexed, rfl, hlexed, rfl⟩ := h
  obtain ⟨piece, hpiece⟩ := lexToken_suffix hlexed
  rw [hpiece, List.length_cons, List.length_append]
  omega

/-- The loops that jump, and that each of them moves on: the main loop, the loop over a string and the loop over a
comment.  The others read one character at a time. -/
structure Progress (tables : UnicodeTables) (size : ℕ) : Prop where
  rounds : WellFounded (RoundLeaves tables size)
  escapes : ∀ slash text decoded after, decodeEscape size slash text = .ok (decoded, after) →
    after.length < text.length
  embedded : ∀ text after, commentEmbedded tables size text = .ok (some after) → after.length < text.length

theorem lexer_progress (tables : UnicodeTables) (size : ℕ) : Progress tables size where
  rounds := Subrelation.wf RoundLeaves.length_lt (InvImage.wf List.length Nat.lt_wfRel.wf)
  escapes := by
    intro slash text decoded after h
    have hquote : isLiteralQuote '"' = true := rfl
    obtain ⟨piece, rfl, hne, -⟩ := decodeEscape_read hquote h
    have hpos := List.length_pos_iff.mpr hne
    rw [List.length_append]
    omega
  embedded := by
    intro text after h
    cases text with
    | nil => cases h
    | cons char rest =>
        obtain ⟨piece, rfl, -⟩ := commentEmbedded_read h
        rw [List.length_cons, List.length_append]
        omega

/-! ## The passes that rely on it -/

/-- `list.pop`, the end of the list being its head; `none` is an `IndexError`. -/
def pop {α : Type} : List α → Option (List α)
  | [] => none
  | _ :: rest => some rest

/-- `stepClosers`, or `none` where the pop fails. -/
def popClosers (token : Token) (closers : List TokenKind) : Option (List TokenKind) :=
  match token.kind.closer with
  | some closer => some (closer :: closers)
  | none =>
      if token.kind.isClose then pop closers else some closers

/-- `topLevelPhrasesFrom`, or `none` where a pop fails. -/
def topLevelPhrasesRaisingFrom (phrase : List Token) (blocks : List String) (closers : List TokenKind) :
    List Token → Option (Option (List (List Token)))
  | [] => some (if blocks = [] then some [] else none)
  | token :: rest =>
      match stepBlocks token blocks with
      | none => some none
      | some blocks =>
          (popClosers token closers).bind fun closers =>
            if token.kind = .semisemi ∧ blocks = [] ∧ closers = [] then
              (topLevelPhrasesRaisingFrom [] blocks closers rest).map (Option.map ((phrase ++ [token]) :: ·))
            else topLevelPhrasesRaisingFrom (phrase ++ [token]) blocks closers rest

/-- `loaderUsesFrom`, or `none` where a pop fails. -/
def loaderUsesRaisingFrom (stack : List Bool) (before : List Token) : List Token → Option (List LoaderUse)
  | [] => some []
  | token :: after =>
      if token.kind.closer.isSome then
        let opened := token.kind = .lparen && before.head?.any fun previous => previous.value = "."
        loaderUsesRaisingFrom (opened :: stack) (token :: before) after
      else if token.kind.isClose then
        (pop stack).bind fun stack => loaderUsesRaisingFrom stack (token :: before) after
      else if token.kind = .loader then
        (loaderUsesRaisingFrom stack (token :: before) after).map (⟨before, token, after, stack.any id⟩ :: ·)
      else loaderUsesRaisingFrom stack (token :: before) after

theorem closersBehind_append (closers : List TokenKind) (first second : List Token) :
    closersBehind closers (first ++ second) =
      (closersBehind closers first).bind fun next => closersBehind next second := by
  induction first generalizing closers with
  | nil => rfl
  | cons token first ih =>
      rw [List.cons_append, closersBehind, closersBehind, Option.bind_assoc]
      simp only [ih]

/-- Where the closers of a token are known, the stack has what the token pops. -/
theorem popClosers_eq {token : Token} {closers next : List TokenKind}
    (h : token.kind.closersBehind closers = some next) :
    popClosers token closers = some next ∧ stepClosers token closers = next := by
  unfold TokenKind.closersBehind at h
  unfold popClosers stepClosers
  cases hcloser : token.kind.closer with
  | some closer =>
      rw [hcloser] at h
      exact ⟨h, Option.some_inj.mp h⟩
  | none =>
      rw [hcloser] at h
      dsimp only at h ⊢
      split at h
      · rename_i hclose
        split at h
        · rename_i hhead
          cases closers with
          | nil => cases hhead
          | cons first closers => exact ⟨by rw [if_pos hclose]; exact h, by rw [if_pos hclose]; exact Option.some_inj.mp h⟩
        · cases h
      · rename_i hclose
        exact ⟨by rw [if_neg hclose]; exact h, by rw [if_neg hclose]; exact Option.some_inj.mp h⟩

theorem topLevelPhrasesRaisingFrom_eq {closers last : List TokenKind} {tokens : List Token}
    (h : closersBehind closers tokens = some last) (phrase : List Token) (blocks : List String) :
    topLevelPhrasesRaisingFrom phrase blocks closers tokens =
      some (topLevelPhrasesFrom phrase blocks closers tokens) := by
  induction tokens generalizing phrase blocks closers with
  | nil => rfl
  | cons token tokens ih =>
      obtain ⟨next, hnext, hlater⟩ := Option.bind_eq_some_iff.mp h
      obtain ⟨hpop, hstep⟩ := popClosers_eq hnext
      rw [topLevelPhrasesRaisingFrom, topLevelPhrasesFrom]
      cases stepBlocks token blocks with
      | none => rfl
      | some blocks =>
          dsimp only
          rw [hpop, hstep, Option.bind_some]
          split
          · rw [ih hlater]
            rfl
          · exact ih hlater _ _

theorem loaderUsesRaisingFrom_eq {closers last : List TokenKind} {tokens : List Token}
    (h : closersBehind closers tokens = some last) {stack : List Bool} (hlength : stack.length = closers.length)
    (before : List Token) :
    loaderUsesRaisingFrom stack before tokens = some (loaderUsesFrom stack before tokens) := by
  induction tokens generalizing closers stack before with
  | nil => rfl
  | cons token tokens ih =>
      obtain ⟨next, hnext, hlater⟩ := Option.bind_eq_some_iff.mp h
      unfold TokenKind.closersBehind at hnext
      rw [loaderUsesRaisingFrom, loaderUsesFrom]
      cases hcloser : token.kind.closer with
      | some closer =>
          rw [hcloser] at hnext
          cases hnext
          exact ih hlater (by simp [hlength]) _
      | none =>
          rw [hcloser] at hnext
          dsimp only at hnext
          have hnotSome : ¬ (none : Option TokenKind).isSome = true := Bool.false_ne_true
          rw [if_neg hnotSome, if_neg hnotSome]
          split at hnext
          · rename_i hclose
            split at hnext
            · rename_i hhead
              cases hnext
              cases closers with
              | nil => cases hhead
              | cons first closers =>
                  obtain ⟨opened, stack, rfl⟩ := List.exists_cons_of_length_eq_add_one hlength
                  rw [if_pos hclose, if_pos hclose]
                  exact ih hlater (by simpa using hlength) _
            · cases hnext
          · rename_i hclose
            cases hnext
            rw [if_neg hclose, if_neg hclose]
            split
            · rw [ih hlater hlength]
              rfl
            · exact ih hlater hlength _

/-- The closers of an expression are found where all of them are. -/
theorem delimitedExpression_isSome {inner outer : List TokenKind} {tokens : List Token}
    (h : closersBehind (inner ++ outer) tokens = some []) (stop : ℕ) :
    (delimitedExpression stop inner tokens).isSome := by
  induction tokens generalizing inner stop with
  | nil =>
      cases inner with
      | nil => rfl
      | cons expected inner => cases h
  | cons token tokens ih =>
      cases inner with
      | nil => rfl
      | cons expected inner =>
          obtain ⟨next, hnext, hlater⟩ := Option.bind_eq_some_iff.mp h
          unfold TokenKind.closersBehind at hnext
          rw [delimitedExpression]
          cases hcloser : token.kind.closer with
          | some closer =>
              rw [hcloser] at hnext
              cases hnext
              exact @ih (closer :: expected :: inner) hlater _
          | none =>
              rw [hcloser] at hnext
              dsimp only at hnext ⊢
              split at hnext
              · rename_i hclose
                split at hnext
                · rename_i hhead
                  cases hnext
                  rw [if_pos hclose, if_pos (Option.some_inj.mp hhead).symm]
                  exact ih hlater _
                · cases hnext
              · rename_i hclose
                cases hnext
                rw [if_neg hclose]
                exact @ih (expected :: inner) hlater _

/-- An expression that an opening delimiter starts has an end. -/
theorem singleExpressionEnd_isSome {closers : List TokenKind} {opening : Token} {after : List Token}
    (h : closersBehind closers (opening :: after) = some []) (hopens : opening.kind.closer.isSome) :
    (singleExpressionEnd (opening :: after)).isSome := by
  obtain ⟨closer, hcloser⟩ := Option.isSome_iff_exists.mp hopens
  obtain ⟨next, hnext, hlater⟩ := Option.bind_eq_some_iff.mp h
  unfold TokenKind.closersBehind at hnext
  rw [hcloser] at hnext
  cases hnext
  have hkind : opening.kind = .lparen ∨ opening.kind = .lbrack ∨ opening.kind = .lbrace := by
    cases hkind : opening.kind <;> rw [hkind] at hcloser <;> tauto
  have hstarts : startsExpression (opening :: after) = true := by
    dsimp only [startsExpression, Token.isIdent]
    rcases hkind with hkind | hkind | hkind <;> rw [hkind] <;> rfl
  have hatomic : ¬ (opening.kind = .typevar || opening.isIdent incompleteAtomicIdentifiers) = true := by
    unfold Token.isIdent
    rcases hkind with hkind | hkind | hkind <;> rw [hkind] <;> simp
  unfold singleExpressionEnd
  rw [hstarts]
  dsimp only [Bool.not_true]
  rw [if_neg (by simp), if_neg hatomic, hcloser]
  exact @delimitedExpression_isSome [closer] _ _ hlater _

/-! ## Every source -/

/-- The lexer moves on in every round; where it accepts a source, the tokens are well formed, no pop of the passes
over them fails, and each expression that an opening delimiter starts has an end. -/
theorem lexer_wellFormed {tables : UnicodeTables} {source : Bytes} :
    (∀ size, Progress tables size) ∧ ∀ tokens, lexedTokens tables source = some tokens →
      WellFormed source.length tokens ∧
      loaderUsesRaisingFrom [] [] tokens = some (loaderUses tokens) ∧
      topLevelPhrasesRaisingFrom [] [] [] tokens = some (topLevelPhrases tokens) ∧
      ∀ before opening after, tokens = before ++ opening :: after → opening.kind.closer.isSome →
        (singleExpressionEnd (opening :: after)).isSome := by
  refine ⟨lexer_progress tables, fun tokens htokens => ?_⟩
  have hwell := lexedTokens_wellFormed htokens
  refine ⟨hwell, loaderUsesRaisingFrom_eq hwell.balanced rfl [],
    topLevelPhrasesRaisingFrom_eq hwell.balanced [] [], fun before opening after hsplit hopens => ?_⟩
  have hbalanced := hwell.balanced
  rw [hsplit, closersBehind_append] at hbalanced
  obtain ⟨closers, -, hlater⟩ := Option.bind_eq_some_iff.mp hbalanced
  exact singleExpressionEnd_isSome hlater hopens

/-- A local open around a call is read, and its tokens are well formed. -/
theorem local_open_wellFormed :
    ∃ tokens, lexedTokens .ascii "M.(loadt (\"x\"));;".toUTF8.toList = some tokens ∧ tokens.length = 9 ∧
      WellFormed "M.(loadt (\"x\"));;".toUTF8.toList.length tokens := by
  have hread : (lexedTokens .ascii "M.(loadt (\"x\"));;".toUTF8.toList).map List.length = some 9 := by
    decide +kernel
  obtain ⟨tokens, htokens, hlength⟩ := Option.map_eq_some_iff.mp hread
  exact ⟨tokens, htokens, hlength, (lexer_wellFormed.2 tokens htokens).1⟩

end Hearth.Loader
