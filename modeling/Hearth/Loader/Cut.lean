import Hearth.Loader.Rounds

/-!
# A source cut in front of a token

The tokens of a source up to some token that begins a phrase are read again, shifted, from a text that
has the source up to there: what stands in front of it must leave no token, and what follows must start a
new line.
-/

namespace Hearth.Loader

open Hearth.Library

variable {tables : UnicodeTables}

/-! ## Places -/

/-- How many bytes a text has in UTF-8. -/
def width (text : List Char) : ℕ :=
  (text.map Char.utf8Size).sum

@[simp] theorem width_append (first second : List Char) :
    width (first ++ second) = width first + width second := by
  simp [width]

theorem width_pos (char : Char) (text : List Char) : 0 < width (char :: text) := by
  have hsize := Char.utf8Size_pos char
  simp only [width, List.map_cons, List.sum_cons]
  omega

theorem byteOffset_append (first second : List Char) :
    byteOffset (first ++ second) first.length = width first := by
  rw [byteOffset, List.take_left, width]

/-- The token of a round that read `piece` behind the text `read`. -/
def placedToken (read piece : List Char) (kind : TokenKind) (value : String)
    (literal : Option (Bytes × Bool)) : Token :=
  let span : ByteSpan := ⟨width read, width (read ++ piece)⟩
  ⟨kind, value, span, literal.map fun (value, quoted) => ⟨span, value, encode piece, quoted⟩⟩

/-- Spans `amount` bytes further on. -/
def ByteSpan.shift (amount : ℕ) (span : ByteSpan) : ByteSpan :=
  ⟨amount + span.start, amount + span.stop⟩

/-- The token `amount` bytes further on. -/
def Token.shift (amount : ℕ) (token : Token) : Token where
  kind := token.kind
  value := token.value
  span := token.span.shift amount
  literal := token.literal.map fun literal => { literal with span := literal.span.shift amount }

theorem placedToken_append (lead read piece : List Char) (kind : TokenKind) (value : String)
    (literal : Option (Bytes × Bool)) :
    placedToken (lead ++ read) piece kind value literal =
      (placedToken read piece kind value literal).shift (width lead) := by
  cases literal <;> simp [placedToken, Token.shift, ByteSpan.shift]

/-! ## Runs of the main loop -/

/-- The characters of the last token are skipped. -/
theorem tokenizeFrom_skip {size : ℕ} {text : List Char} (piece rest : List Char) (previous : Option Char)
    (count : ℕ) (delimiters : List (TokenKind × ℕ)) :
    tokenizeFrom tables size text piece.length previous count delimiters (piece ++ rest) =
      tokenizeFrom tables size text 0 (piece.getLast?.or previous) count delimiters rest := by
  induction piece generalizing previous with
  | nil => rfl
  | cons char piece ih =>
      rw [List.length_cons, List.cons_append, tokenizeFrom, ih]
      congr 1
      rw [List.getLast?_cons]
      cases piece.getLast? <;> rfl

/-- One round, and the rounds after it. -/
theorem tokenizeFrom_round {text read piece after : List Char} {char : Char} {previous : Option Char}
    {count : ℕ} {delimiters : List (TokenKind × ℕ)} {lexed : Lexed}
    (htext : text = read ++ char :: (piece ++ after))
    (hlexed : lexToken tables text.length previous delimiters char (piece ++ after) = .ok lexed)
    (hafter : lexed.rest = after) :
    tokenizeFrom tables text.length text 0 previous count delimiters (char :: (piece ++ after)) =
      match lexed.token with
      | none =>
          tokenizeFrom tables text.length text 0 (char :: piece).getLast? count lexed.delimiters after
      | some (kind, value, literal) =>
          if maxTokens < count + 1 then
            .error ⟨"token_limit", "OCaml loader lexical token limit exceeded",
              lexed.limitIndex, min text.length (lexed.limitIndex + 1)⟩
          else
            (tokenizeFrom tables text.length text 0 (char :: piece).getLast? (count + 1) lexed.delimiters
              after).map (placedToken read (char :: piece) kind value literal :: ·) := by
  have hskip : (piece ++ after).length - lexed.rest.length = piece.length := by
    rw [hafter, List.length_append]
    omega
  have hlast : piece.getLast?.or (some char) = (char :: piece).getLast? := by
    rw [List.getLast?_cons]
    cases piece.getLast? <;> rfl
  have hstart : lexed.tokenStart = read.length := by
    rw [(lexToken_lexedAt hlexed).start, htext]
    simp
  have hstop : text.length - lexed.rest.length = (read ++ char :: piece).length := by
    rw [hafter, htext]
    simp
    omega
  have hspan : byteSpan text lexed.tokenStart (text.length - lexed.rest.length) =
      ⟨width read, width (read ++ char :: piece)⟩ := by
    rw [hstart, hstop]
    have hassoc : text = read ++ char :: piece ++ after := by simp [htext]
    unfold byteSpan
    congr 1
    · rw [htext, byteOffset_append]
    · rw [hassoc, byteOffset_append]
  have hraw : (text.drop lexed.tokenStart).take (text.length - lexed.rest.length - lexed.tokenStart) =
      char :: piece := by
    have hlength : (read ++ char :: piece).length - read.length = (char :: piece).length := by simp
    rw [hstart, hstop, hlength, htext, List.drop_left, ← List.cons_append, List.take_left]
  rw [tokenizeFrom, hlexed]
  dsimp only
  rw [hskip]
  cases htoken : lexed.token with
  | none => exact (tokenizeFrom_skip piece after _ count _).trans (by rw [hlast])
  | some token =>
      obtain ⟨kind, value, literal⟩ := token
      dsimp only
      split
      · rfl
      · rw [tokenizeFrom_skip, hlast, hspan, hraw]
        rfl

/-- How a run of the main loop reads a text.  `read` lies behind it and `after` in front; what was read
last, how many tokens there are and which delimiters are open change from round to round, and `tokens` are
those still to come. -/
inductive Reading (tables : UnicodeTables) (text : List Char) :
    List Char → List Char → Option Char → ℕ → List (TokenKind × ℕ) → List Token → Prop
  | done {previous : Option Char} {count : ℕ} : Reading tables text text [] previous count [] []
  | blank {read piece after : List Char} {char : Char} {previous : Option Char} {count : ℕ}
      {delimiters : List (TokenKind × ℕ)} {tokens : List Token} {lexed : Lexed}
      (hlexed : lexToken tables text.length previous delimiters char (piece ++ after) = .ok lexed)
      (hafter : lexed.rest = after) (htoken : lexed.token = none)
      (hrun : Reading tables text (read ++ char :: piece) after (char :: piece).getLast? count
        lexed.delimiters tokens) :
      Reading tables text read (char :: (piece ++ after)) previous count delimiters tokens
  | token {read piece after : List Char} {char : Char} {previous : Option Char} {count : ℕ}
      {delimiters : List (TokenKind × ℕ)} {tokens : List Token} {lexed : Lexed} {kind : TokenKind}
      {value : String} {literal : Option (Bytes × Bool)}
      (hlexed : lexToken tables text.length previous delimiters char (piece ++ after) = .ok lexed)
      (hafter : lexed.rest = after) (htoken : lexed.token = some (kind, value, literal))
      (hlimit : count + 1 ≤ maxTokens)
      (hrun : Reading tables text (read ++ char :: piece) after (char :: piece).getLast? (count + 1)
        lexed.delimiters tokens) :
      Reading tables text read (char :: (piece ++ after)) previous count delimiters
        (placedToken read (char :: piece) kind value literal :: tokens)

section Reading

variable {text read after : List Char} {previous : Option Char} {count : ℕ}
  {delimiters : List (TokenKind × ℕ)} {tokens : List Token}

theorem Reading.text_eq (h : Reading tables text read after previous count delimiters tokens) :
    text = read ++ after := by
  induction h with
  | done => rw [List.append_nil]
  | blank hlexed hafter htoken hrun ih =>
      rw [ih]
      simp
  | token hlexed hafter htoken hlimit hrun ih =>
      rw [ih]
      simp

/-- The main loop reads as its rounds do. -/
theorem Reading.tokenizeFrom_eq (h : Reading tables text read after previous count delimiters tokens) :
    tokenizeFrom tables text.length text 0 previous count delimiters after = .ok tokens := by
  induction h with
  | done => rfl
  | blank hlexed hafter htoken hrun ih =>
      have htext := hrun.text_eq
      rw [List.append_assoc, List.cons_append] at htext
      rw [tokenizeFrom_round htext hlexed hafter, htoken]
      exact ih
  | token hlexed hafter htoken hlimit hrun ih =>
      have htext := hrun.text_eq
      rw [List.append_assoc, List.cons_append] at htext
      rw [tokenizeFrom_round htext hlexed hafter, htoken]
      dsimp only
      rw [if_neg (by omega), ih]
      rfl

theorem reading_of_tokenizeFrom (htext : text = read ++ after)
    (htokens : tokenizeFrom tables text.length text 0 previous count delimiters after = .ok tokens) :
    Reading tables text read after previous count delimiters tokens := by
  induction hlength : after.length using Nat.strong_induction_on
    generalizing read after previous count delimiters tokens with
  | _ length ih =>
      cases after with
      | nil =>
          rw [List.append_nil] at htext
          cases delimiters with
          | nil =>
              cases htokens
              rw [htext]
              exact .done
          | cons open_ delimiters => cases htokens
      | cons char rest =>
          cases hlexed : lexToken tables text.length previous delimiters char rest with
          | error failure =>
              rw [tokenizeFrom, hlexed] at htokens
              cases htokens
          | ok lexed =>
              obtain ⟨piece, hpiece⟩ := lexToken_suffix hlexed
              obtain ⟨after, hafter⟩ : ∃ after, lexed.rest = after := ⟨_, rfl⟩
              rw [hafter] at hpiece
              subst hpiece
              have hshorter : after.length < length := by
                rw [List.length_cons, List.length_append] at hlength
                omega
              have htext' : text = (read ++ char :: piece) ++ after := by
                rw [htext]
                simp
              rw [tokenizeFrom_round htext hlexed hafter] at htokens
              cases htoken : lexed.token with
              | none =>
                  rw [htoken] at htokens
                  exact .blank hlexed hafter htoken (ih _ hshorter htext' htokens rfl)
              | some token =>
                  obtain ⟨kind, value, literal⟩ := token
                  rw [htoken] at htokens
                  dsimp only at htokens
                  split at htokens
                  · cases htokens
                  · rename_i hlimit
                    obtain ⟨later, hlater, rfl⟩ := map_eq_ok.mp htokens
                    exact .token hlexed hafter htoken (by omega) (ih _ hshorter htext' hlater rfl)

theorem reading_of_tokenize (h : tokenize tables text = .ok tokens) :
    Reading tables text [] text none 0 [] tokens :=
  reading_of_tokenizeFrom rfl h

theorem Reading.tokenize_eq (h : Reading tables text [] text none 0 [] tokens) :
    tokenize tables text = .ok tokens :=
  h.tokenizeFrom_eq

/-- A new line is a round without a token. -/
theorem Reading.newline (h : Reading tables text (read ++ ['\n']) after (some '\n') count delimiters tokens) :
    Reading tables text read ('\n' :: after) previous count delimiters tokens := by
  have hlexed : lexToken tables text.length previous delimiters '\n' ([] ++ after) =
      .ok ⟨none, text.length - (after.length + 1), text.length - (after.length + 1), delimiters, after⟩ := rfl
  exact .blank hlexed rfl rfl h

/-! ## Where tokens stand -/

/-- The piece of the text that a token was read from; a quotation has its backquotes at its ends. -/
def StandsIn (text : List Char) (token : Token) : Prop :=
  ∃ read piece after, text = read ++ (piece ++ after) ∧ piece ≠ [] ∧
    token.span = ⟨width read, width (read ++ piece)⟩ ∧
    (token.kind = .hol → ∃ body, piece = backquote :: (body ++ [backquote]) ∧ backquote ∉ body)

theorem StandsIn.covers {text : List Char} {token : Token} (h : StandsIn text token) :
    token.span.start < token.span.stop := by
  obtain ⟨read, piece, after, -, hne, hspan, -⟩ := h
  obtain ⟨char, piece, rfl⟩ := List.exists_cons_of_ne_nil hne
  have hpos := width_pos char piece
  rw [hspan]
  show width read < width (read ++ char :: piece)
  rw [width_append]
  omega

/-- No token starts in front of the reading. -/
theorem Reading.start_le (h : Reading tables text read after previous count delimiters tokens) :
    ∀ token ∈ tokens, width read ≤ token.span.start := by
  induction h with
  | done => nofun
  | blank hlexed hafter htoken hrun ih =>
      intro token hmem
      have hstart := ih token hmem
      rw [width_append] at hstart
      omega
  | token hlexed hafter htoken hlimit hrun ih =>
      intro token hmem
      rcases List.mem_cons.mp hmem with rfl | hmem
      · exact le_rfl
      · have hstart := ih token hmem
        rw [width_append] at hstart
        omega

theorem Reading.standsIn (h : Reading tables text read after previous count delimiters tokens) :
    ∀ token ∈ tokens, StandsIn text token := by
  induction h with
  | done => nofun
  | blank hlexed hafter htoken hrun ih => exact ih
  | @token read piece after char previous count delimiters tokens lexed kind value literal hlexed hafter htoken
      hlimit hrun ih =>
      intro token hmem
      rcases List.mem_cons.mp hmem with rfl | hmem
      · refine ⟨read, char :: piece, after, by rw [hrun.text_eq, List.append_assoc], by simp, rfl, ?_⟩
        rintro rfl
        obtain ⟨rfl, body, hbody, hnotMem⟩ := (lexToken_token hlexed).hol value literal htoken
        have hassoc : body ++ backquote :: after = (body ++ [backquote]) ++ after := by simp
        rw [hafter, hassoc] at hbody
        exact ⟨body, by rw [List.append_cancel_right hbody], hnotMem⟩
      · exact ih token hmem

/-- The tokens are within the limit. -/
theorem Reading.length_le (h : Reading tables text read after previous count delimiters tokens)
    (hcount : count ≤ maxTokens) : count + tokens.length ≤ maxTokens := by
  induction h with
  | done => exact hcount
  | blank hlexed hafter htoken hrun ih => exact ih hcount
  | token hlexed hafter htoken hlimit hrun ih =>
      have hlater := ih hlimit
      rw [List.length_cons]
      omega

/-- In front of a token that starts where the reading is there is none. -/
theorem Reading.eq_nil_of_starts_here {before later : List Token} {token : Token}
    (h : Reading tables text read after previous count delimiters (before ++ token :: later))
    (hstart : token.span.start = width read) : before = [] := by
  have hfurther : ∀ {char : Char} {piece after : List Char} {previous : Option Char} {count : ℕ}
      {delimiters : List (TokenKind × ℕ)} {tokens : List Token},
      Reading tables text (read ++ char :: piece) after previous count delimiters tokens →
        token ∉ tokens := by
    intro char piece after previous count delimiters tokens hrun hmem
    have hle := hrun.start_le token hmem
    have hpos := width_pos char piece
    rw [width_append] at hle
    omega
  generalize htokens : before ++ token :: later = tokens at h
  cases h with
  | done => simp at htokens
  | blank hlexed hafter htoken hrun => exact absurd (by simp [← htokens]) (hfurther hrun)
  | token hlexed hafter htoken hlimit hrun =>
      cases before with
      | nil => rfl
      | cons first before =>
          obtain ⟨-, rfl⟩ := List.cons.inj htokens
          exact absurd (by simp) (hfurther hrun)

end Reading

/-! ## The cut -/

/-- Whether the last of the tokens ends a phrase. -/
def EndsPhrase (tokens : List Token) : Prop :=
  ∀ token ∈ tokens.getLast?, token.kind = .semisemi

/-- A round in front of a token ends before it. -/
theorem Reading.round_before {text read left b piece after : List Char} {char : Char} {previous : Option Char}
    {count : ℕ} {delimiters : List (TokenKind × ℕ)} {tokens : List Token}
    (h : Reading tables text (read ++ char :: piece) after previous count delimiters tokens)
    (hpiece : piece ++ after = left ++ b) {token : Token} (htoken : token ∈ tokens)
    (hcut : token.span.start = width (read ++ char :: left)) :
    ∃ c, left = piece ++ c ∧ after = c ++ b := by
  refine append_split hpiece ?_
  by_contra hlt
  obtain ⟨middle, hmiddle, -⟩ := append_split hpiece.symm (by omega)
  have hstart := h.start_le token htoken
  cases middle with
  | nil =>
      rw [hmiddle, List.append_nil] at hlt
      omega
  | cons first middle =>
      have hpos := width_pos first middle
      have hwidth : width (read ++ char :: piece) =
          width (read ++ char :: left) + width (first :: middle) := by
        rw [hmiddle, ← width_append]
        simp
      omega

theorem EndsPhrase.tail {first : Token} {tokens : List Token} (h : EndsPhrase (first :: tokens)) :
    EndsPhrase tokens ∧ (tokens = [] → first.kind = .semisemi) ∧
      (tokens ≠ [] → ∃ token ∈ tokens, token.kind = .semisemi) := by
  cases tokens with
  | nil => exact ⟨nofun, fun _ => h first rfl, fun hne => absurd rfl hne⟩
  | cons second tokens =>
      have hlast : EndsPhrase (second :: tokens) := h
      refine ⟨hlast, nofun, fun _ => ⟨(second :: tokens).getLast (by simp), List.getLast_mem _, ?_⟩⟩
      exact hlast _ (List.getLast?_eq_some_getLast _)

/-- A round in front of the cut is read again; a line directive that ends there may take the new line. -/
theorem lexToken_cut {size : ℕ} {b next piece c : List Char} (hb : b ≠ []) {char : Char} {previous : Option Char}
    {delimiters : List (TokenKind × ℕ)} {lexed : Lexed}
    (hlexed : lexToken tables size previous delimiters char (piece ++ (c ++ b)) = .ok lexed)
    (hrest : lexed.rest = c ++ b)
    (hahead : lexed.token = none ∨ (∃ value literal, lexed.token = some (.semisemi, value, literal)) ∨ ';' ∈ c)
    {previous' : Option Char} {delimiters' : List (TokenKind × ℕ)}
    (hprevious : startsLine previous' = startsLine previous)
    (hsame : delimiters'.map Prod.fst = delimiters.map Prod.fst) (size' : ℕ) :
    ∃ lexed', lexToken tables size' previous' delimiters' char (piece ++ (c ++ '\n' :: next)) = .ok lexed' ∧
      (SameRound lexed lexed' (c ++ '\n' :: next) ∨
        c = [] ∧ lexed.token = none ∧ SameRound lexed lexed' next) := by
  have hne : lexed.rest ≠ [] := by
    rw [hrest]
    simp [hb]
  have hstop : isStopper ';' = true := rfl
  obtain ⟨piece', hpiece, hread⟩ := lexToken_read hstop hlexed
  rw [hrest] at hpiece
  obtain rfl : piece = piece' := List.append_cancel_right hpiece
  have hahead' : lexed.token = none ∨ (char = ';' ∧ (piece ++ (c ++ b)).head? = some ';') ∨
      SameUpTo ';' lexed.rest (c ++ '\n' :: next) := by
    rcases hahead with hnone | ⟨value, literal, hsemisemi⟩ | hmem
    · exact .inl hnone
    · obtain ⟨hchar, hhead, -⟩ := (lexToken_token hlexed).semisemi value literal hsemisemi
      exact .inr (.inl ⟨hchar, hhead⟩)
    · rw [hrest]
      exact .inr (.inr (.inr (agreeTo_of_mem hmem _ _)))
  obtain ⟨lexed', hlexed', hround⟩ := hread size' previous' delimiters' _ hprevious hsame
    (fun hnil => absurd hnil hne) hahead'
  refine ⟨lexed', hlexed', hround.imp_right ?_⟩
  rintro ⟨line, hline, hhead, htoken, hround⟩
  cases c with
  | nil =>
      cases hline
      exact ⟨rfl, htoken, hround⟩
  | cons first c =>
      cases hline
      rw [hrest] at hhead
      exact absurd rfl hhead

/-- From `read` on the scratch, which has `lead` in front, is read as the source is up to the cut behind
`left`, and on behind the new line there. -/
def ReadAgain (tables : UnicodeTables) (scratch lead next read left : List Char) (previous : Option Char)
    (count : ℕ) (delimiters : List (TokenKind × ℕ)) (before : List Token) : Prop :=
  ∀ previous' delimiters' following, startsLine previous' = startsLine previous →
    delimiters'.map Prod.fst = delimiters.map Prod.fst →
    Reading tables scratch (lead ++ (read ++ left) ++ ['\n']) next (some '\n') (count + before.length) []
      following →
    Reading tables scratch (lead ++ read) (left ++ '\n' :: next) previous' count delimiters'
      (before.map (Token.shift (width lead)) ++ following)

/-- At the cut itself only the new line is left. -/
theorem Reading.cut_here {source read b : List Char} {previous : Option Char} {count : ℕ}
    {delimiters : List (TokenKind × ℕ)} {before later : List Token} {token : Token}
    (h : Reading tables source read b previous count delimiters (before ++ token :: later))
    (hstart : token.span.start = width (read ++ [])) (hopen : before = [] → delimiters = [])
    (scratch lead next : List Char) :
    ((∃ token ∈ before, token.kind = .semisemi) → ';' ∈ ([] : List Char)) ∧
      ReadAgain tables scratch lead next read [] previous count delimiters before := by
  rw [List.append_nil] at hstart
  obtain rfl : before = [] := h.eq_nil_of_starts_here hstart
  refine ⟨nofun, fun previous' delimiters' following hprevious hsame hnext => ?_⟩
  rw [hopen rfl] at hsame
  rw [List.map_eq_nil_iff.mp hsame]
  rw [List.append_nil] at hnext
  exact hnext.newline

/-- The tokens in front of the cut are read again.  The induction also carries that a phrase end among them
has its `;` in front of the cut. -/
theorem Reading.cut {source b : List Char} (hb : b ≠ []) (scratch lead next : List Char)
    {token : Token} {later : List Token} {read after : List Char} {previous : Option Char} {count : ℕ}
    {delimiters : List (TokenKind × ℕ)} {tokens : List Token}
    (h : Reading tables source read after previous count delimiters tokens)
    {left : List Char} {before : List Token} (hleft : after = left ++ b)
    (htokens : tokens = before ++ token :: later) (hstart : token.span.start = width (read ++ left))
    (hends : EndsPhrase before) (hopen : before = [] → delimiters = []) :
    ((∃ token ∈ before, token.kind = .semisemi) → ';' ∈ left) ∧
      ReadAgain tables scratch lead next read left previous count delimiters before := by
  induction h generalizing left before with
  | done => exact absurd (List.append_eq_nil_iff.mp hleft.symm).2 hb
  | @blank read piece after char previous count delimiters tokens lexed hlexed hafter htoken hrun ih =>
      subst htokens
      cases left with
      | nil =>
          subst hleft
          exact (Reading.blank hlexed hafter htoken hrun).cut_here hstart hopen scratch lead next
      | cons first left =>
          obtain ⟨rfl, hpiece⟩ := List.cons.inj hleft
          obtain ⟨c, rfl, rfl⟩ := hrun.round_before hpiece (by simp) hstart
          have hstart' : token.span.start = width ((read ++ char :: piece) ++ c) := by
            rw [hstart]
            simp
          have hclosed : before = [] → lexed.delimiters = [] := fun hnil =>
            ((lexToken_token hlexed).none htoken).trans (hopen hnil)
          obtain ⟨hsemicolon, hnext⟩ := ih rfl rfl hstart' hends hclosed
          refine ⟨fun hmem => List.mem_cons_of_mem _ (List.mem_append_right _ (hsemicolon hmem)),
            fun previous' delimiters' following hprevious hsame hfollowing => ?_⟩
          have hassoc : lead ++ (read ++ char :: (piece ++ c)) = lead ++ (read ++ char :: piece ++ c) := by simp
          rw [hassoc] at hfollowing
          rw [List.cons_append, List.append_assoc]
          obtain ⟨lexed', hlexed', hround⟩ : ∃ lexed', _ ∧ (SameRound lexed lexed' (c ++ '\n' :: next) ∨ _) :=
            lexToken_cut hb hlexed hafter (.inl htoken) hprevious hsame scratch.length
          rcases hround with hround | ⟨rfl, -, hround⟩
          · refine .blank hlexed' hround.rest (hround.token.trans htoken) ?_
            rw [List.append_assoc]
            exact hnext _ _ _ rfl hround.delimiters hfollowing
          -- The line directive in front of the cut has taken the new line.
          · obtain rfl : before = [] := hrun.eq_nil_of_starts_here (by simpa using hstart')
            have hclosed' : lexed'.delimiters = [] := by
              have hdelimiters := hround.delimiters
              rw [hclosed rfl] at hdelimiters
              exact List.map_eq_nil_iff.mp hdelimiters
            have hline : piece ++ ([] ++ '\n' :: next) = (piece ++ ['\n']) ++ next := by simp
            rw [hline] at hlexed' ⊢
            refine .blank hlexed' hround.rest (hround.token.trans htoken) ?_
            have hlast : (char :: (piece ++ ['\n'])).getLast? = some '\n' := by
              rw [← List.cons_append]
              exact List.getLast?_concat
            rw [hclosed', hlast]
            simpa using hfollowing
  | @token read piece after char previous count delimiters tokens lexed kind value literal hlexed hafter htoken
      hlimit hrun ih =>
      cases left with
      | nil =>
          subst hleft
          have hhere := Reading.token hlexed hafter htoken hlimit hrun
          rw [htokens] at hhere
          exact hhere.cut_here hstart hopen scratch lead next
      | cons first left =>
          obtain ⟨rfl, hpiece⟩ := List.cons.inj hleft
          cases before with
          | nil =>
              obtain ⟨rfl, -⟩ := List.cons.inj htokens
              have hpos := width_pos char left
              have hhere : width read = width (read ++ char :: left) := hstart
              rw [width_append] at hhere
              omega
          | cons token' before =>
              obtain ⟨rfl, rfl⟩ := List.cons.inj htokens
              obtain ⟨c, rfl, rfl⟩ := hrun.round_before hpiece (by simp) hstart
              obtain ⟨hends', hlast, hlater⟩ := hends.tail
              have hstart' : token.span.start = width ((read ++ char :: piece) ++ c) := by
                rw [hstart]
                simp
              have hphrase : kind = .semisemi → char = ';' ∧ lexed.delimiters = [] := by
                rintro rfl
                obtain ⟨hchar, -, -, hclosed⟩ := (lexToken_token hlexed).semisemi value literal htoken
                exact ⟨hchar, hclosed⟩
              obtain ⟨hsemicolon, hnext⟩ :=
                ih rfl rfl hstart' hends' (fun hnil => (hphrase (hlast hnil)).2)
              have hahead : lexed.token = none ∨
                  (∃ value literal, lexed.token = some (.semisemi, value, literal)) ∨ ';' ∈ c := by
                by_cases hnil : before = []
                · have hkind : kind = .semisemi := hlast hnil
                  exact .inr (.inl ⟨value, literal, by rw [htoken, hkind]⟩)
                · exact .inr (.inr (hsemicolon (hlater hnil)))
              refine ⟨fun hmem => ?_, fun previous' delimiters' following hprevious hsame hfollowing => ?_⟩
              · obtain ⟨other, hother, hkind⟩ := hmem
                rcases List.mem_cons.mp hother with rfl | hother
                · rw [(hphrase hkind).1]
                  exact List.mem_cons_self
                · exact List.mem_cons_of_mem _ (List.mem_append_right _ (hsemicolon ⟨other, hother, hkind⟩))
              have hassoc : lead ++ (read ++ char :: (piece ++ c)) = lead ++ (read ++ char :: piece ++ c) := by simp
              have hcount : count + (before.length + 1) = count + 1 + before.length := by omega
              rw [hassoc, List.length_cons, hcount] at hfollowing
              rw [List.cons_append, List.append_assoc, List.map_cons, List.cons_append, ← placedToken_append]
              obtain ⟨lexed', hlexed', hround⟩ :
                  ∃ lexed', _ ∧ (SameRound lexed lexed' (c ++ '\n' :: next) ∨ _) :=
                lexToken_cut hb hlexed hafter hahead hprevious hsame scratch.length
              rcases hround with hround | ⟨-, hnone, -⟩
              · refine .token hlexed' hround.rest (hround.token.trans htoken) hlimit ?_
                rw [List.append_assoc]
                exact hnext _ _ _ rfl hround.delimiters hfollowing
              · rw [htoken] at hnone
                cases hnone

end Hearth.Loader
