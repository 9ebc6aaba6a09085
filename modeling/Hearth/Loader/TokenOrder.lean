import Hearth.Library.Outcome
import Hearth.Loader.Lexer

/-!
# The order of the tokens

The tokens of a source lie behind each other: each begins where the one before has ended, or
later.  A word is a token that a rule over tokens may look at: an operator, an identifier or a
loader.  It covers what it was read from, and it is a loader exactly if its spelling is one.
-/

namespace Hearth.Loader

open Hearth.Library

/-! ## Offsets -/

theorem byteOffset_succ_of_lt {text : List Char} {index : ℕ} (h : index < text.length) :
    byteOffset text index < byteOffset text (index + 1) := by
  unfold byteOffset
  rw [List.take_add_one, List.getElem?_eq_getElem h, List.map_append, List.sum_append]
  exact Nat.lt_add_of_pos_right (by simpa using Char.utf8Size_pos _)

theorem byteOffset_mono (text : List Char) : Monotone (byteOffset text) := by
  apply monotone_nat_of_le_succ
  intro index
  rcases Nat.lt_or_ge index text.length with hlt | hge
  · exact (byteOffset_succ_of_lt hlt).le
  · unfold byteOffset
    rw [List.take_of_length_le hge, List.take_of_length_le (by omega)]

theorem byteOffset_lt {text : List Char} {start stop : ℕ} (hlt : start < stop)
    (hstart : start < text.length) : byteOffset text start < byteOffset text stop :=
  calc
    byteOffset text start < byteOffset text (start + 1) := byteOffset_succ_of_lt hstart
    _ ≤ byteOffset text stop := byteOffset_mono text hlt

/-! ## Words -/

/-- The kinds of the tokens that are words. -/
def TokenKind.isWord : TokenKind → Bool
  | .op | .ident | .rawIdent | .loader => true
  | _ => false

/-- `SUPPORTED_LOADERS`. -/
def supportedLoaders : List String := sourceLoaders ++ artifactLoaders

/-- Loaders are spelled like loaders, and identifiers are not. -/
structure SpelledAs (kind : TokenKind) (value : String) : Prop where
  loader : kind = .loader → value ∈ supportedLoaders
  identifier : kind = .ident ∨ kind = .rawIdent → value ∉ supportedLoaders

theorem SpelledAs.of_ne {kind : TokenKind} (value : String) (hloader : kind ≠ .loader)
    (hident : kind ≠ .ident) (hraw : kind ≠ .rawIdent) : SpelledAs kind value :=
  ⟨fun h => absurd h hloader, fun h => absurd h fun h => h.elim hident hraw⟩

theorem wordKind_spelledAs {kind : TokenKind} (hkind : kind ≠ .loader) (value : String) :
    SpelledAs (wordKind kind value) value := by
  have hmem : value ∈ sourceLoaders ∨ value ∈ artifactLoaders ↔ value ∈ supportedLoaders :=
    List.mem_append.symm
  unfold wordKind
  split
  · rename_i h
    exact ⟨fun _ => hmem.mp h, by simp⟩
  · rename_i h
    exact ⟨fun heq => absurd heq hkind, fun _ hvalue => h (hmem.mpr hvalue)⟩

section

variable {tables : UnicodeTables} {size index : ℕ} {char : Char} {rest : List Char}

theorem lexRawIdentifier_word {kind : TokenKind} {value : String} {after : List Char}
    (h : lexRawIdentifier tables size index rest = .ok (kind, value, after)) :
    after.length ≤ rest.length ∧ SpelledAs kind value := by
  unfold lexRawIdentifier at h
  split at h
  · cases h
  split at h
  · cases h
  cases h
  constructor
  · rw [List.length_drop, List.length_tail]
    omega
  · exact wordKind_spelledAs (by decide) _

theorem lexSymbol_word {kind : TokenKind} {value : String} {after : List Char}
    (h : lexSymbol tables index char rest = .ok (kind, value, after)) :
    after.length ≤ rest.length ∧ SpelledAs kind value := by
  unfold lexSymbol at h
  split at h
  · cases h
    exact ⟨le_rfl, .of_ne _ nofun nofun nofun⟩
  split at h
  · cases h
    exact ⟨by simp, .of_ne _ nofun nofun nofun⟩
  split at h
  · cases h
    exact ⟨by simp, .of_ne _ nofun nofun nofun⟩
  split at h <;> cases h

/-- What a round of the main loop says of its token. -/
structure LexedAt (index : ℕ) (rest : List Char) (lexed : Lexed) : Prop where
  start : lexed.tokenStart = index
  word : ∀ kind value literal, lexed.token = some (kind, value, literal) →
    SpelledAs kind value ∧ (kind.isWord = true → lexed.rest.length ≤ rest.length)

theorem lexedAt_of_word {lexed : Lexed} {kind : TokenKind} {value : String}
    {literal : Option (Bytes × Bool)} (hstart : lexed.tokenStart = index)
    (htoken : lexed.token = some (kind, value, literal)) (hrest : lexed.rest.length ≤ rest.length)
    (hspelled : SpelledAs kind value) : LexedAt index rest lexed := by
  refine ⟨hstart, fun kind' value' literal' h => ?_⟩
  rw [htoken] at h
  cases h
  exact ⟨hspelled, fun _ => hrest⟩

theorem lexedAt_of_not_word {lexed : Lexed} {kind : TokenKind} {value : String}
    {literal : Option (Bytes × Bool)} (hstart : lexed.tokenStart = index)
    (htoken : lexed.token = some (kind, value, literal)) (hkind : kind.isWord = false) :
    LexedAt index rest lexed := by
  refine ⟨hstart, fun kind' value' literal' h => ?_⟩
  rw [htoken] at h
  cases h
  refine ⟨.of_ne _ ?_ ?_ ?_, fun hword => absurd (hword.symm.trans hkind) nofun⟩ <;>
    (rintro rfl; cases hkind)

theorem lexPlain_lexedAt {delimiters : List (TokenKind × ℕ)} {lexed : Lexed}
    (h : lexPlain tables size index delimiters char rest = .ok lexed) : LexedAt index rest lexed := by
  unfold lexPlain at h
  dsimp only at h
  split at h
  · split at h
    · cases h
    · cases h
      exact lexedAt_of_not_word rfl rfl rfl
  split at h
  · cases h
    exact lexedAt_of_not_word rfl rfl rfl
  split at h
  · cases h
    exact lexedAt_of_not_word rfl rfl rfl
  split at h
  · rename_i kind hkind
    obtain ⟨next, -, rfl⟩ := map_eq_ok.mp h
    refine lexedAt_of_not_word rfl rfl ?_
    unfold delimiterKind at hkind
    split at hkind <;> cases hkind <;> rfl
  split at h
  · cases h
    exact lexedAt_of_word rfl rfl (by simp) ⟨fun _ => by decide, by simp⟩
  split at h
  · obtain ⟨⟨kind, value, after⟩, hraw, rfl⟩ := map_eq_ok.mp h
    obtain ⟨hrest, hspelled⟩ := lexRawIdentifier_word hraw
    exact lexedAt_of_word rfl rfl hrest hspelled
  split at h
  · cases h
    exact lexedAt_of_word rfl rfl (by simp) (wordKind_spelledAs (by decide) _)
  · obtain ⟨⟨kind, value, after⟩, hsymbol, rfl⟩ := map_eq_ok.mp h
    obtain ⟨hrest, hspelled⟩ := lexSymbol_word hsymbol
    exact lexedAt_of_word rfl rfl hrest hspelled

theorem charOrTypevar_not_word {kind : TokenKind} {value : String} {after : List Char}
    (h : charOrTypevar tables size index rest = .ok (kind, value, after)) : kind.isWord = false := by
  unfold charOrTypevar at h
  split at h
  · cases h
  split at h
  · split at h
    · cases h
    split at h
    · cases h
    split at h <;> cases h
    rfl
  split at h
  · split at h <;> cases h
    rfl
  split at h <;> cases h
  rfl

theorem lexBrace_not_word {kind : TokenKind} {literal : Option (Bytes × Bool)} {after : List Char}
    (h : lexBrace tables size index rest = .ok (some (kind, literal, after))) : kind.isWord = false := by
  unfold lexBrace at h
  split at h
  · obtain ⟨after, -, heq⟩ := map_eq_ok.mp h
    cases heq
    rfl
  split at h
  · cases h
  · obtain ⟨⟨value, after⟩, -, heq⟩ := map_eq_ok.mp h
    cases heq
    rfl
  · split at h <;> cases h

/-- Only the last branch of a round makes words. -/
theorem lexToken_lexedAt {previous : Option Char} {delimiters : List (TokenKind × ℕ)} {lexed : Lexed}
    (h : lexToken tables size previous delimiters char rest = .ok lexed) :
    LexedAt (size - (rest.length + 1)) rest lexed := by
  have hskip : ∀ after, LexedAt (size - (rest.length + 1)) rest
      ⟨none, size - (rest.length + 1), size - (rest.length + 1), delimiters, after⟩ :=
    fun after => ⟨rfl, nofun⟩
  unfold lexToken at h
  dsimp only at h
  split at h
  · cases h
    exact hskip _
  split at h
  · cases h
  · cases h
    exact hskip _
  split at h
  · obtain ⟨after, -, rfl⟩ := map_eq_ok.mp h
    exact hskip _
  split at h
  · obtain ⟨⟨value, after⟩, -, rfl⟩ := map_eq_ok.mp h
    exact lexedAt_of_not_word rfl rfl rfl
  split at h
  · cases h
  · rename_i kind literal after hbrace
    cases h
    split at hbrace
    · exact lexedAt_of_not_word rfl rfl (lexBrace_not_word hbrace)
    · cases hbrace
  split at h
  · obtain ⟨⟨kind, value, after⟩, hchar, rfl⟩ := map_eq_ok.mp h
    exact lexedAt_of_not_word rfl rfl (charOrTypevar_not_word hchar)
  split at h
  · obtain ⟨after, -, rfl⟩ := map_eq_ok.mp h
    exact lexedAt_of_not_word rfl rfl rfl
  · exact lexPlain_lexedAt h

end

/-! ## The stream -/

/-- What a token has from its place in the text. -/
structure WellRead (token : Token) : Prop where
  spelled : SpelledAs token.kind token.value
  covers : token.kind.isWord = true → token.span.start < token.span.stop

/-- The tokens lie behind each other. -/
structure InOrder (tokens : List Token) : Prop where
  order : tokens.Pairwise fun first second => first.span.stop ≤ second.span.start
  read : ∀ token ∈ tokens, WellRead token

/-- The tokens that are still to come begin where the reading is, or later. -/
theorem tokenizeFrom_inOrder {tables : UnicodeTables} {text : List Char} {skip count : ℕ}
    {previous : Option Char} {delimiters : List (TokenKind × ℕ)} {rest : List Char} {tokens : List Token}
    (hrest : rest.length ≤ text.length)
    (h : tokenizeFrom tables text.length text skip previous count delimiters rest = .ok tokens) :
    InOrder tokens ∧
      ∀ token ∈ tokens, byteOffset text (text.length - (rest.length - skip)) ≤ token.span.start := by
  induction rest generalizing skip previous count delimiters tokens with
  | nil =>
      have hnil : tokens = [] := by
        cases delimiters with
        | nil => cases skip <;> cases h <;> rfl
        | cons open_ delimiters => cases skip <;> cases h
      subst hnil
      exact ⟨⟨.nil, nofun⟩, nofun⟩
  | cons char rest ih =>
      have hlength : rest.length + 1 ≤ text.length := hrest
      cases skip with
      | succ skip =>
          rw [tokenizeFrom] at h
          obtain ⟨hinOrder, hstart⟩ := ih (by omega) h
          refine ⟨hinOrder, fun token htoken => ?_⟩
          rw [List.length_cons, Nat.add_sub_add_right]
          exact hstart token htoken
      | zero =>
          rw [tokenizeFrom] at h
          split at h
          · cases h
          rename_i lexed hlexed
          have hat := lexToken_lexedAt hlexed
          dsimp only at h
          -- Behind the characters of this round.
          have hnext : text.length - lexed.rest.length ≤
              text.length - (rest.length - (rest.length - lexed.rest.length)) := by omega
          have hhere : text.length - ((char :: rest).length - 0) ≤
              text.length - (rest.length - (rest.length - lexed.rest.length)) := by
            rw [List.length_cons]
            omega
          split at h
          · obtain ⟨hinOrder, hstart⟩ := ih (by omega) h
            exact ⟨hinOrder, fun token htoken => (byteOffset_mono text hhere).trans (hstart token htoken)⟩
          · rename_i kind value literal htoken
            split at h
            · cases h
            obtain ⟨later, hlater, rfl⟩ := map_eq_ok.mp h
            obtain ⟨hinOrder, hstart⟩ := ih (by omega) hlater
            obtain ⟨hspelled, hword⟩ := hat.word kind value literal htoken
            refine ⟨⟨List.pairwise_cons.mpr ⟨?_, hinOrder.order⟩, ?_⟩, ?_⟩
            · intro token hmem
              exact (byteOffset_mono text hnext).trans (hstart token hmem)
            · intro token hmem
              rcases List.mem_cons.mp hmem with rfl | hmem
              · refine ⟨hspelled, fun hkind => ?_⟩
                have hshorter := hword hkind
                show byteOffset text lexed.tokenStart < byteOffset text (text.length - lexed.rest.length)
                rw [hat.start]
                exact byteOffset_lt (by omega) (by omega)
              · exact hinOrder.read token hmem
            · intro token hmem
              rcases List.mem_cons.mp hmem with rfl | hmem
              · show _ ≤ byteOffset text lexed.tokenStart
                rw [hat.start]
                exact le_rfl
              · exact (byteOffset_mono text hhere).trans (hstart token hmem)

/-- The tokens of an accepted text are in order. -/
theorem tokenize_inOrder {tables : UnicodeTables} {text : List Char} {tokens : List Token}
    (h : tokenize tables text = .ok tokens) : InOrder tokens :=
  (tokenizeFrom_inOrder le_rfl h).1

/-- Of two tokens of a stream the first ends before the second begins. -/
theorem InOrder.lt {tokens : List Token} (h : InOrder tokens) {first second : ℕ} {before after : Token}
    (hbefore : tokens[first]? = some before) (hafter : tokens[second]? = some after)
    (hlt : first < second) : before.span.stop ≤ after.span.start := by
  obtain ⟨hfirst, rfl⟩ := List.getElem?_eq_some_iff.mp hbefore
  obtain ⟨hsecond, rfl⟩ := List.getElem?_eq_some_iff.mp hafter
  exact List.pairwise_iff_getElem.mp h.order first second hfirst hsecond hlt

end Hearth.Loader
