import Hearth.Loader.ProveBindings
import Mathlib.Data.List.Infix

/-!
# Sources that may change the working directory

`source_may_change_cwd`: whether an identifier of a source names a function that changes directory, or a native
declaration.  A source without the bytes of such a name is not read.
-/

namespace Hearth.Loader

open Hearth.Library

/-- The identifiers that `source_may_change_cwd` looks for. -/
def cwdNames : List String :=
  ["chdir", "fchdir", "external"]

/-- `source_may_change_cwd`. -/
def sourceMayChangeCwd (tables : UnicodeTables) (source : Bytes) : Bool :=
  if ¬ (utf8 "chdir" <:+: source ∨ utf8 "external" <:+: source) then false
  else if (scanOcamlLoaders tables source).status ≠ .ok then true
  else (lexedTokens tables source).any fun tokens => tokens.any fun token => token.isIdent cwdNames

/-- An identifier, plain or raw. -/
def Token.isIdentifier (token : Token) : Prop :=
  token.kind = .ident ∨ token.kind = .rawIdent

/-- If the answer is no, no identifier has one of the names. -/
def CwdSound (tables : UnicodeTables) (source : Bytes) : Prop :=
  sourceMayChangeCwd tables source = false → ∀ tokens, lexedTokens tables source = some tokens →
    ∀ token ∈ tokens, token.isIdentifier → token.value ∉ cwdNames

/-- A raw identifier has one of the names only if a plain one has too. -/
def RawWithPlain (tokens : List Token) : Prop :=
  (∃ token ∈ tokens, token.kind = .rawIdent ∧ token.value ∈ cwdNames) →
    ∃ token ∈ tokens, token.kind = .ident ∧ token.value ∈ cwdNames

/-! ## Identifiers stand in the text -/

variable {tables : UnicodeTables} {size : ℕ}

theorem lexRawIdentifier_isInfix {index : ℕ} {kind : TokenKind} {value : String} {rest after : List Char}
    (h : lexRawIdentifier tables size index rest = .ok (kind, value, after)) : value.toList <:+: rest := by
  unfold lexRawIdentifier at h
  split at h
  · nomatch h
  split at h
  · nomatch h
  rename_i hhash hstart
  obtain ⟨-, heq⟩ := Prod.mk.inj (Except.ok.inj h)
  obtain ⟨rfl, -⟩ := Prod.mk.inj heq
  rw [not_not] at hstart
  match rest, hstart with
  | [_], hstart => nomatch hstart
  | hash :: first :: rest, _ =>
      rw [String.toList_ofList]
      refine ⟨[hash], rest.dropWhile (identifierContinue tables), ?_⟩
      simp

theorem lexPlain_isInfix {index : ℕ} {delimiters : List (TokenKind × ℕ)} {char : Char} {rest : List Char} {lexed : Lexed}
    (h : lexPlain tables size index delimiters char rest = .ok lexed) {kind : TokenKind} {value : String}
    {literal : Option (Bytes × Bool)} (htoken : lexed.token = some (kind, value, literal))
    (hkind : kind = .ident ∨ kind = .rawIdent) : value.toList <:+: char :: rest := by
  -- Every other branch gives a token of its own kind.
  have hother : ∀ {other : TokenKind} {value' : String} {literal' : Option (Bytes × Bool)},
      lexed.token = some (other, value', literal') → other ≠ .ident → other ≠ .rawIdent → False := by
    intro other value' literal' hsome hident hraw
    obtain ⟨rfl, -⟩ := Prod.mk.inj (Option.some.inj (htoken.symm.trans hsome))
    exact hkind.elim hident hraw
  unfold lexPlain at h
  dsimp only at h
  split at h
  · split at h
    · nomatch h
    · obtain rfl := Except.ok.inj h
      exact (hother rfl nofun nofun).elim
  split at h
  · obtain rfl := Except.ok.inj h
    exact (hother rfl nofun nofun).elim
  split at h
  · obtain rfl := Except.ok.inj h
    exact (hother rfl nofun nofun).elim
  split at h
  · rename_i delimiter hdelimiter
    obtain ⟨next, -, rfl⟩ := map_eq_ok.mp h
    have hkinds : delimiter ≠ .ident ∧ delimiter ≠ .rawIdent := by
      unfold delimiterKind at hdelimiter
      split at hdelimiter <;> cases hdelimiter <;> exact ⟨nofun, nofun⟩
    exact (hother rfl hkinds.1 hkinds.2).elim
  split at h
  · obtain rfl := Except.ok.inj h
    exact (hother rfl nofun nofun).elim
  split at h
  · obtain ⟨⟨kind', value', after⟩, hraw, rfl⟩ := map_eq_ok.mp h
    obtain ⟨-, heq⟩ := Prod.mk.inj (Option.some.inj htoken)
    obtain ⟨rfl, -⟩ := Prod.mk.inj heq
    exact (lexRawIdentifier_isInfix hraw).trans (List.suffix_cons char rest).isInfix
  split at h
  · obtain rfl := Except.ok.inj h
    obtain ⟨-, heq⟩ := Prod.mk.inj (Option.some.inj htoken)
    obtain ⟨rfl, -⟩ := Prod.mk.inj heq
    rw [String.toList_ofList]
    exact (List.prefix_cons_inj char |>.mpr (List.takeWhile_prefix _)).isInfix
  · obtain ⟨⟨kind', value', after⟩, hsymbol, rfl⟩ := map_eq_ok.mp h
    have hkinds := lexSymbol_kind hsymbol
    rcases hkinds with rfl | rfl <;> exact (hother rfl nofun nofun).elim

/-- An identifier is read by the last branch of a round. -/
theorem lexToken_isInfix {previous : Option Char} {delimiters : List (TokenKind × ℕ)} {char : Char} {rest : List Char}
    {lexed : Lexed} (h : lexToken tables size previous delimiters char rest = .ok lexed) {kind : TokenKind}
    {value : String} {literal : Option (Bytes × Bool)} (htoken : lexed.token = some (kind, value, literal))
    (hkind : kind = .ident ∨ kind = .rawIdent) : value.toList <:+: char :: rest := by
  have hother : ∀ {other : TokenKind} {value' : String} {literal' : Option (Bytes × Bool)},
      lexed.token = some (other, value', literal') → other.isWord = false → False := by
    intro other value' literal' hsome hword
    obtain ⟨rfl, -⟩ := Prod.mk.inj (Option.some.inj (htoken.symm.trans hsome))
    rcases hkind with rfl | rfl <;> nomatch hword
  unfold lexToken at h
  dsimp only at h
  split at h
  · obtain rfl := Except.ok.inj h
    nomatch htoken
  split at h
  · nomatch h
  · obtain rfl := Except.ok.inj h
    nomatch htoken
  split at h
  · obtain ⟨after, -, rfl⟩ := map_eq_ok.mp h
    nomatch htoken
  split at h
  · obtain ⟨⟨value, after⟩, -, rfl⟩ := map_eq_ok.mp h
    exact (hother rfl rfl).elim
  split at h
  · nomatch h
  · rename_i kind literal after hbrace
    obtain rfl := Except.ok.inj h
    split at hbrace
    · exact (hother rfl (lexBrace_not_word hbrace)).elim
    · nomatch hbrace
  split at h
  · obtain ⟨⟨kind, value, after⟩, hchar, rfl⟩ := map_eq_ok.mp h
    exact (hother rfl (charOrTypevar_not_word hchar)).elim
  split at h
  · obtain ⟨after, -, rfl⟩ := map_eq_ok.mp h
    exact (hother rfl rfl).elim
  · exact lexPlain_isInfix h htoken hkind

theorem Reading.identifier_isInfix {text read after : List Char} {previous : Option Char} {count : ℕ}
    {delimiters : List (TokenKind × ℕ)} {tokens : List Token}
    (h : Reading tables text read after previous count delimiters tokens) {token : Token} (hmem : token ∈ tokens)
    (hkind : token.isIdentifier) : token.value.toList <:+: text := by
  induction h with
  | done => nomatch hmem
  | blank hlexed hafter htoken hrun ih => exact ih hmem
  | @token read piece after char previous count delimiters tokens lexed kind value literal hlexed hafter htoken hlimit
      hrun ih =>
      rcases List.mem_cons.mp hmem with rfl | hmem
      · have hinfix := lexToken_isInfix hlexed htoken hkind
        have htext := hrun.text_eq
        have hassoc : text = read ++ (char :: (piece ++ after)) := by simpa using htext
        rw [hassoc]
        exact hinfix.trans (List.suffix_append read _).isInfix
      · exact ih hmem

/-- The bytes of an identifier are in the source. -/
theorem identifier_isInfix {source : Bytes} {tokens : List Token} (h : lexedTokens tables source = some tokens)
    {token : Token} (hmem : token ∈ tokens) (hkind : token.isIdentifier) : utf8 token.value <:+: source := by
  obtain ⟨text, rfl, htokens⟩ := text_of_lexedTokens h
  obtain ⟨front, behind, htext⟩ := (reading_of_tokenize htokens).identifier_isInfix hmem hkind
  refine ⟨encode front, encode behind, ?_⟩
  rw [← htext, encode_append, encode_append]
  rfl

/-! ## What the answer says -/

/-- Without a plain identifier of one of the names in an accepted source, the answer is no. -/
theorem sourceMayChangeCwd_eq_false {source : Bytes} (hok : (scanOcamlLoaders tables source).status = .ok)
    {tokens : List Token} (hlexed : lexedTokens tables source = some tokens)
    (hplain : ∀ token ∈ tokens, token.kind = .ident → token.value ∉ cwdNames) :
    sourceMayChangeCwd tables source = false := by
  unfold sourceMayChangeCwd
  split
  · rfl
  · rw [if_neg (not_not.mpr hok), hlexed, Option.any_some, List.any_eq_false]
    intro token hmem hident
    rw [Token.isIdent, Bool.and_eq_true, decide_eq_true_eq, decide_eq_true_eq] at hident
    exact hplain token hmem hident.1 hident.2

/-- If the answer is no, an accepted source has no plain identifier of one of the names. -/
theorem plain_of_sourceMayChangeCwd {source : Bytes} (hok : (scanOcamlLoaders tables source).status = .ok)
    {tokens : List Token} (hlexed : lexedTokens tables source = some tokens)
    (h : sourceMayChangeCwd tables source = false) {token : Token} (hmem : token ∈ tokens) (hkind : token.kind = .ident) :
    token.value ∉ cwdNames := by
  intro hname
  unfold sourceMayChangeCwd at h
  split at h
  · rename_i hnone
    have hinfix := identifier_isInfix hlexed hmem (.inl hkind)
    obtain ⟨hchdir, hexternal⟩ := not_or.mp hnone
    have hnames : ∀ name ∈ cwdNames, utf8 "chdir" <:+: utf8 name ∨ utf8 "external" <:+: utf8 name := by decide
    rcases hnames _ hname with hbytes | hbytes
    · exact hchdir (hbytes.trans hinfix)
    · exact hexternal (hbytes.trans hinfix)
  · rw [if_neg (not_not.mpr hok), hlexed, Option.any_some, List.any_eq_false] at h
    refine h token hmem ?_
    rw [Token.isIdent, Bool.and_eq_true, decide_eq_true_eq, decide_eq_true_eq]
    exact ⟨hkind, hname⟩

/-- Of an accepted source the answer is sound if and only if no raw identifier alone has one of the names. -/
theorem cwdSound_iff {source : Bytes} (hok : (scanOcamlLoaders tables source).status = .ok) :
    CwdSound tables source ↔ ∀ tokens, lexedTokens tables source = some tokens → RawWithPlain tokens := by
  constructor
  · rintro hsound tokens hlexed ⟨token, hmem, hraw, hname⟩
    by_contra hnone
    have hanswer := sourceMayChangeCwd_eq_false hok hlexed fun token hmem hident hname =>
      hnone ⟨token, hmem, hident, hname⟩
    exact hsound hanswer tokens hlexed token hmem (.inr hraw) hname
  · intro hraw hanswer tokens hlexed token hmem hkind hname
    rcases hkind with hident | hkind
    · exact plain_of_sourceMayChangeCwd hok hlexed hanswer hmem hident hname
    · obtain ⟨plain, hplain, hident, hnamed⟩ := hraw tokens hlexed ⟨token, hmem, hkind, hname⟩
      exact plain_of_sourceMayChangeCwd hok hlexed hanswer hplain hident hnamed

/-- The equivalence at a source with a plain identifier. -/
theorem plain_chdir_found :
    CwdSound .ascii (utf8 "Sys.chdir d;;") ↔
      ∀ tokens, lexedTokens .ascii (utf8 "Sys.chdir d;;") = some tokens → RawWithPlain tokens :=
  cwdSound_iff (by decide +kernel)

/-- A raw identifier is missed. -/
theorem raw_chdir_missed :
    (scanOcamlLoaders .ascii (utf8 "Sys.\\#chdir d;;")).status = .ok ∧ ¬ CwdSound .ascii (utf8 "Sys.\\#chdir d;;") := by
  refine ⟨by decide +kernel, fun hsound => ?_⟩
  have hread : (lexedTokens .ascii (utf8 "Sys.\\#chdir d;;")).any
      (·.any fun token => token.kind = .rawIdent ∧ token.value = "chdir") = true := by decide +kernel
  obtain ⟨tokens, hlexed, hany⟩ := (Option.any_eq_true _ _).mp hread
  obtain ⟨token, hmem, htoken⟩ := List.any_eq_true.mp hany
  obtain ⟨hkind, hvalue⟩ := of_decide_eq_true htoken
  exact hsound (by decide +kernel) tokens hlexed token hmem (.inr hkind) (by rw [hvalue]; decide)

end Hearth.Loader
