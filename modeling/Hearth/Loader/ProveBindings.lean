import Hearth.Loader.Cut
import Hearth.Loader.Completeness

/-!
# Literal prove phrases

`scan_prove_bindings`: the complete top-level phrases `let NAME = [time] prove (...);;` of a source.
-/

namespace Hearth.Loader

open Hearth.Library

/-- `bytes_from`. -/
def ByteSpan.bytesFrom (span : ByteSpan) (source : Bytes) : Bytes :=
  (source.take span.stop).drop span.start

/-- `ProveBinding`. -/
structure ProveBinding where
  name : String
  bindingSpan : ByteSpan
  statementSpan : ByteSpan
  tacticSpan : ByteSpan
  sourceLine : ℕ
  deriving DecidableEq, Repr

/-- `ProveBindingScanResult`, without the digest of the source. -/
structure ProveBindingScanResult where
  status : ScanStatus
  bindings : List ProveBinding
  refusal : Option LoaderScanRefusal
  deriving DecidableEq, Repr

/-! ## Phrases -/

/-- The open blocks behind a token; `none` for an `end` without a block. -/
def stepBlocks (token : Token) (blocks : List String) : Option (List String) :=
  if token.isIdent ["begin", "struct", "sig", "object"] then some (token.value :: blocks)
  else if token.isIdent ["end"] then
    match blocks with
    | [] => none
    | _ :: blocks => some blocks
  else some blocks

/-- The closers expected behind a token; the lexer has checked that they match. -/
def stepClosers (token : Token) (closers : List TokenKind) : List TokenKind :=
  match token.kind.closer with
  | some closer => closer :: closers
  | none => if token.kind.isClose then closers.tail else closers

/-- The loop of `_top_level_phrases`, with the tokens of the open phrase. -/
def topLevelPhrasesFrom (phrase : List Token) (blocks : List String) (closers : List TokenKind) :
    List Token → Option (List (List Token))
  | [] => if blocks = [] then some [] else none
  | token :: rest =>
      match stepBlocks token blocks with
      | none => none
      | some blocks =>
          let closers := stepClosers token closers
          if token.kind = .semisemi ∧ blocks = [] ∧ closers = [] then
            (topLevelPhrasesFrom [] blocks closers rest).map ((phrase ++ [token]) :: ·)
          else topLevelPhrasesFrom (phrase ++ [token]) blocks closers rest

/-- `_top_level_phrases`. -/
def topLevelPhrases (tokens : List Token) : Option (List (List Token)) :=
  topLevelPhrasesFrom [] [] [] tokens

/-! ## Names -/

/-- The names that the binding headers count, each once a header; `header` is the set of names of the
open header. -/
def headerNamesFrom (header : Option (List String)) : List Token → List String
  | [] => []
  | token :: rest =>
      if token.isIdent ["let", "and"] then headerNamesFrom (some []) rest
      else
        match header with
        | none => headerNamesFrom none rest
        | some names =>
            if token.value = "=" ∨ token.kind = .semisemi then names ++ headerNamesFrom none rest
            else if token.kind = .ident then headerNamesFrom (some (names.insert token.value)) rest
            else headerNamesFrom (some names) rest

/-- `name_counts.get(name)`. -/
def nameCount (tokens : List Token) (name : String) : ℕ :=
  (headerNamesFrom none tokens).count name

/-! ## Bindings -/

/-- What the first delimiter of the list encloses, with itself; its closer; and what follows. -/
def enclosedFrom (depth : ℕ) : List Token → Option (List Token × Token × List Token)
  | [] => none
  | item :: rest =>
      if item.kind.closer.isSome then
        (enclosedFrom (depth + 1) rest).map fun (inside, close, after) => (item :: inside, close, after)
      else if item.kind.isClose then
        if depth - 1 = 0 then some ([], item, rest)
        else (enclosedFrom (depth - 1) rest).map fun (inside, close, after) => (item :: inside, close, after)
      else (enclosedFrom depth rest).map fun (inside, close, after) => (item :: inside, close, after)

/-- Whether a comma separates a second field, outside of every delimiter. -/
def extraFieldFrom (depth : ℤ) : List Token → Bool
  | [] => false
  | item :: rest =>
      if item.kind.closer.isSome then extraFieldFrom (depth + 1) rest
      else if item.kind.isClose then extraFieldFrom (depth - 1) rest
      else (item.kind = .comma && depth = 0) || extraFieldFrom depth rest

/-- The rows of `scan_prove_bindings` for one phrase. -/
def proveBinding (source : Bytes) (tokens current : List Token) : Option ProveBinding :=
  if current.length < 10 then none
  else
    match current with
    | opening :: named :: equals :: body =>
        if ¬ (opening.isIdent ["let"] ∧ named.kind = .ident ∧ equals.value = "=") then none
        else if nameCount tokens named.value ≠ 1 then none
        else
          let body := if body.head?.any (·.value = "time") then body.tail else body
          match body with
          | prove :: paren :: quoted :: comma :: rest =>
              if ¬ prove.isIdent ["prove"] then none
              else if ¬ (paren.kind = .lparen ∧ quoted.kind = .hol ∧ comma.kind = .comma) then none
              else
                match enclosedFrom 0 (paren :: quoted :: comma :: rest) with
                | some (inside, close, [last]) =>
                    -- The prove tuple must close immediately before the phrase terminator.
                    if close.kind ≠ .rparen then none
                    else if inside.drop 3 = [] then none
                    else if extraFieldFrom 0 (inside.drop 3) then none
                    else
                      some ⟨named.value, ⟨opening.span.start, last.span.stop⟩, quoted.span,
                        ⟨comma.span.stop, close.span.start⟩, lineForByte source opening.span.start⟩
                | _ => none
          | _ => none
    | _ => none

/-- The tokens of a source that decodes. -/
def lexedTokens (tables : UnicodeTables) (source : Bytes) : Option (List Token) :=
  (String.fromUTF8? ⟨source.toArray⟩).bind fun text => (tokenize tables text.toList).toOption

/-- `scan_prove_bindings`. -/
def scanProveBindings (tables : UnicodeTables) (source : Bytes) : ProveBindingScanResult :=
  let checked := scanOcamlLoaders tables source
  if checked.status ≠ .ok then ⟨.refused, [], checked.refusal⟩
  else
    match lexedTokens tables source with
    | none => ⟨.refused, [], none⟩  -- An accepted source decodes, and its tokens are read again.
    | some tokens =>
        match topLevelPhrases tokens with
        | none => ⟨.ok, [], none⟩
        | some phrases => ⟨.ok, phrases.filterMap (proveBinding source tokens), none⟩

/-! ## Bytes and characters -/

theorem encode_append (first second : List Char) : encode (first ++ second) = encode first ++ encode second :=
  List.flatMap_append

theorem length_encode (text : List Char) : (encode text).length = width text := by
  induction text with
  | nil => rfl
  | cons char text ih =>
      show (String.utf8EncodeChar char ++ encode text).length = width (char :: text)
      rw [List.length_append, ih, String.length_utf8EncodeChar]
      rfl

theorem toByteArray_encode (text : List Char) : (⟨(encode text).toArray⟩ : ByteArray) = text.utf8Encode := by
  apply ByteArray.ext
  exact List.data_toByteArray.symm

theorem fromUTF8?_encode (text : List Char) :
    String.fromUTF8? ⟨(encode text).toArray⟩ = some (String.ofList text) := by
  have hvalid : ByteArray.IsValidUTF8 ⟨(encode text).toArray⟩ := by
    rw [toByteArray_encode]
    exact ByteArray.isValidUTF8_utf8Encode
  rw [String.fromUTF8?, dif_pos hvalid]
  congr 1
  apply String.toByteArray_inj.mp
  rw [String.toByteArray_ofList]
  exact toByteArray_encode text

theorem eq_encode_of_fromUTF8? {source : Bytes} {text : String}
    (h : String.fromUTF8? ⟨source.toArray⟩ = some text) : source = encode text.toList := by
  rw [String.fromUTF8?] at h
  split at h
  · cases h
    rename_i hvalid
    have hbytes : (String.fromUTF8 ⟨source.toArray⟩ hvalid).toList.utf8Encode = ⟨source.toArray⟩ :=
      String.utf8Encode_toList
    rw [← toByteArray_encode] at hbytes
    simpa using congrArg (fun bytes : ByteArray => bytes.data.toList) hbytes.symm
  · cases h

theorem lexedTokens_encode (tables : UnicodeTables) (text : List Char) :
    lexedTokens tables (encode text) = (tokenize tables text).toOption := by
  unfold lexedTokens
  rw [fromUTF8?_encode, Option.bind_some, String.toList_ofList]

/-- A text that the lexer accepts is scanned. -/
theorem scanOcamlLoaders_encode {tables : UnicodeTables} {text : List Char} {tokens : List Token}
    (hsize : (encode text).length ≤ maxSourceBytes) (htokens : tokenize tables text = .ok tokens) :
    scanOcamlLoaders tables (encode text) =
        ⟨.ok, (encode text).length, classifyTokens (encode text) tables tokens, none⟩ ∧
      lexedTokens tables (encode text) = some tokens := by
  constructor
  · unfold scanOcamlLoaders
    rw [if_neg (by omega), fromUTF8?_encode]
    dsimp only
    rw [String.toList_ofList, htokens]
  · rw [lexedTokens_encode, htokens]
    rfl

/-- The tokens of a source are those of the text that it encodes. -/
theorem text_of_lexedTokens {tables : UnicodeTables} {source : Bytes} {tokens : List Token}
    (h : lexedTokens tables source = some tokens) : ∃ text, source = encode text ∧ tokenize tables text = .ok tokens := by
  obtain ⟨text, htext, hread⟩ := Option.bind_eq_some_iff.mp h
  refine ⟨text.toList, eq_encode_of_fromUTF8? htext, ?_⟩
  cases hlexed : tokenize tables text.toList with
  | error failure =>
      rw [hlexed] at hread
      nomatch hread
  | ok others =>
      rw [hlexed] at hread
      exact congrArg Except.ok (Option.some.inj hread)

/-- The bytes of a piece of a text. -/
theorem bytesFrom_encode (read piece after : List Char) :
    (⟨width read, width (read ++ piece)⟩ : ByteSpan).bytesFrom (encode (read ++ (piece ++ after))) =
      encode piece := by
  have hstop : width (read ++ piece) = (encode read ++ encode piece).length := by
    rw [← length_encode, encode_append]
  unfold ByteSpan.bytesFrom
  rw [encode_append, encode_append, ← List.append_assoc, hstop, List.take_left, ← length_encode,
    List.drop_left]

/-! ## The phrase of a binding -/

theorem EndsPhrase.append_singleton {phrase : List Token} {token : Token} (h : token.kind = .semisemi) :
    EndsPhrase (phrase ++ [token]) := by
  intro last hlast
  rw [List.getLast?_concat] at hlast
  cases hlast
  exact h

theorem EndsPhrase.append {first second : List Token} (hfirst : EndsPhrase first) (hsecond : EndsPhrase second) :
    EndsPhrase (first ++ second) := by
  cases second with
  | nil => rwa [List.append_nil]
  | cons token second =>
      intro last hlast
      rw [List.getLast?_append_of_ne_nil _ (by simp)] at hlast
      exact hsecond last hlast

/-- The tokens in front of a phrase end a phrase, or there are none. -/
theorem topLevelPhrasesFrom_split {phrase : List Token} {blocks : List String} {closers : List TokenKind}
    {tokens : List Token} {phrases : List (List Token)}
    (h : topLevelPhrasesFrom phrase blocks closers tokens = some phrases) {current : List Token}
    (hcurrent : current ∈ phrases) :
    ∃ before after, phrase ++ tokens = before ++ (current ++ after) ∧ EndsPhrase before := by
  induction tokens generalizing phrase blocks closers phrases with
  | nil =>
      rw [topLevelPhrasesFrom] at h
      split at h
      · cases h
        exact absurd hcurrent List.not_mem_nil
      · cases h
  | cons token tokens ih =>
      rw [topLevelPhrasesFrom] at h
      split at h
      · cases h
      rename_i blocks' hblocks
      dsimp only at h
      have hassoc : phrase ++ token :: tokens = (phrase ++ [token]) ++ tokens := by simp
      rw [hassoc]
      split at h
      · rename_i hends
        obtain ⟨later, hlater, rfl⟩ := Option.map_eq_some_iff.mp h
        rcases List.mem_cons.mp hcurrent with rfl | hcurrent
        · exact ⟨[], tokens, rfl, nofun⟩
        · obtain ⟨before, after, htokens, hbefore⟩ := ih hlater hcurrent
          rw [List.nil_append] at htokens
          refine ⟨(phrase ++ [token]) ++ before, after, by rw [htokens]; simp, ?_⟩
          exact (EndsPhrase.append_singleton hends.1).append hbefore
      · exact ih h hcurrent

theorem enclosedFrom_split {depth : ℕ} {tokens inside after : List Token} {close : Token}
    (h : enclosedFrom depth tokens = some (inside, close, after)) : tokens = inside ++ close :: after := by
  induction tokens generalizing depth inside with
  | nil => cases h
  | cons item tokens ih =>
      rw [enclosedFrom] at h
      split at h
      · obtain ⟨⟨inside', close', after'⟩, hrest, heq⟩ := Option.map_eq_some_iff.mp h
        cases heq
        rw [ih hrest]
        rfl
      split at h
      · split at h
        · cases h
          rfl
        · obtain ⟨⟨inside', close', after'⟩, hrest, heq⟩ := Option.map_eq_some_iff.mp h
          cases heq
          rw [ih hrest]
          rfl
      · obtain ⟨⟨inside', close', after'⟩, hrest, heq⟩ := Option.map_eq_some_iff.mp h
        cases heq
        rw [ih hrest]
        rfl

/-- Where the tokens of a literal prove phrase stand: the phrase begins with `opening`, and `quoted`, a
quotation, is followed by `comma`, the tactic and `close`. -/
structure ProvePhrase (binding : ProveBinding) (current : List Token) (opening quoted comma close : Token) :
    Prop where
  begins : ∃ rest, current = opening :: rest
  start : binding.bindingSpan.start = opening.span.start
  quotation : quoted.kind = .hol
  statement : binding.statementSpan = quoted.span
  tactic : binding.tacticSpan = ⟨comma.span.stop, close.span.start⟩
  order : ∃ first middle last, current = first ++ quoted :: comma :: (middle ++ close :: last)

theorem proveBinding_phrase {source : Bytes} {tokens current : List Token} {binding : ProveBinding}
    (h : proveBinding source tokens current = some binding) :
    ∃ opening quoted comma close, ProvePhrase binding current opening quoted comma close := by
  unfold proveBinding at h
  split at h
  · cases h
  split at h
  · rename_i opening named equals body hlength
    split at h
    · cases h
    split at h
    · cases h
    dsimp only at h
    split at h
    · rename_i prove paren quoted comma rest hbody
      split at h
      · cases h
      split at h
      · cases h
      rename_i hkinds
      split at h
      · rename_i inside close last henclosed
        split at h
        · cases h
        split at h
        · cases h
        rename_i htactic
        split at h
        · cases h
        cases h
        have hkinds := not_not.mp hkinds
        refine ⟨opening, quoted, comma, close, ⟨_, rfl⟩, rfl, hkinds.2.1, rfl, rfl, ?_⟩
        have hsplit := enclosedFrom_split henclosed
        obtain ⟨start, hstart⟩ : ∃ start, body = start ++ prove :: paren :: quoted :: comma :: rest := by
          split at hbody
          · exact ⟨body.take 1, by rw [← hbody, ← List.drop_one, List.take_append_drop]⟩
          · exact ⟨[], hbody⟩
        obtain ⟨middle, hinside⟩ : ∃ middle, inside = paren :: quoted :: comma :: middle := by
          match inside, hsplit, htactic with
          | [], _, htactic => exact absurd rfl htactic
          | [_], _, htactic => exact absurd rfl htactic
          | [_, _], _, htactic => exact absurd rfl htactic
          | _ :: _ :: _ :: middle, hsplit, _ =>
              cases hsplit
              exact ⟨middle, rfl⟩
        rw [hinside] at hsplit
        refine ⟨opening :: named :: equals :: (start ++ [prove, paren]), middle, [last], ?_⟩
        rw [hstart, hsplit]
        simp
      · cases h
    · cases h
  · cases h

/-! ## The cut in front of a binding -/

/-- Of two beginnings of a text the narrower begins the wider. -/
theorem exists_append_of_width_le {first second after after' : List Char}
    (h : first ++ after = second ++ after') (hle : width first ≤ width second) :
    ∃ middle, second = first ++ middle := by
  rcases List.append_eq_append_iff.mp h with ⟨middle, hmiddle, -⟩ | ⟨middle, hmiddle, -⟩
  · exact ⟨middle, hmiddle⟩
  · cases middle with
    | nil => exact ⟨[], by rw [hmiddle]; simp⟩
    | cons char middle =>
        have hpos := width_pos char middle
        rw [hmiddle, width_append] at hle
        omega

/-- A binding of a source, which is cut in front of it: what the binding's spans hold, and the tokens of
the source. -/
structure BindingCut (tables : UnicodeTables) (source : Bytes) (binding : ProveBinding)
    (sourcePrefix following body tactic : List Char) (tokens before later : List Token) (token : Token) :
    Prop where
  encoded : source = encode (sourcePrefix ++ following)
  lexed : lexedTokens tables source = some tokens
  tokenized : tokenize tables (sourcePrefix ++ following) = .ok tokens
  split : tokens = before ++ token :: later
  start : token.span.start = width sourcePrefix
  bindingStart : binding.bindingSpan.start = width sourcePrefix
  follows : following ≠ []
  endsPhrase : EndsPhrase before
  limit : before.length + 3 ≤ maxTokens
  statement : binding.statementSpan.bytesFrom source = encode (backquote :: (body ++ [backquote]))
  quotation : backquote ∉ body
  tactic : binding.tacticSpan.bytesFrom source = encode tactic

/-- A source that is refused, or whose phrases do not end, has no bindings; every other has those of its phrases. -/
theorem scanProveBindings_bindings (tables : UnicodeTables) (source : Bytes) :
    (scanProveBindings tables source).bindings = [] ∨
      ∃ text tokens phrases, source = encode text ∧ lexedTokens tables source = some tokens ∧
        tokenize tables text = .ok tokens ∧ topLevelPhrases tokens = some phrases ∧
        (scanProveBindings tables source).bindings = phrases.filterMap (proveBinding source tokens) := by
  unfold scanProveBindings
  dsimp only
  split
  · exact .inl rfl
  split
  · exact .inl rfl
  rename_i tokens htokens
  split
  · exact .inl rfl
  rename_i phrases hphrases
  obtain ⟨text, htext, hlexed⟩ := text_of_lexedTokens htokens
  exact .inr ⟨text, tokens, phrases, htext, htokens, hlexed, hphrases, rfl⟩

theorem mem_scanProveBindings {tables : UnicodeTables} {source : Bytes} {binding : ProveBinding}
    (h : binding ∈ (scanProveBindings tables source).bindings) :
    ∃ text tokens phrases current, source = encode text ∧ lexedTokens tables source = some tokens ∧
      tokenize tables text = .ok tokens ∧ topLevelPhrases tokens = some phrases ∧ current ∈ phrases ∧
      proveBinding source tokens current = some binding := by
  rcases scanProveBindings_bindings tables source with hnil | ⟨text, tokens, phrases, htext, hlexed, htokens, hphrases, heq⟩
  · rw [hnil] at h
    exact absurd h List.not_mem_nil
  · rw [heq] at h
    obtain ⟨current, hcurrent, hbinding⟩ := List.mem_filterMap.mp h
    exact ⟨text, tokens, phrases, current, htext, hlexed, htokens, hphrases, hcurrent, hbinding⟩

theorem exists_bindingCut {tables : UnicodeTables} {source : Bytes} {binding : ProveBinding}
    (h : binding ∈ (scanProveBindings tables source).bindings) :
    ∃ sourcePrefix following body tactic tokens before later token,
      BindingCut tables source binding sourcePrefix following body tactic tokens before later token := by
  obtain ⟨text, tokens, phrases, current, hsource, hlexed, htokens, hphrases, hcurrent, hbinding⟩ :=
    mem_scanProveBindings h
  obtain ⟨before, after, hsplit, hends⟩ := topLevelPhrasesFrom_split hphrases hcurrent
  obtain ⟨opening, quoted, comma, close, hphrase⟩ := proveBinding_phrase hbinding
  obtain ⟨rest, hopening⟩ := hphrase.begins
  obtain ⟨first, middle, last, horder⟩ := hphrase.order
  rw [List.nil_append] at hsplit
  have hreading := reading_of_tokenize htokens
  have hstands := hreading.standsIn
  have hmem : ∀ token ∈ current, token ∈ tokens := by
    intro token htoken
    rw [hsplit]
    exact List.mem_append_right _ (List.mem_append_left _ htoken)
  -- The prefix ends where the first token of the phrase stands.
  obtain ⟨sourcePrefix, piece, following, htext, hpiece, hspan, -⟩ :=
    hstands opening (hmem opening (by rw [hopening]; simp))
  obtain ⟨read, quote, behind, hquoteText, -, hquoteSpan, hquote⟩ :=
    hstands quoted (hmem quoted (by rw [horder]; simp))
  obtain ⟨body, rfl, hbody⟩ := hquote hphrase.quotation
  obtain ⟨commaRead, commaPiece, commaAfter, hcommaText, -, hcommaSpan, -⟩ :=
    hstands comma (hmem comma (by rw [horder]; simp))
  obtain ⟨closeRead, closePiece, closeAfter, hcloseText, -, hcloseSpan, -⟩ :=
    hstands close (hmem close (by rw [horder]; simp))
  obtain ⟨tactic, htactic⟩ : ∃ tactic, closeRead = commaRead ++ commaPiece ++ tactic := by
    have hpairs := (tokenize_inOrder htokens).order
    have hcomma : tokens = (before ++ (first ++ [quoted])) ++ comma :: (middle ++ close :: last ++ after) := by
      rw [hsplit, horder]
      simp
    rw [hcomma] at hpairs
    have hbehind := (List.pairwise_cons.mp (List.pairwise_append.mp hpairs).2.1).1 close (by simp)
    rw [hcommaSpan, hcloseSpan] at hbehind
    exact exists_append_of_width_le (by rw [List.append_assoc, ← hcommaText, hcloseText]) hbehind
  have htokensSplit : tokens = before ++ opening :: (rest ++ after) := by
    rw [hsplit, hopening]
    simp
  have hcurrent : 3 ≤ current.length := by
    rw [horder]
    simp
    omega
  have hlimit := hreading.length_le (Nat.zero_le _)
  refine ⟨sourcePrefix, piece ++ following, body, tactic, tokens, before, rest ++ after, opening,
    by rw [hsource, htext], hlexed, htext ▸ htokens, htokensSplit, by rw [hspan], by rw [hphrase.start, hspan],
    by simp [hpiece], hends, ?_, ?_, hbody, ?_⟩
  · rw [htokensSplit, ← List.cons_append, ← hopening, List.length_append, List.length_append] at hlimit
    omega
  · rw [hphrase.statement, hquoteSpan, hsource, hquoteText, bytesFrom_encode]
  · have htext' : text = (commaRead ++ commaPiece) ++ (tactic ++ (closePiece ++ closeAfter)) := by
      rw [hcloseText, htactic]
      simp
    rw [hphrase.tactic, hcommaSpan, hcloseSpan, hsource, htext', htactic, bytesFrom_encode]

/-- The tokens in front of the cut are those that start before the binding. -/
theorem BindingCut.before_eq {tables : UnicodeTables} {source : Bytes} {binding : ProveBinding}
    {sourcePrefix following body tactic : List Char} {tokens before later : List Token} {token : Token}
    (h : BindingCut tables source binding sourcePrefix following body tactic tokens before later token) :
    tokens.filter (fun other => other.span.start < binding.bindingSpan.start) = before := by
  have hpairs := (tokenize_inOrder h.tokenized).order
  have hstands := (reading_of_tokenize h.tokenized).standsIn
  rw [h.split] at hpairs hstands ⊢
  obtain ⟨-, hlater, hbefore⟩ := List.pairwise_append.mp hpairs
  rw [List.filter_append, List.filter_eq_self.mpr, List.filter_eq_nil_iff.mpr, List.append_nil]
  · intro other hother
    rw [h.bindingStart, ← h.start, decide_eq_true_eq, Nat.not_lt]
    rcases List.mem_cons.mp hother with rfl | hother
    · exact le_rfl
    · have hcovers := (hstands token (by simp)).covers
      have hbehind := (List.pairwise_cons.mp hlater).1 other hother
      omega
  · intro other hother
    rw [h.bindingStart, ← h.start, decide_eq_true_eq]
    have hcovers := (hstands other (List.mem_append_left _ hother)).covers
    have hbehind := hbefore other hother token List.mem_cons_self
    omega

end Hearth.Loader
