import Hearth.Loader.Literal
import Hearth.Library.Json

/-!
# The phrase of a basis preload

`_basis_preload_phrase` in `proof_run_fork_broker.py` writes its path and its marker as JSON strings into an OCaml
phrase.  The two languages share the escapes of the quote, the backslash, the newline, the return, the tab and the
backspace.  OCaml refuses the `\u` of JSON, and reads the `\f` as two characters.
-/

namespace Hearth.Broker

open Hearth.Library
open Hearth.Loader

/-- `BROKER_PRELOAD_OK_PREFIX` and the name of the preload: the marker that `_start_basis` asks for. -/
def preloadToken (name : String) : String :=
  "__PROOF_RUN_FORK_BROKER_PRELOAD_OK__:" ++ name

/-- `_basis_preload_phrase`, before it is encoded. -/
def basisPreloadPhrase (preload token : String) : List Char :=
  let path := Json.renderString preload
  let marker := Json.renderString token
  "if Toploop.use_file Format.std_formatter ".toList ++ path ++
    " then (loaded_files := ".toList ++
    ("(Filename.basename ".toList ++ path ++ ",Digest.file ".toList ++ path ++ ")::!loaded_files; ".toList) ++
    ("print_endline ".toList ++ marker ++ ") ".toList) ++
    "else exit 78;;".toList

/-- The characters that both languages write alike. -/
def isShared (char : Char) : Bool :=
  (0x20 ≤ char.toNat && char.toNat ≤ 0x7E) || char ∈ ['\x08', '\t', '\n', '\r']

/-! ## A JSON string read as OCaml -/

/-- What OCaml reads where JSON wrote a character; `none` if it refuses the escape. -/
def denotedChar (char : Char) : Option Bytes :=
  if isShared char then some (String.utf8EncodeChar char)
  else if char = '\x0c' then some [0x5C, 0x66]
  else none

/-- What OCaml reads where JSON wrote a text. -/
def denoted : List Char → Option Bytes
  | [] => some []
  | char :: rest => do some ((← denotedChar char) ++ (← denoted rest))

section

variable {size start : ℕ} {value : Bytes}

theorem toNat_of_isShared {char : Char} (h : isShared char = true) : char.toNat < 128 := by
  simp only [isShared, Bool.or_eq_true, Bool.and_eq_true, decide_eq_true_eq, List.mem_cons, List.not_mem_nil,
    or_false] at h
  rcases h with ⟨-, h⟩ | rfl | rfl | rfl | rfl
  · omega
  all_goals decide

/-- The escape of a shared character is one byte. -/
theorem escapesByte_renderChar {char : Char} (h : isShared char = true) :
    ∃ byte, String.utf8EncodeChar char = [byte] ∧ escapesByte (Json.renderChar char) byte = true := by
  have hencode := utf8EncodeChar_ascii (toNat_of_isShared h)
  refine ⟨_, hencode, ?_⟩
  have hall : ∀ other ∈ ['"', '\\', '\n', '\r', '\t', '\x08'],
      escapesByte (Json.renderChar other) (UInt8.ofNat other.toNat) = true := by
    intro other hother
    simp only [List.mem_cons, List.not_mem_nil, or_false] at hother
    rcases hother with rfl | rfl | rfl | rfl | rfl | rfl <;> rfl
  by_cases hmem : char ∈ ['"', '\\', '\n', '\r', '\t', '\x08']
  · exact hall char hmem
  · simp only [List.mem_cons, List.not_mem_nil, or_false, not_or] at hmem
    obtain ⟨hquote, hslash, hnewline, hreturn, htab, hback⟩ := hmem
    have hprintable : 0x20 ≤ char.toNat ∧ char.toNat ≤ 0x7E := by
      simpa [isShared, hback, htab, hnewline, hreturn] using h
    have hfeed : char ≠ '\x0c' := by
      rintro rfl
      exact absurd hprintable.1 (by decide)
    have hplain : Json.renderChar char = [char] := by
      simp [Json.renderChar, hquote, hslash, hnewline, hreturn, htab, hback, hfeed, hprintable]
    rw [hplain]
    exact escapesByte_singleton hprintable.1 hprintable.2 hquote hslash

theorem ordinaryStringFrom_shared {char : Char} (h : isShared char = true) (rest : List Char) :
    ordinaryStringFrom size start 0 value (Json.renderChar char ++ rest) =
      ordinaryStringFrom size start 0 (value ++ String.utf8EncodeChar char) rest := by
  obtain ⟨byte, hbyte, hescapes⟩ := escapesByte_renderChar h
  rw [hbyte, ordinaryStringFrom_byte hescapes]

/-- The escape of a form feed is two bytes. -/
theorem ordinaryStringFrom_formFeed (rest : List Char) :
    ordinaryStringFrom size start 0 value (Json.renderChar '\x0c' ++ rest) =
      ordinaryStringFrom size start 0 (value ++ [0x5C, 0x66]) rest :=
  @ordinaryStringFrom_escape _ _ _ _ ['f'] _ fun _ => rfl

theorem digitChar_ne_brace (digit : ℕ) : Nat.digitChar (digit % 16) ≠ '\x7b' := by
  have hall : ∀ digit < 16, Nat.digitChar digit ≠ '\x7b' := by decide
  exact hall _ (Nat.mod_lt _ (by decide))

/-- An escape by a code point is refused. -/
theorem ordinaryStringFrom_unicode (code : ℕ) (rest : List Char) :
    ∃ failure, ordinaryStringFrom size start 0 value (Json.unicodeEscape code ++ rest) = .error failure := by
  have hbrace : ∀ slash following, ∃ failure,
      decodeEscape size slash ('u' :: Nat.digitChar (code / 4096 % 16) :: following) = .error failure := by
    intro slash following
    have hhead : ¬ (Nat.digitChar (code / 4096 % 16) :: following).head? = some '\x7b' := by
      simp [digitChar_ne_brace (code / 4096)]
    exact ⟨_, if_pos hhead⟩
  unfold Json.unicodeEscape
  rw [List.cons_append, ordinaryStringFrom, if_neg (by decide), if_pos rfl]
  obtain ⟨failure, hfailure⟩ := hbrace (size - _) _
  exact ⟨failure, by rw [List.cons_append, List.cons_append, hfailure]⟩

theorem renderChar_refused {char : Char} (hshared : isShared char = false) (hfeed : char ≠ '\x0c') :
    ∃ code after, Json.renderChar char = Json.unicodeEscape code ++ after := by
  have hne : ∀ other, isShared other = true → char ≠ other := by
    rintro other hother rfl
    rw [hshared] at hother
    cases hother
  have hprintable : ¬ (0x20 ≤ char.toNat ∧ char.toNat ≤ 0x7E) := by
    rintro ⟨hlow, hhigh⟩
    have hall : isShared char = true := by
      unfold isShared
      rw [decide_eq_true hlow, decide_eq_true hhigh]
      rfl
    rw [hshared] at hall
    cases hall
  unfold Json.renderChar
  rw [if_neg (hne _ rfl), if_neg (hne _ rfl), if_neg (hne _ rfl), if_neg (hne _ rfl), if_neg (hne _ rfl),
    if_neg (hne _ rfl), if_neg hfeed, if_neg hprintable]
  split
  · exact ⟨_, [], (List.append_nil _).symm⟩
  · exact ⟨_, _, rfl⟩

/-- A JSON string is read as OCaml up to its closing quote, whatever follows it. -/
theorem ordinaryStringFrom_render {chars : List Char} {bytes : Bytes} (h : denoted chars = some bytes)
    (tail : List Char) :
    ordinaryStringFrom size start 0 value (chars.flatMap Json.renderChar ++ '\x22' :: tail) =
      .ok (value ++ bytes, tail) := by
  induction chars generalizing value bytes with
  | nil =>
      cases h
      rw [List.flatMap_nil, List.nil_append, ordinaryStringFrom, if_pos rfl, List.append_nil]
  | cons char chars ih =>
      obtain ⟨first, hfirst, hlater⟩ := Option.bind_eq_some_iff.mp h
      obtain ⟨later, hrest, heq⟩ := Option.bind_eq_some_iff.mp hlater
      cases heq
      rw [List.flatMap_cons, List.append_assoc, ← List.append_assoc value]
      unfold denotedChar at hfirst
      split at hfirst
      · rename_i hshared
        cases hfirst
        rw [ordinaryStringFrom_shared hshared, ih hrest]
      split at hfirst
      · rename_i hfeed
        cases hfirst
        rw [hfeed, ordinaryStringFrom_formFeed, ih hrest]
      · cases hfirst

theorem ordinaryStringFrom_render_refused {chars : List Char} (h : denoted chars = none) (tail : List Char) :
    ∃ failure, ordinaryStringFrom size start 0 value (chars.flatMap Json.renderChar ++ tail) = .error failure := by
  induction chars generalizing value with
  | nil => cases h
  | cons char chars ih =>
      rw [List.flatMap_cons, List.append_assoc]
      by_cases hshared : isShared char = true
      · have hrest : denoted chars = none := by
          have hchar : denotedChar char = some _ := if_pos hshared
          rw [denoted, hchar] at h
          cases hlater : denoted chars with
          | none => rfl
          | some later => rw [hlater] at h; cases h
        rw [ordinaryStringFrom_shared hshared]
        exact ih hrest
      by_cases hfeed : char = '\x0c'
      · subst hfeed
        have hrest : denoted chars = none := by
          have hchar : denotedChar '\x0c' = some [0x5C, 0x66] := rfl
          rw [denoted, hchar] at h
          cases hlater : denoted chars with
          | none => rfl
          | some later => rw [hlater] at h; cases h
        rw [ordinaryStringFrom_formFeed]
        exact ih hrest
      · obtain ⟨code, after, hrender⟩ := renderChar_refused (Bool.not_eq_true _ ▸ hshared) hfeed
        rw [hrender, List.append_assoc]
        exact ordinaryStringFrom_unicode code _

end

/-- Each form feed is read as one byte more. -/
theorem length_of_denoted {chars : List Char} {bytes : Bytes} (h : denoted chars = some bytes) :
    bytes.length = (encode chars).length + chars.count '\x0c' ∧
      ∀ char ∈ chars, isShared char = true ∨ char = '\x0c' := by
  induction chars generalizing bytes with
  | nil =>
      cases h
      exact ⟨rfl, nofun⟩
  | cons char chars ih =>
      obtain ⟨first, hfirst, hlater⟩ := Option.bind_eq_some_iff.mp h
      obtain ⟨later, hrest, heq⟩ := Option.bind_eq_some_iff.mp hlater
      cases heq
      obtain ⟨hlength, hchars⟩ := ih hrest
      have hencode : encode (char :: chars) = String.utf8EncodeChar char ++ encode chars := rfl
      rw [List.length_append, hlength, hencode, List.length_append]
      unfold denotedChar at hfirst
      split at hfirst
      · rename_i hshared
        cases hfirst
        have hne : char ≠ '\x0c' := by
          rintro rfl
          cases hshared
        rw [List.count_cons_of_ne hne]
        exact ⟨by omega, List.forall_mem_cons.mpr ⟨.inl hshared, hchars⟩⟩
      split at hfirst
      · rename_i hfeed
        cases hfirst
        rw [hfeed, List.count_cons_self]
        have hone : (String.utf8EncodeChar '\x0c').length = 1 := rfl
        refine ⟨?_, List.forall_mem_cons.mpr ⟨.inr rfl, hchars⟩⟩
        rw [hone, List.length_cons, List.length_singleton]
        omega
      · cases hfirst

theorem denoted_of_shared {chars : List Char} (h : ∀ char ∈ chars, isShared char = true) :
    denoted chars = some (encode chars) := by
  induction chars with
  | nil => rfl
  | cons char chars ih =>
      obtain ⟨hchar, hchars⟩ := List.forall_mem_cons.mp h
      have hfirst : denotedChar char = some (String.utf8EncodeChar char) := if_pos hchar
      rw [denoted, hfirst, ih hchars]
      rfl

/-- What is read is the text itself if and only if both languages write all of it alike. -/
theorem denoted_eq_encode_iff (chars : List Char) :
    denoted chars = some (encode chars) ↔ ∀ char ∈ chars, isShared char = true := by
  refine ⟨fun h char hmem => ?_, denoted_of_shared⟩
  obtain ⟨hlength, hchars⟩ := length_of_denoted h
  have hcount : chars.count '\x0c' = 0 := by omega
  rcases hchars char hmem with hshared | rfl
  · exact hshared
  · exact absurd hmem (List.count_eq_zero.mp hcount)

/-! ## The phrase -/

section

variable {tables : UnicodeTables} {closers : List TokenKind} {rest : List Char} {room : ℕ}
  {values : Option (List Bytes)}

theorem roundTo_rendered {value : String} {bytes : Bytes} (h : denoted value.toList = some bytes)
    (rest : List Char) :
    RoundTo tables closers '\x22' ((value.toList.flatMap Json.renderChar ++ ['\x22']) ++ rest)
      (some (.string, "", some (bytes, false))) closers rest := by
  intro size previous delimiters hclosers
  have hassoc : (value.toList.flatMap Json.renderChar ++ ['\x22']) ++ rest =
      value.toList.flatMap Json.renderChar ++ '\x22' :: rest := by simp
  unfold lexToken
  dsimp only
  rw [hassoc, if_neg (by decide), if_neg (by decide)]
  dsimp only
  rw [if_neg (by simp), if_pos rfl, ordinaryStringFrom_render h, List.nil_append]
  exact ⟨_, rfl, rfl, hclosers, rfl⟩

/-- A JSON string is a literal of what OCaml reads in it. -/
theorem readsValues_rendered (value : String) (h : ReadsValues tables room closers rest values) :
    ReadsValues tables (room + 1) closers (Json.renderString value ++ rest)
      ((denoted value.toList).bind fun bytes => values.map (bytes :: ·)) := by
  cases hdenoted : denoted value.toList with
  | some bytes => exact h.token (roundTo_rendered hdenoted rest)
  | none =>
      have hassoc : Json.renderString value ++ rest =
          '\x22' :: (value.toList.flatMap Json.renderChar ++ '\x22' :: rest) := by simp [Json.renderString]
      rw [hassoc]
      refine readsValues_refused fun size previous delimiters => ?_
      obtain ⟨failure, hfailure⟩ := @ordinaryStringFrom_render_refused size
        (size - ((value.toList.flatMap Json.renderChar ++ '\x22' :: rest).length + 1)) [] _ hdenoted ('\x22' :: rest)
      refine ⟨failure, ?_⟩
      unfold lexToken
      dsimp only
      rw [if_neg (by decide), if_neg (by decide)]
      dsimp only
      rw [if_neg (by simp), if_pos rfl, hfailure]
      rfl

/-- The code in front of the first path. -/
theorem readsValues_useFile (h : ReadsValues tables room [] rest values) :
    ReadsValues tables (room + 7) [] ("if Toploop.use_file Format.std_formatter ".toList ++ rest) values := by
  have htext : "if Toploop.use_file Format.std_formatter ".toList ++ rest =
      'i' :: ("f".toList ++ ' ' :: ([] ++ 'T' :: ("oploop".toList ++ '.' :: ([] ++ 'u' :: ("se_file".toList ++
        ' ' :: ([] ++ 'F' :: ("ormat".toList ++ '.' :: ([] ++ 's' :: ("td_formatter".toList ++
          ' ' :: ([] ++ rest)))))))))) := by simp
  rw [htext]
  exact .plain (roundTo_word rfl rfl rfl _) <| .blank (roundTo_space _) <|
    .plain (roundTo_word rfl rfl rfl _) <| .plain (roundTo_operator rfl (by decide) rfl rfl _) <|
      .plain (roundTo_word rfl rfl rfl _) <| .blank (roundTo_space _) <|
        .plain (roundTo_word rfl rfl rfl _) <| .plain (roundTo_operator rfl (by decide) rfl rfl _) <|
          .plain (roundTo_word rfl rfl rfl _) <| .blank (roundTo_space _) h

/-- The code between the first two paths. -/
theorem readsValues_basename (h : ReadsValues tables room [.rparen, .rparen] rest values) :
    ReadsValues tables (room + 8) [] (" then (loaded_files := ".toList ++ ("(Filename.basename ".toList ++ rest))
      values := by
  have htext : " then (loaded_files := ".toList ++ ("(Filename.basename ".toList ++ rest) =
      ' ' :: ([] ++ 't' :: ("hen".toList ++ ' ' :: ([] ++ '(' :: ([] ++ 'l' :: ("oaded_files".toList ++
        ' ' :: ([] ++ ':' :: (['='] ++ ' ' :: ([] ++ '(' :: ([] ++ 'F' :: ("ilename".toList ++ '.' :: ([] ++
          'b' :: ("asename".toList ++ ' ' :: ([] ++ rest))))))))))))) := by simp
  rw [htext]
  exact .blank (roundTo_space _) <| .plain (roundTo_word rfl rfl rfl _) <| .blank (roundTo_space _) <|
    .plain (roundTo_open (by decide) (by decide) _) <| .plain (roundTo_word rfl rfl rfl _) <|
      .blank (roundTo_space _) <| .plain (roundTo_operator rfl (by decide) rfl rfl _) <| .blank (roundTo_space _) <|
        .plain (roundTo_open (by decide) (by decide) _) <| .plain (roundTo_word rfl rfl rfl _) <|
          .plain (roundTo_operator rfl (by decide) rfl rfl _) <| .plain (roundTo_word rfl rfl rfl _) <|
            .blank (roundTo_space _) h

/-- The code between the last two paths. -/
theorem readsValues_digest (h : ReadsValues tables room closers rest values) :
    ReadsValues tables (room + 4) closers (",Digest.file ".toList ++ rest) values := by
  have htext : ",Digest.file ".toList ++ rest =
      ',' :: ([] ++ 'D' :: ("igest".toList ++ '.' :: ([] ++ 'f' :: ("ile".toList ++ ' ' :: ([] ++ rest))))) := by simp
  rw [htext]
  exact .plain (roundTo_comma _) <| .plain (roundTo_word rfl rfl rfl _) <|
    .plain (roundTo_operator rfl (by decide) rfl rfl _) <| .plain (roundTo_word rfl rfl rfl _) <|
      .blank (roundTo_space _) h

/-- The code between the last path and the marker. -/
theorem readsValues_print (h : ReadsValues tables room [.rparen] rest values) :
    ReadsValues tables (room + 5) [.rparen, .rparen]
      (")::!loaded_files; ".toList ++ ("print_endline ".toList ++ rest)) values := by
  have htext : ")::!loaded_files; ".toList ++ ("print_endline ".toList ++ rest) =
      ')' :: ([] ++ ':' :: ([':', '!'] ++ 'l' :: ("oaded_files".toList ++ ';' :: ([] ++ ' ' :: ([] ++
        'p' :: ("rint_endline".toList ++ ' ' :: ([] ++ rest))))))) := by simp
  rw [htext]
  exact .plain (roundTo_close _) <| .plain (roundTo_operator rfl (by decide) rfl rfl _) <|
    .plain (roundTo_word rfl rfl rfl _) <| .plain (roundTo_semi _) <| .blank (roundTo_space _) <|
      .plain (roundTo_word rfl rfl rfl _) <| .blank (roundTo_space _) h

/-- The code behind the marker. -/
theorem readsValues_exit :
    ReadsValues tables 5 [.rparen] (") ".toList ++ "else exit 78;;".toList) (some []) := by
  have htext : ") ".toList ++ "else exit 78;;".toList =
      ')' :: ([] ++ ' ' :: ([] ++ 'e' :: ("lse".toList ++ ' ' :: ([] ++ 'e' :: ("xit".toList ++ ' ' :: ([] ++
        '7' :: (['8'] ++ ';' :: ([';'] ++ [])))))))) := by simp
  rw [htext]
  exact .plain (roundTo_close _) <| .blank (roundTo_space _) <| .plain (roundTo_word rfl rfl rfl _) <|
    .blank (roundTo_space _) <| .plain (roundTo_word rfl rfl rfl _) <| .blank (roundTo_space _) <|
      .plain (roundTo_number (by decide) rfl _) <| .plain (roundTo_semisemi _) readsValues_done

end

/-- The string literals of the phrase, as the lexer reads them. -/
def phraseValues (tables : UnicodeTables) (preload token : String) : Option (List Bytes) :=
  (lexedTokens tables (encode (basisPreloadPhrase preload token))).map literalValues

theorem phraseValues_eq (tables : UnicodeTables) (preload token : String) :
    phraseValues tables preload token =
      (denoted preload.toList).bind fun path => (denoted token.toList).map fun marker => [path, path, path, marker] := by
  obtain ⟨path, hpath⟩ : ∃ path, path = Json.renderString preload := ⟨_, rfl⟩
  obtain ⟨marker, hmarker⟩ : ∃ marker, marker = Json.renderString token := ⟨_, rfl⟩
  have hphrase : basisPreloadPhrase preload token =
      "if Toploop.use_file Format.std_formatter ".toList ++ (path ++ (" then (loaded_files := ".toList ++
        ("(Filename.basename ".toList ++ (path ++ (",Digest.file ".toList ++ (path ++
          (")::!loaded_files; ".toList ++ ("print_endline ".toList ++ (marker ++
            (") ".toList ++ "else exit 78;;".toList)))))))))) := by
    rw [hpath, hmarker]
    unfold basisPreloadPhrase
    simp only [List.append_assoc]
  have hread := readsValues_useFile <| readsValues_rendered preload <| readsValues_basename <|
    readsValues_rendered preload <| readsValues_digest <| readsValues_rendered preload <| readsValues_print <|
      readsValues_rendered token <| @readsValues_exit tables
  rw [← hpath, ← hmarker, ← hphrase] at hread
  unfold phraseValues lexedTokens
  rw [fromUTF8?_encode, Option.bind_some, String.toList_ofList]
  unfold tokenize
  rw [hread _ [] none 0 [] (List.nil_append _).symm rfl (by decide)]
  cases denoted preload.toList <;> cases denoted token.toList <;> rfl

/-- The literals of the phrase are the bytes of the path and of the marker if and only if JSON and OCaml write every
character of them alike. -/
theorem preload_literals_exact_iff (tables : UnicodeTables) (preload token : String) :
    phraseValues tables preload token = some [utf8 preload, utf8 preload, utf8 preload, utf8 token] ↔
      ∀ char ∈ preload.toList ++ token.toList, isShared char = true := by
  rw [phraseValues_eq, List.forall_mem_append, ← denoted_eq_encode_iff, ← denoted_eq_encode_iff]
  show _ = some [encode preload.toList, encode preload.toList, encode preload.toList, encode token.toList] ↔ _
  cases denoted preload.toList <;> cases denoted token.toList <;> simp

/-- A preload in a directory with a letter beyond ASCII is refused by OCaml. -/
theorem accented_preload_refused :
    phraseValues .ascii "/opt/théorie/base.ml" (preloadToken "base.ml") = none := by
  rw [phraseValues_eq]
  decide

end Hearth.Broker
