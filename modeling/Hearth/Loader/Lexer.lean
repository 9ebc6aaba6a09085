import Hearth.Loader.Token

/-!
# The strict lexer

`_Lexer` of `proofs/loader_scan.py`.  The Python methods move an index over the
text; here each takes the characters that are left and returns the characters left
after it, and `size - rest.length` is the index, where `size` is the length of the
whole text.

The loops recurse on the characters left.  Where a step consumes several characters
at once, the loop is called with the number still to skip, so every loop ends with
the text, and none needs fuel.
-/

namespace Hearth.Loader

open Hearth.Replay (isAsciiLetter isAsciiDigit)

def maxTokens : ℕ := 2000000
def maxNesting : ℕ := 4096
def maxQuotedDelimiterChars : ℕ := 4096

/-- `_BLANKS`. -/
def isBlank (char : Char) : Bool :=
  char = ' ' || char = '\t' || char = '\r' || char = '\n' || char = '\x0c'

def isSpaceOrTab (char : Char) : Bool :=
  char = ' ' || char = '\t'

def isLineEnd (char : Char) : Bool :=
  char = '\r' || char = '\n'

/-- `_OPERATOR_CHARS`. -/
def isOperatorChar (char : Char) : Bool :=
  char ∈ "!$%&*+-./:<=>?@^|~#".toList

def isHexDigit (char : Char) : Bool :=
  char ∈ "0123456789abcdefABCDEF".toList

/-- The characters of a quoted-string delimiter. -/
def isDelimiterChar (char : Char) : Bool :=
  ('a' ≤ char && char ≤ 'z') || char = '_'

def backquote : Char := Char.ofNat 96

/-- The UTF-8 bytes of a piece of text. -/
def encode (text : List Char) : Bytes :=
  text.flatMap String.utf8EncodeChar

/-- The value of one digit, in any base up to sixteen. -/
def digitValue (char : Char) : ℕ :=
  if isAsciiDigit char then char.toNat - '0'.toNat
  else if 'a' ≤ char && char ≤ 'f' then char.toNat - 'a'.toNat + 10
  else char.toNat - 'A'.toNat + 10

/-- `int(digits, base)`. -/
def digitsValue (base : ℕ) (digits : List Char) : ℕ :=
  digits.foldl (fun value digit => value * base + digitValue digit) 0

/-- `text.find(char)`: what comes before the first `char`, and after it. -/
def splitAtChar (char : Char) : List Char → Option (List Char × List Char)
  | [] => none
  | head :: rest =>
      if head = char then some ([], rest)
      else (splitAtChar char rest).map fun (before, after) => (head :: before, after)

/-- `text.find(pattern)`: what comes before the first `pattern`, and after it. -/
def splitAtText (pattern : List Char) : List Char → Option (List Char × List Char)
  | [] => if pattern = [] then some ([], []) else none
  | head :: rest =>
      if pattern.isPrefixOf (head :: rest) then some ([], (head :: rest).drop pattern.length)
      else (splitAtText pattern rest).map fun (before, after) => (head :: before, after)

section

variable (tables : UnicodeTables) (size : ℕ)

/-! ## Strings -/

/-- The escapes of one character. -/
def namedEscape : Char → Option UInt8
  | '\\' => some 0x5C
  | '"' => some 0x22
  | '\'' => some 0x27
  | 'n' => some 0x0A
  | 't' => some 0x09
  | 'b' => some 0x08
  | 'r' => some 0x0D
  | ' ' => some 0x20
  | _ => none

/-- `\ddd`; `text` starts with the first digit. -/
def decimalEscape (slash : ℕ) (text : List Char) : Except LexicalFailure (Bytes × List Char) :=
  let digits := text.take 3
  if digits.length ≠ 3 ∨ ¬ digits.all isAsciiDigit then
    .error ⟨"invalid_escape", "decimal OCaml string escape must contain exactly three digits",
      slash, min size (slash + 1 + 3)⟩
  else if 255 < digitsValue 10 digits then
    .error ⟨"invalid_escape", "decimal OCaml string escape exceeds one byte", slash, slash + 1 + 3⟩
  else .ok ([UInt8.ofNat (digitsValue 10 digits)], text.drop 3)

/-- `\xhh`; without two digits the backslash stands for itself. -/
def hexEscape (text : List Char) : Bytes × List Char :=
  let digits := text.take 2
  if digits.length = 2 ∧ digits.all isHexDigit then
    ([UInt8.ofNat (digitsValue 16 digits)], text.drop 2)
  else ([0x5C, 0x78], text)

/-- `\oddd`. -/
def octalEscape (slash : ℕ) (text : List Char) : Except LexicalFailure (Bytes × List Char) :=
  let digits := text.take 3
  if digits.length ≠ 3 ∨ ¬ digits.head?.any (fun digit => digit ∈ "0123".toList) ∨
      digits.tail.any (fun digit => digit ∉ "01234567".toList) then
    .error ⟨"invalid_escape", "octal OCaml string escape must be in the range \\o000 through \\o377",
      slash, min size (slash + 1 + 4)⟩
  else .ok ([UInt8.ofNat (digitsValue 8 digits)], text.drop 3)

/-- `\u` followed by hex digits in braces. -/
def unicodeEscape (slash : ℕ) (text : List Char) : Except LexicalFailure (Bytes × List Char) :=
  if text.head? ≠ some '{' then
    .error ⟨"invalid_escape", "Unicode OCaml string escape requires braces", slash,
      min size (slash + 1 + 2)⟩
  else
    match splitAtChar '}' text.tail with
    | none =>
        .error ⟨"invalid_escape", "unterminated Unicode OCaml string escape", slash, size⟩
    | some (digits, rest) =>
        let stop := slash + 1 + 2 + digits.length + 1
        if ¬ (1 ≤ digits.length ∧ digits.length ≤ 6) ∨ digits.any (fun digit => !isHexDigit digit) then
          .error ⟨"invalid_escape",
            "Unicode OCaml string escape requires one through six hex digits", slash, stop⟩
        else
          let scalar := digitsValue 16 digits
          if 0x10FFFF < scalar ∨ (0xD800 ≤ scalar ∧ scalar ≤ 0xDFFF) then
            .error ⟨"invalid_escape", "Unicode OCaml string escape is not a scalar value", slash, stop⟩
          else .ok (encode [Char.ofNat scalar], rest)

/-- `_decode_escape`; `slash` is the index of the backslash, `text` what follows it. -/
def decodeEscape (slash : ℕ) : List Char → Except LexicalFailure (Bytes × List Char)
  | [] => .error ⟨"unterminated_string", "trailing backslash in string literal", slash, slash + 1⟩
  | char :: rest =>
      match namedEscape char with
      | some byte => .ok ([byte], rest)
      | none =>
          if char = '\n' then .ok ([], rest.dropWhile isSpaceOrTab)
          else if char = '\r' then
            match rest.dropWhile (· = '\r') with
            | '\n' :: after => .ok ([], after.dropWhile isSpaceOrTab)
            | _ => .ok ([0x5C, 0x0D], rest)
          else if isAsciiDigit char then decimalEscape size slash (char :: rest)
          else if char = 'x' then .ok (hexEscape rest)
          else if char = 'o' then octalEscape size slash rest
          else if char = 'u' then unicodeEscape size slash rest
          else .ok (0x5C :: encode [char], rest)

/-- The loop of `_ordinary_string` behind the opening quote. -/
def ordinaryStringFrom (start : ℕ) : ℕ → Bytes → List Char →
    Except LexicalFailure (Bytes × List Char)
  | _, _, [] =>
      .error ⟨"unterminated_string", "unterminated ordinary OCaml string literal", start, size⟩
  | skip + 1, value, _ :: rest => ordinaryStringFrom start skip value rest
  | 0, value, char :: rest =>
      if char = '"' then .ok (value, rest)
      else if char = '\\' then
        match decodeEscape size (size - (char :: rest).length) rest with
        | .error failure => .error failure
        | .ok (decoded, after) =>
            ordinaryStringFrom start (rest.length - after.length) (value ++ decoded) rest
      else if char = '\r' then
        if rest.head? = some '\n' then ordinaryStringFrom start 1 (value ++ [0x0A]) rest
        else ordinaryStringFrom start 0 (value ++ [0x0D]) rest
      else ordinaryStringFrom start 0 (value ++ encode [char]) rest

/-- `_quoted_opener`; `text` is what follows the brace. -/
def quotedOpener (start : ℕ) (text : List Char) :
    Except LexicalFailure (Option (List Char × List Char)) :=
  let delimiter := text.takeWhile isDelimiterChar
  if maxQuotedDelimiterChars < delimiter.length then
    .error ⟨"quoted_delimiter_limit", "OCaml quoted-string delimiter exceeds the lexical bound",
      start, start + 1 + maxQuotedDelimiterChars⟩
  else
    match text.drop delimiter.length with
    | '|' :: content => .ok (some (delimiter, content))
    | _ => .ok none

/-- `_looks_like_invalid_quoted_opener`; `text` is what follows the brace. -/
def looksLikeInvalidQuotedOpener (text : List Char) : Bool :=
  match splitAtChar '|' (text.take (maxQuotedDelimiterChars + 1)) with
  | none => false
  | some (candidate, _) =>
      match candidate with
      | [] => false
      | first :: _ =>
          !candidate.any (fun char => char = backquote || char ∈ "\x7b\x7d()[];:=\r\n\"'".toList) &&
            (identifierStart tables first || isAsciiDigit first)

/-- The bytes of quoted text, with `\r\n` read as `\n`. -/
def normalizedBytes : List Char → Bytes
  | [] => []
  | '\r' :: '\n' :: rest => 0x0A :: normalizedBytes rest
  | char :: rest => encode [char] ++ normalizedBytes rest

/-- `_quoted_string`; `content` is what follows the opener. -/
def quotedString (start : ℕ) (delimiter content : List Char) :
    Except LexicalFailure (Bytes × List Char) :=
  match splitAtText (['|'] ++ delimiter ++ ['}']) content with
  | none =>
      .error ⟨"unterminated_quoted_string", "unterminated quoted OCaml string literal", start, size⟩
  | some (value, rest) => .ok (normalizedBytes value, rest)

/-- The dotted identifier of a quoted extension. -/
def extensionIdentifier (start : ℕ) : List Char → Except LexicalFailure (List Char)
  | [] => .ok []
  | char :: rest =>
      if identifierContinue tables char then extensionIdentifier start rest
      else if char = '.' then
        if rest.head?.any (identifierStart tables) then extensionIdentifier start rest
        else .error ⟨"malformed_quoted_extension",
          "quoted OCaml extension has an incomplete dotted identifier", start,
          min size (size - rest.length + 1)⟩
      else .ok (char :: rest)

/-- `_quoted_extension_end`; `text` starts with the brace. -/
def quotedExtensionEnd (start : ℕ) (text : List Char) : Except LexicalFailure (List Char) :=
  let opened := if "\x7b%%".toList.isPrefixOf text then text.drop 3 else text.drop 2
  if ¬ opened.head?.any (identifierStart tables) then
    .error ⟨"malformed_quoted_extension", "quoted OCaml extension requires an extension identifier",
      start, min size (size - opened.length + 1)⟩
  else
    match extensionIdentifier tables size start opened with
    | .error failure => .error failure
    | .ok named =>
        let spaced := named.dropWhile isBlank
        let delimiter := spaced.takeWhile isDelimiterChar
        let rest := spaced.drop delimiter.length
        if maxQuotedDelimiterChars < delimiter.length then
          .error ⟨"quoted_delimiter_limit",
            "OCaml quoted-extension delimiter exceeds the lexical bound", start,
            size - spaced.length + maxQuotedDelimiterChars⟩
        else if rest.head? ≠ some '|' then
          .error ⟨"malformed_quoted_extension",
            "quoted OCaml extension requires a valid raw-string delimiter", start,
            min size (size - rest.length + 1)⟩
        else
          match splitAtText (['|'] ++ delimiter ++ ['}']) rest.tail with
          | none =>
              .error ⟨"unterminated_quoted_extension", "unterminated quoted OCaml extension", start,
                size⟩
          | some (_, after) => .ok after

/-! ## Comments and characters -/

/-- The loop of `_comment_string_end` behind the opening quote. -/
def commentStringEnd (start : ℕ) : List Char → Except LexicalFailure (List Char)
  | '\\' :: _ :: rest => commentStringEnd start rest
  | '"' :: rest => .ok rest
  | _ :: rest => commentStringEnd start rest
  | [] =>
      .error ⟨"unterminated_comment_string", "unterminated string literal inside OCaml comment",
        start, size⟩

/-- What is left after an embedded string, quotation or extension of a comment that
starts at `text`; `none` if nothing of the kind starts here. -/
def commentEmbedded (text : List Char) : Except LexicalFailure (Option (List Char)) :=
  let index := size - text.length
  match text with
  | '"' :: rest => (commentStringEnd size index rest).map some
  | '{' :: '%' :: _ => (quotedExtensionEnd tables size index text).map some
  | '{' :: rest =>
      match quotedOpener index rest with
      | .error failure => .error failure
      | .ok none => .ok none
      | .ok (some (delimiter, content)) =>
          (quotedString size index delimiter content).map fun (_, after) => some after
  | _ => .ok none

/-- The loop of `_comment` behind the opening marker, at nesting `depth`. -/
def commentFrom (start : ℕ) : ℕ → ℕ → List Char → Except LexicalFailure (List Char)
  | _, _, [] =>
      .error ⟨"unterminated_comment", "unterminated nested OCaml comment", start, size⟩
  | skip + 1, depth, _ :: rest => commentFrom start skip depth rest
  | 0, depth, char :: rest =>
      if char = '\'' then
        commentFrom start (if "*)".toList.isPrefixOf rest then 2 else 1) depth rest
      else if char = '(' ∧ rest.head? = some '*' then
        if maxNesting < depth + 1 then
          .error ⟨"nesting_limit", "nested OCaml comment limit exceeded", start,
            size - (char :: rest).length + 2⟩
        else commentFrom start 1 (depth + 1) rest
      else if char = '*' ∧ rest.head? = some ')' then
        if depth = 1 then .ok rest.tail else commentFrom start 1 (depth - 1) rest
      else
        match commentEmbedded tables size (char :: rest) with
        | .error failure => .error failure
        | .ok none => commentFrom start 0 depth rest
        | .ok (some after) => commentFrom start (rest.length - after.length) depth rest

/-- `_char_or_typevar`, behind the apostrophe: the kind and value of the token, and
what is left. -/
def charOrTypevar (start : ℕ) : List Char → Except LexicalFailure (TokenKind × String × List Char)
  | [] => .error ⟨"malformed_character", "dangling apostrophe", start, size⟩
  | next :: rest =>
      if next = '\\' then
        if rest.head? = some 'u' then
          .error ⟨"malformed_character",
            "Unicode escapes are not supported in OCaml character literals", start,
            min size (start + 4)⟩
        else
          match decodeEscape size (start + 1) rest with
          | .error failure => .error failure
          | .ok (decoded, after) =>
              if after.head? ≠ some '\'' ∨ decoded.length ≠ 1 then
                .error ⟨"malformed_character", "malformed OCaml character literal", start,
                  min size (size - after.length + 1)⟩
              else .ok (.char, "", after.tail)
      else if next ≠ '\'' ∧ rest.head? = some '\'' then
        if next.utf8Size ≠ 1 then
          .error ⟨"malformed_character", "direct OCaml character literal is not one byte", start,
            start + 3⟩
        else .ok (.char, "", rest.tail)
      else if identifierStart tables next then
        let name := rest.takeWhile (identifierContinue tables)
        .ok (.typevar, String.ofList ('\'' :: next :: name), rest.drop name.length)
      else
        .error ⟨"malformed_character", "malformed OCaml character literal or type variable", start,
          min size (start + 2)⟩

/-- `_hol_backquote`, behind the opening backquote. -/
def holBackquote (start : ℕ) (text : List Char) : Except LexicalFailure (List Char) :=
  match splitAtChar backquote text with
  | none => .error ⟨"unterminated_hol_backquote", "unterminated HOL backquote", start, size⟩
  | some (_, rest) => .ok rest

/-- `_line_directive_end`, behind the hash sign; `previous` is the character before
it.  `none` if there is no line directive here. -/
def lineDirectiveEnd (start : ℕ) (previous : Option Char) (text : List Char) :
    Except LexicalFailure (Option (List Char)) :=
  if previous.any fun char => !isLineEnd char then .ok none
  else
    let numbered := text.dropWhile isSpaceOrTab
    if ¬ numbered.head?.any isAsciiDigit then .ok none
    else
      let quoted := (numbered.dropWhile isAsciiDigit).dropWhile isSpaceOrTab
      if quoted.head? ≠ some '"' then
        .error ⟨"malformed_line_directive", "OCaml line directive requires a quoted source name",
          start, min size (size - quoted.length + 1)⟩
      else
        let closed := quoted.tail.dropWhile fun char => char ≠ '"' && !isLineEnd char
        if closed.head? ≠ some '"' then
          .error ⟨"malformed_line_directive", "OCaml line directive source name is unterminated",
            start, min size (size - closed.length + 1)⟩
        else
          match closed.tail.dropWhile fun char => !isLineEnd char with
          | [] => .ok (some [])
          | '\r' :: '\n' :: rest => .ok (some rest)
          | _ :: rest => .ok (some rest)

/-! ## The main loop -/

/-- `SOURCE_LOADERS`. -/
def sourceLoaders : List String := ["needs", "loadt", "loads", "load", "#use"]

/-- `ARTIFACT_LOADERS`. -/
def artifactLoaders : List String := ["define_from_elf", "define_assert_from_elf"]

/-- What one round of the main loop found: the token, if any, without its span; the
index at which the token limit is reported; the open delimiters; and what is left. -/
structure Lexed where
  token : Option (TokenKind × String × Option (Bytes × Bool))
  tokenStart : ℕ
  limitIndex : ℕ
  delimiters : List (TokenKind × ℕ)
  rest : List Char

/-- The single-character delimiters. -/
def delimiterKind : Char → Option TokenKind
  | '(' => some .lparen
  | ')' => some .rparen
  | '[' => some .lbrack
  | ']' => some .rbrack
  | '{' => some .lbrace
  | '}' => some .rbrace
  | _ => none

/-- The Unicode spellings of operators. -/
def unicodeOperator : Char → Option String
  | '→' => some "->"
  | '≤' => some "<="
  | '≥' => some ">="
  | _ => none

/-- A word is a loader or an identifier of the given kind. -/
def wordKind (kind : TokenKind) (value : String) : TokenKind :=
  if value ∈ sourceLoaders ∨ value ∈ artifactLoaders then .loader else kind

/-- Open or close a delimiter. -/
def stepDelimiter (index : ℕ) (char : Char) (kind : TokenKind) (delimiters : List (TokenKind × ℕ)) :
    Except LexicalFailure (List (TokenKind × ℕ)) :=
  match kind.closer with
  | some closer =>
      if maxNesting < delimiters.length + 1 then
        .error ⟨"nesting_limit", "OCaml delimiter nesting limit exceeded", index, index + 1⟩
      else .ok ((closer, index) :: delimiters)
  | none =>
      match delimiters with
      | (expected, _) :: rest =>
          if expected = kind then .ok rest
          else .error ⟨"mismatched_delimiter", "mismatched OCaml delimiter " ++ char.toString, index,
            index + 1⟩
      | [] => .error ⟨"mismatched_delimiter", "mismatched OCaml delimiter " ++ char.toString, index,
          index + 1⟩

/-- The tokens that start with a brace and are not a delimiter. -/
def lexBrace (index : ℕ) (rest : List Char) :
    Except LexicalFailure (Option (TokenKind × Option (Bytes × Bool) × List Char)) :=
  if rest.head? = some '%' then
    (quotedExtensionEnd tables size index ('{' :: rest)).map fun after =>
      some (.opaqueExtension, none, after)
  else
    match quotedOpener index rest with
    | .error failure => .error failure
    | .ok (some (delimiter, content)) =>
        (quotedString size index delimiter content).map fun (value, after) =>
          some (.string, some (value, true), after)
    | .ok none =>
        if looksLikeInvalidQuotedOpener tables rest then
          .error ⟨"invalid_quoted_delimiter",
            "OCaml quoted-string delimiters contain only lowercase ASCII letters and underscores",
            index, min size (index + 1 + (rest.takeWhile (· ≠ '|')).length + 1)⟩
        else .ok none

/-- A raw identifier, behind its backslash. -/
def lexRawIdentifier (index : ℕ) (rest : List Char) :
    Except LexicalFailure (TokenKind × String × List Char) :=
  if rest.head? ≠ some '#' then
    .error ⟨"malformed_raw_identifier", "HOL raw identifiers require a \\# prefix", index,
      min size (index + 1 + 1)⟩
  else if ¬ rest.tail.head?.any (identifierStart tables) then
    .error ⟨"illegal_character",
      "backslash outside an OCaml literal must introduce a raw identifier", index,
      min size (index + 2 + 1)⟩
  else
    let name := rest.tail.head?.toList ++ rest.tail.tail.takeWhile (identifierContinue tables)
    let value := String.ofList name
    .ok (wordKind .rawIdent value, value, rest.tail.drop name.length)

/-- Operators, numbers and what is not a token; the branches after the words. -/
def lexSymbol (index : ℕ) (char : Char) (rest : List Char) :
    Except LexicalFailure (TokenKind × String × List Char) :=
  match unicodeOperator char with
  | some value => .ok (.op, value, rest)
  | none =>
      if isOperatorChar char then
        let more := rest.takeWhile isOperatorChar
        .ok (.op, String.ofList (char :: more), rest.drop more.length)
      else if isAsciiDigit char then
        let more := rest.takeWhile fun char => isAsciiDigit char || isAsciiLetter char
        .ok (.atom, String.ofList (char :: more), rest.drop more.length)
      else if char.toNat < 0x20 ∨ char.toNat = 0x7F then
        .error ⟨"illegal_character", "illegal control character in OCaml source", index, index + 1⟩
      else
        .error ⟨"illegal_character", "illegal character " ++ tables.repr char ++ " in OCaml source",
          index, index + 1⟩

/-- The branches of the main loop behind comments, strings, characters and quotations. -/
def lexPlain (index : ℕ) (delimiters : List (TokenKind × ℕ)) (char : Char) (rest : List Char) :
    Except LexicalFailure Lexed :=
  let token := fun (kind : TokenKind) (value : String) (after : List Char) =>
    (⟨some (kind, value, none), index, index, delimiters, after⟩ : Lexed)
  if char = ';' ∧ rest.head? = some ';' then
    if delimiters ≠ [] then
      .error ⟨"phrase_boundary_inside_delimiter",
        "OCaml phrase boundary occurs inside an open delimiter", index, index + 2⟩
    else .ok (token .semisemi ";;" rest.tail)
  else if char = ';' then .ok (token .semi ";" rest)
  else if char = ',' then .ok (token .comma "," rest)
  else
    match delimiterKind char with
    | some kind =>
        (stepDelimiter index char kind delimiters).map fun delimiters =>
          ⟨some (kind, char.toString, none), index, index, delimiters, rest⟩
    | none =>
        if char = '#' ∧ "use".toList.isPrefixOf rest ∧
            ¬ (rest.drop 3).head?.any (identifierContinue tables) then
          .ok (token .loader "#use" (rest.drop 3))
        else if char = '\\' then
          (lexRawIdentifier tables size index rest).map fun (kind, value, after) =>
            -- The index has moved to the name when the token is appended.
            ⟨some (kind, value, none), index, index + 2, delimiters, after⟩
        else if identifierStart tables char then
          let more := rest.takeWhile (identifierContinue tables)
          let value := String.ofList (char :: more)
          .ok (token (wordKind .ident value) value (rest.drop more.length))
        else
          (lexSymbol tables index char rest).map fun (kind, value, after) => token kind value after

/-- One round of the main loop of `tokenize`, at `char`. -/
def lexToken (previous : Option Char) (delimiters : List (TokenKind × ℕ)) (char : Char)
    (rest : List Char) : Except LexicalFailure Lexed :=
  let index := size - (rest.length + 1)
  let skipTo := fun after => (⟨none, index, index, delimiters, after⟩ : Lexed)
  if isBlank char then .ok (skipTo rest)
  else
    match (if char = '#' then lineDirectiveEnd size index previous rest else .ok none) with
    | .error failure => .error failure
    | .ok (some after) => .ok (skipTo after)
    | .ok none =>
        if char = '(' ∧ rest.head? = some '*' then
          (commentFrom tables size index 0 1 rest.tail).map skipTo
        else if char = '"' then
          (ordinaryStringFrom size index 0 [] rest).map fun (value, after) =>
            ⟨some (.string, "", some (value, false)), index, index, delimiters, after⟩
        else
          match (if char = '{' then lexBrace tables size index rest else .ok none) with
          | .error failure => .error failure
          | .ok (some (kind, literal, after)) =>
              .ok ⟨some (kind, "", literal), index, index, delimiters, after⟩
          | .ok none =>
              if char = '\'' then
                (charOrTypevar tables size index rest).map fun (kind, value, after) =>
                  -- The index has moved behind the token when it is appended.
                  ⟨some (kind, value, none), index, size - after.length, delimiters, after⟩
              else if char = backquote then
                (holBackquote size index rest).map fun after =>
                  ⟨some (.hol, "", none), index, index, delimiters, after⟩
              else lexPlain tables size index delimiters char rest

/-- The main loop of `tokenize`: `skip` characters belong to the last token, and
`count` tokens have been appended. -/
def tokenizeFrom (text : List Char) : ℕ → Option Char → ℕ → List (TokenKind × ℕ) → List Char →
    Except LexicalFailure (List Token)
  | skip + 1, _, count, delimiters, char :: rest =>
      tokenizeFrom text skip (some char) count delimiters rest
  | _, _, _, (expected, start) :: _, [] =>
      .error ⟨"unterminated_delimiter",
        "unterminated OCaml delimiter; expected " ++ expected.closeText, start, size⟩
  | _, _, _, [], [] => .ok []
  | 0, previous, count, delimiters, char :: rest =>
      match lexToken tables size previous delimiters char rest with
      | .error failure => .error failure
      | .ok lexed =>
          let skip := rest.length - lexed.rest.length
          match lexed.token with
          | none => tokenizeFrom text skip (some char) count lexed.delimiters rest
          | some (kind, value, literal) =>
              if maxTokens < count + 1 then
                .error ⟨"token_limit", "OCaml loader lexical token limit exceeded",
                  lexed.limitIndex, min size (lexed.limitIndex + 1)⟩
              else
                let stop := size - lexed.rest.length
                let span := byteSpan text lexed.tokenStart stop
                let raw := encode ((text.drop lexed.tokenStart).take (stop - lexed.tokenStart))
                (tokenizeFrom text skip (some char) (count + 1) lexed.delimiters rest).map
                  (⟨kind, value, span,
                    literal.map fun (value, quoted) => ⟨span, value, raw, quoted⟩⟩ :: ·)

end

/-- `tokenize`. -/
def tokenize (tables : UnicodeTables) (text : List Char) : Except LexicalFailure (List Token) :=
  tokenizeFrom tables text.length text 0 none 0 [] text

end Hearth.Loader
