import Mathlib.Algebra.GroupWithZero.Nat
import Hearth.Replay.ClaimProbe

/-!
# Tokens of the loader scan

The vocabulary of `proofs/loader_scan.py`: byte spans, decoded string literals,
tokens, and the failure that stops the lexer.  The lexer reads characters; its
failures are placed by character index and translated to bytes at the end.

What Python's Unicode database says about a character is a parameter
(`UnicodeTables`); for ASCII characters it is fixed by the laws of the structure.
-/

namespace Hearth.Loader

open Hearth.Replay (isAsciiLetter isAsciiDigit)

/-- A half-open byte span into the scanned source. -/
structure ByteSpan where
  start : ℕ
  stop : ℕ
  deriving DecidableEq, Repr

/-- One decoded OCaml string with its raw token, whose SHA-256 identifies it. -/
structure OcamlStringLiteral where
  span : ByteSpan
  valueBytes : Bytes
  raw : Bytes
  quoted : Bool
  deriving DecidableEq, Repr

/-- `utf8_text`. -/
def OcamlStringLiteral.utf8Text (literal : OcamlStringLiteral) : Option String :=
  String.fromUTF8? ⟨literal.valueBytes.toArray⟩

/-- The kinds of tokens. -/
inductive TokenKind
  | loader | ident | rawIdent | string | opaqueExtension | char | typevar | hol
  | semisemi | semi | comma | lparen | rparen | lbrack | rbrack | lbrace | rbrace | op | atom
  deriving DecidableEq, Repr

/-- One token. -/
structure Token where
  kind : TokenKind
  value : String
  span : ByteSpan
  literal : Option OcamlStringLiteral
  deriving DecidableEq, Repr

/-- `_OPEN_TO_CLOSE`. -/
def TokenKind.closer : TokenKind → Option TokenKind
  | .lparen => some .rparen
  | .lbrack => some .rbrack
  | .lbrace => some .rbrace
  | _ => none

/-- Membership in `_CLOSE_KINDS`. -/
def TokenKind.isClose : TokenKind → Bool
  | .rparen | .rbrack | .rbrace => true
  | _ => false

/-- The name of a closing kind in a message. -/
def TokenKind.closeText : TokenKind → String
  | .rparen => "RPAREN"
  | .rbrack => "RBRACK"
  | .rbrace => "RBRACE"
  | _ => ""

/-- `_LexicalFailure`; `start` and `stop` count characters. -/
structure LexicalFailure where
  kind : String
  reason : String
  start : ℕ
  stop : ℕ
  deriving DecidableEq, Repr

/-- What the lexer asks of Python's Unicode database. -/
structure UnicodeTables where
  /-- The general category starts with `L`. -/
  isLetter : Char → Bool
  /-- The general category starts with `M`. -/
  isMark : Char → Bool
  /-- `str.isdigit`. -/
  isDigit : Char → Bool
  /-- `str.isupper` of the one-character string. -/
  isUpper : Char → Bool
  /-- `repr` of the one-character string. -/
  repr : Char → String
  /-- Where decoding a byte string as UTF-8 fails. -/
  invalidUtf8 : Bytes → ByteSpan
  letter_ascii : ∀ c, c.toNat < 128 → isLetter c = isAsciiLetter c
  mark_ascii : ∀ c, c.toNat < 128 → isMark c = false
  digit_ascii : ∀ c, c.toNat < 128 → isDigit c = isAsciiDigit c
  upper_ascii : ∀ c, c.toNat < 128 → isUpper c = ('A' ≤ c && c ≤ 'Z' : Bool)

/-- Tables in which nothing but ASCII is a letter or a digit. -/
def UnicodeTables.ascii : UnicodeTables where
  isLetter := isAsciiLetter
  isMark := fun _ => false
  isDigit := isAsciiDigit
  isUpper := fun c => 'A' ≤ c && c ≤ 'Z'
  repr := String.singleton
  invalidUtf8 := fun source => ⟨0, source.length⟩
  letter_ascii := fun _ _ => rfl
  mark_ascii := fun _ _ => rfl
  digit_ascii := fun _ _ => rfl
  upper_ascii := fun _ _ => rfl

/-- `_identifier_start`. -/
def identifierStart (tables : UnicodeTables) (char : Char) : Bool :=
  char = '_' || tables.isLetter char

/-- `_identifier_continue`. -/
def identifierContinue (tables : UnicodeTables) (char : Char) : Bool :=
  char = '_' || char = '\'' || tables.isDigit char || tables.isLetter char || tables.isMark char

/-! ## Coordinates -/

/-- `offsets[index]`: where the character with this index starts in the bytes. -/
def byteOffset (text : List Char) (index : ℕ) : ℕ :=
  ((text.take index).map Char.utf8Size).sum

/-- `_span`. -/
def byteSpan (text : List Char) (start stop : ℕ) : ByteSpan :=
  ⟨byteOffset text start, byteOffset text stop⟩

/-- The starts of the lines after the first, when `index` bytes have been read. -/
def lineStartsFrom (index : ℕ) : Bytes → List ℕ
  | [] => []
  | 0x0D :: 0x0A :: rest => (index + 2) :: lineStartsFrom (index + 2) rest
  | 0x0D :: rest => (index + 1) :: lineStartsFrom (index + 1) rest
  | 0x0A :: rest => (index + 1) :: lineStartsFrom (index + 1) rest
  | _ :: rest => lineStartsFrom (index + 1) rest

/-- `line_starts`. -/
def lineStarts (source : Bytes) : List ℕ :=
  0 :: lineStartsFrom 0 source

/-- `line_for_byte`: `bisect_right` in the sorted list of line starts. -/
def lineForByte (source : Bytes) (offset : ℕ) : ℕ :=
  ((lineStarts source).takeWhile (· ≤ offset)).length

/-- `_line_number_for_offset`, on the bytes before the offset. -/
def lineNumberForOffset (source : Bytes) (offset : ℕ) : ℕ :=
  let rec count : Bytes → ℕ
    | [] => 1
    | 0x0D :: 0x0A :: rest => count rest + 1
    | 0x0D :: rest => count rest + 1
    | 0x0A :: rest => count rest + 1
    | _ :: rest => count rest
  count (source.take offset)

end Hearth.Loader
