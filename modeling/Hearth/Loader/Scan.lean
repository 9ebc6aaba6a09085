import Hearth.Loader.Lexer
import Mathlib.Data.List.Sort

/-!
# Classification of loader calls

`_classify_tokens` and `scan_ocaml_loaders`.  Every look at neighbouring tokens is a
look at the tokens `before` (nearest first) or `after` one place of the stream.  The
only state that crosses places is the set of tainted loaders and the stack of open
delimiters that tells which places lie inside a local open `M.( ... )`.
-/

namespace Hearth.Loader

/-- `LoaderFamily`. -/
inductive LoaderFamily
  | source | artifact
  deriving DecidableEq, Repr

/-- `LoaderOutcome`. -/
inductive LoaderOutcome
  | literal | dynamic
  deriving DecidableEq, Repr

/-- `LoaderOccurrence`. -/
structure LoaderOccurrence where
  loader : String
  family : LoaderFamily
  outcome : LoaderOutcome
  reason : Option String
  loaderSpan : ByteSpan
  callSpan : ByteSpan
  sourceLine : ℕ
  pathLiteral : Option OcamlStringLiteral
  nameLiteral : Option OcamlStringLiteral
  deriving DecidableEq, Repr

/-- `LoaderScanRefusal`. -/
structure LoaderScanRefusal where
  kind : String
  reason : String
  span : ByteSpan
  sourceLine : ℕ
  deriving DecidableEq, Repr

/-- `ScanStatus`. -/
inductive ScanStatus
  | ok | refused
  deriving DecidableEq, Repr

/-- `LoaderScanResult`, without the digest of the source. -/
structure LoaderScanResult where
  status : ScanStatus
  sizeBytes : ℕ
  occurrences : List LoaderOccurrence
  refusal : Option LoaderScanRefusal
  deriving DecidableEq, Repr

/-! ## Neighbours -/

/-- The token is the plain identifier `value`. -/
def Token.isIdent (token : Token) (values : List String) : Bool :=
  token.kind = .ident && token.value ∈ values

def Token.isOp (token : Token) (values : List String) : Bool :=
  token.kind = .op && token.value ∈ values

/-- `_CALL_PREDECESSOR_OPERATORS`. -/
def callPredecessorOperators : List String := ["=", "->", "|", ":=", "<-", "&&", "||"]

/-- `_CONTROL_PREDECESSORS`. -/
def controlPredecessors : List String :=
  ["begin", "do", "else", "if", "in", "initializer", "match", "object", "struct", "then", "try",
   "when", "while", "with"]

/-- `_BOUNDARY_IDENTIFIERS`. -/
def boundaryIdentifiers : List String :=
  ["and", "as", "do", "done", "downto", "else", "end", "exception", "in", "then", "to", "when",
   "with"]

/-- `_INCOMPLETE_ATOMIC_IDENTIFIERS`. -/
def incompleteAtomicIdentifiers : List String :=
  ["_", "and", "as", "assert", "begin", "class", "constraint", "do", "done", "downto", "else", "end",
   "exception", "external", "for", "fun", "function", "functor", "if", "in", "include", "inherit",
   "initializer", "lazy", "let", "match", "method", "module", "mutable", "new", "nonrec", "object",
   "of", "open", "or", "private", "rec", "sig", "struct", "then", "to", "try", "type", "val",
   "virtual", "when", "while", "with"]

/-- `_direct_binding`. -/
def directBinding : List Token → Bool
  | [] => false
  | [previous] => previous.isIdent ["and", "let"]
  | previous :: earlier :: _ =>
      previous.isIdent ["and", "let"] ||
        (previous.isIdent ["rec"] && earlier.isIdent ["and", "let"])

/-- `_qualified_or_hash_prefixed`. -/
def qualifiedOrHashPrefixed : List Token → Bool
  | [] => false
  | [previous] => previous.isOp [".", "#"]
  | previous :: earlier :: _ =>
      previous.isOp [".", "#"] || (previous.kind = .lparen && earlier.isOp ["."])

/-- `_call_position`. -/
def callPosition (loader : String) : List Token → Bool
  | [] => true
  | previous :: _ =>
      if loader = "#use" then previous.kind = .semisemi
      else previous.kind ∈ [.semisemi, .semi, .comma, .lparen, .lbrack, .lbrace] ||
        previous.isOp callPredecessorOperators || previous.isIdent controlPredecessors

/-- As many closing parentheses as were opened; the end of the last one. -/
def closeParens : ℕ → ℕ → List Token → Option (List Token × ℕ)
  | 0, stop, rest => some (rest, stop)
  | opens + 1, _, token :: rest =>
      if token.kind = .rparen then closeParens opens token.span.stop rest else none
  | _ + 1, _, [] => none

/-- `_exact_string_argument`: the literal, what follows the argument, and its end. -/
def exactStringArgumentFrom (opens : ℕ) : List Token → Option (OcamlStringLiteral × List Token × ℕ)
  | [] => none
  | token :: rest =>
      if token.kind = .lparen then exactStringArgumentFrom (opens + 1) rest
      else if token.kind ≠ .string then none
      else
        match token.literal with
        | none => none
        | some literal =>
            (closeParens opens literal.span.stop rest).map fun (rest, stop) => (literal, rest, stop)

def exactStringArgument (after : List Token) : Option (OcamlStringLiteral × List Token × ℕ) :=
  exactStringArgumentFrom 0 after

/-- `_call_boundary`. -/
def callBoundary : List Token → Bool
  | [] => true
  | token :: _ =>
      token.kind ∈ [.semisemi, .semi, .comma] || token.kind.isClose ||
        token.isIdent boundaryIdentifiers || token.isOp ["|"]

/-- `_starts_expression`. -/
def startsExpression : List Token → Bool
  | [] => false
  | token :: _ =>
      !token.isIdent boundaryIdentifiers &&
        token.kind ∈ [.atom, .char, .hol, .ident, .lbrace, .lbrack, .loader, .opaqueExtension,
          .lparen, .rawIdent, .string, .typevar]

/-- The member accesses behind an atomic expression that ends at `stop`. -/
def memberAccesses (stop : ℕ) : List Token → List Token × ℕ
  | dot :: member :: rest =>
      if dot.isOp ["."] ∧ member.kind ∈ [.ident, .loader, .rawIdent] then
        memberAccesses member.span.stop rest
      else (dot :: member :: rest, stop)
  | rest => (rest, stop)

/-- The rest of a delimited expression, with the closers still expected. -/
def delimitedExpression (stop : ℕ) : List TokenKind → List Token → Option (List Token × ℕ)
  | [], rest => some (rest, stop)
  | _ :: _, [] => none
  | expected :: outer, token :: rest =>
      match token.kind.closer with
      | some closer => delimitedExpression token.span.stop (closer :: expected :: outer) rest
      | none =>
          if token.kind.isClose then
            if token.kind = expected then delimitedExpression token.span.stop outer rest else none
          else delimitedExpression token.span.stop (expected :: outer) rest

/-- `_single_expression_end`: what follows the expression, and the end of its last token. -/
def singleExpressionEnd (after : List Token) : Option (List Token × ℕ) :=
  if !startsExpression after then none
  else
    match after with
    | [] => none
    | token :: rest =>
        if token.kind = .typevar || token.isIdent incompleteAtomicIdentifiers then none
        else
          match token.kind.closer with
          | none => some (memberAccesses token.span.stop rest)
          | some closer => delimitedExpression token.span.stop [closer] rest

/-! ## Occurrences -/

section

variable (source : Bytes)

/-- `_dynamic`. -/
def dynamicOccurrence (token : Token) (family : LoaderFamily) (reason : String) (stop : Option ℕ)
    (pathLiteral nameLiteral : Option OcamlStringLiteral) : LoaderOccurrence where
  loader := token.value
  family := family
  outcome := .dynamic
  reason := some reason
  loaderSpan := token.span
  callSpan := ⟨token.span.start, (stop.map (max token.span.stop)).getD token.span.stop⟩
  sourceLine := lineForByte source token.span.start
  pathLiteral := pathLiteral
  nameLiteral := nameLiteral

/-- A literal call that ends at `stop`. -/
def literalOccurrence (token : Token) (family : LoaderFamily) (stop : ℕ)
    (pathLiteral : OcamlStringLiteral) (nameLiteral : Option OcamlStringLiteral) :
    LoaderOccurrence where
  loader := token.value
  family := family
  outcome := .literal
  reason := none
  loaderSpan := token.span
  callSpan := ⟨token.span.start, stop⟩
  sourceLine := lineForByte source token.span.start
  pathLiteral := some pathLiteral
  nameLiteral := nameLiteral

/-- `_UNCAPTURED_EXECUTION_MEMBERS`. -/
def uncapturedExecutionMembers : List (String × List String) :=
  [("Hol_loader", ["file_loader", "use_file", "load_on_path"]),
   ("Toploop", ["use_file", "use_silently", "use_output", "use_module"]),
   ("Topdirs", ["dir_use", "dir_mod_use", "dir_load", "dir_load_rec", "dir_cd", "dir_directory",
     "dir_remove_directory"]),
   ("Dynlink", ["loadfile", "loadfile_private"]),
   ("Sys", ["chdir"]),
   ("Unix", ["chdir", "fchdir"])]

/-- `_UNCAPTURED_GLOBAL_EXECUTION`. -/
def uncapturedGlobalExecution : List String := ["file_loader", "use_file", "load_on_path"]

/-- `_UNCAPTURED_DIRECTIVES`. -/
def uncapturedDirectives : List String :=
  ["mod_use", "load_rec", "cd", "directory", "remove_directory"]

def isIdentifierKind (kind : TokenKind) : Bool :=
  kind = .ident || kind = .rawIdent

/-- A row of `_uncaptured_execution_occurrences` for a reference to the module
`token` with these `members`. -/
def moduleReference (tables : UnicodeTables) (token : Token) (members : List String) :
    List Token → Option LoaderOccurrence
  | dot :: member :: _ =>
      if dot.value = "." ∧ isIdentifierKind member.kind ∧
          ¬ member.value.toList.head?.any tables.isUpper then
        if member.value ∉ members then none
        else
          some (dynamicOccurrence source
            ⟨.ident, token.value ++ "." ++ member.value, ⟨token.span.start, member.span.stop⟩, none⟩
            .source (if member.value ∈ ["chdir", "fchdir", "dir_cd"]
              then "source_changes_working_directory" else "uncaptured_file_execution")
            none none none)
      else some (dynamicOccurrence source token .source "uncaptured_execution_module_reference"
        none none none)
  | _ => some (dynamicOccurrence source token .source "uncaptured_execution_module_reference"
      none none none)

/-- One round of `_uncaptured_execution_occurrences`. -/
def uncapturedExecution (tables : UnicodeTables) (before : List Token) (token : Token)
    (after : List Token) : Option LoaderOccurrence :=
  if !isIdentifierKind token.kind then none
  else
    match uncapturedExecutionMembers.lookup token.value with
    | some members => moduleReference source tables token members after
    | none =>
        match before with
        | previous :: _ =>
            if token.value ∈ uncapturedDirectives ∧ previous.value = "#" then
              some (dynamicOccurrence source
                ⟨.ident, "#" ++ token.value, ⟨previous.span.start, token.span.stop⟩, none⟩ .source
                (if token.value = "cd" then "source_changes_working_directory"
                  else "uncaptured_file_execution") none none none)
            else if token.value ∈ uncapturedGlobalExecution then
              some (dynamicOccurrence source token .source "uncaptured_file_execution" none none none)
            else none
        | [] =>
            if token.value ∈ uncapturedGlobalExecution then
              some (dynamicOccurrence source token .source "uncaptured_file_execution" none none none)
            else none

/-- `_uncaptured_execution_occurrences`, behind the tokens `before`. -/
def uncapturedExecutionOccurrences (tables : UnicodeTables) (before : List Token) :
    List Token → List LoaderOccurrence
  | [] => []
  | token :: after =>
      (uncapturedExecution source tables before token after).toList ++
        uncapturedExecutionOccurrences tables (token :: before) after

/-! ## Loader uses -/

/-- One loader token in its surroundings; `locallyOpened` says that it lies inside
some `M.( ... )`. -/
structure LoaderUse where
  before : List Token
  token : Token
  after : List Token
  locallyOpened : Bool
  deriving DecidableEq, Repr

/-- The loader tokens of a stream in order, with `_locally_opened_loaders`: the stack
has one entry for each open delimiter, true for a local open. -/
def loaderUsesFrom (stack : List Bool) (before : List Token) : List Token → List LoaderUse
  | [] => []
  | token :: after =>
      if token.kind.closer.isSome then
        let opened := token.kind = .lparen && before.head?.any fun previous => previous.value = "."
        loaderUsesFrom (opened :: stack) (token :: before) after
      else if token.kind.isClose then loaderUsesFrom stack.tail (token :: before) after
      else if token.kind = .loader then
        ⟨before, token, after, stack.any id⟩ :: loaderUsesFrom stack (token :: before) after
      else loaderUsesFrom stack (token :: before) after

def loaderUses (tokens : List Token) : List LoaderUse :=
  loaderUsesFrom [] [] tokens

/-- `SOURCE_LOADERS` and `ARTIFACT_LOADERS` tell the family. -/
def LoaderUse.family (use : LoaderUse) : LoaderFamily :=
  if use.token.value ∈ sourceLoaders then .source else .artifact

/-- The use binds the loader's name. -/
def LoaderUse.isBinding (use : LoaderUse) : Bool :=
  directBinding use.before

/-- The use names the loader of some module. -/
def LoaderUse.isQualified (use : LoaderUse) : Bool :=
  qualifiedOrHashPrefixed use.before || use.locallyOpened

/-- The use stands where a call can start. -/
def LoaderUse.inCallPosition (use : LoaderUse) : Bool :=
  callPosition use.token.value use.before

/-- A literal that is not a file-system string. -/
def OcamlStringLiteral.unsupported (literal : OcamlStringLiteral) : Bool :=
  literal.utf8Text.isNone || literal.valueBytes.contains 0

/-- The classification of a source loader in call position: the occurrence, and
whether it taints its loader. -/
def classifySourceCall (use : LoaderUse) : LoaderOccurrence × Bool :=
  match exactStringArgument use.after with
  | none =>
      (dynamicOccurrence source use.token .source "argument_is_not_an_exact_string_literal"
        none none none, true)
  | some (pathLiteral, afterPath, callEnd) =>
      if pathLiteral.unsupported then
        (dynamicOccurrence source use.token .source
          "path_literal_is_not_a_supported_filesystem_string" (some callEnd) (some pathLiteral) none,
          true)
      else if !callBoundary afterPath then
        (dynamicOccurrence source use.token .source "extra_expression_after_path_literal"
          (some callEnd) (some pathLiteral) none, true)
      else (literalOccurrence source use.token .source callEnd pathLiteral none, false)

/-- The end of a complete artifact call, or why it is not complete. -/
def artifactCallEnd (loader : String) (afterPath : List Token) (callEnd : ℕ) :
    ℕ × Option String :=
  if loader = "define_from_elf" then
    (callEnd, if callBoundary afterPath then none else some "extra_expression_after_path_literal")
  else
    match singleExpressionEnd afterPath with
    | none => (callEnd, some "missing_instruction_expression_after_path_literal")
    | some (afterExpression, stop) =>
        (stop, if callBoundary afterExpression then none
          else some "extra_expression_after_instruction_expression")

/-- The classification of an artifact loader in call position. -/
def classifyArtifactCall (use : LoaderUse) : LoaderOccurrence :=
  match exactStringArgument use.after with
  | none =>
      dynamicOccurrence source use.token .artifact "name_is_not_an_exact_string_literal"
        none none none
  | some (nameLiteral, afterName, nameEnd) =>
      match exactStringArgument afterName with
      | none =>
          dynamicOccurrence source use.token .artifact "path_is_not_an_exact_string_literal"
            (some nameEnd) none (some nameLiteral)
      | some (pathLiteral, afterPath, callEnd) =>
          if nameLiteral.unsupported || pathLiteral.unsupported then
            dynamicOccurrence source use.token .artifact
              "name_or_path_literal_is_not_a_supported_filesystem_string" (some callEnd)
              (some pathLiteral) (some nameLiteral)
          else
            match artifactCallEnd use.token.value afterPath callEnd with
            | (stop, some reason) =>
                dynamicOccurrence source use.token .artifact reason (some stop) (some pathLiteral)
                  (some nameLiteral)
            | (stop, none) =>
                literalOccurrence source use.token .artifact stop pathLiteral (some nameLiteral)

/-- One round of `_classify_tokens`: the occurrence, if any, and whether the use
taints its loader. -/
def classifyUse (tainted : List String) (use : LoaderUse) : Option LoaderOccurrence × Bool :=
  let dynamic := fun reason => dynamicOccurrence source use.token use.family reason none none none
  if use.isBinding then
    -- Decoder files define the artifact helpers before other files call them, so
    -- this is not an artifact reference; a same-file use is shadowed all the same.
    (if use.family = .source then some (dynamic "binding_position") else none, true)
  else if use.isQualified then (some (dynamic "qualified_loader_reference"), false)
  else if use.token.value ∈ tainted then (some (dynamic "shadowed_loader_binding"), false)
  else if !use.inCallPosition then (some (dynamic "not_in_call_position"), true)
  else
    match use.family with
    | .source =>
        let (occurrence, taints) := classifySourceCall source use
        (some occurrence, taints)
    | .artifact => (some (classifyArtifactCall source use), false)

/-- The loop of `_classify_tokens` over the loader uses. -/
def classifyUses (tainted : List String) : List LoaderUse → List (Option LoaderOccurrence)
  | [] => []
  | use :: rest =>
      let (occurrence, taints) := classifyUse source tainted use
      occurrence :: classifyUses (if taints then use.token.value :: tainted else tainted) rest

/-- The sort key of `_classify_tokens`. -/
def LoaderOccurrence.startsBy (first second : LoaderOccurrence) : Prop :=
  first.loaderSpan.start ≤ second.loaderSpan.start

instance : DecidableRel LoaderOccurrence.startsBy :=
  fun first second => inferInstanceAs (Decidable (first.loaderSpan.start ≤ second.loaderSpan.start))

/-- `_classify_tokens`; `sorted` is stable, as insertion from the right is. -/
def classifyTokens (tables : UnicodeTables) (tokens : List Token) : List LoaderOccurrence :=
  (uncapturedExecutionOccurrences source tables [] tokens ++
    (classifyUses source [] (loaderUses tokens)).filterMap id).insertionSort
      LoaderOccurrence.startsBy

end

def maxSourceBytes : ℕ := 64 * 1024 * 1024

/-- A refused scan. -/
def refusedScan (source : Bytes) (refusal : LoaderScanRefusal) : LoaderScanResult :=
  ⟨.refused, source.length, [], some refusal⟩

/-- `scan_ocaml_loaders`. -/
def scanOcamlLoaders (tables : UnicodeTables) (source : Bytes) : LoaderScanResult :=
  if maxSourceBytes < source.length then
    refusedScan source ⟨"source_size_limit",
      "source exceeds the " ++ toString maxSourceBytes ++ "-byte loader scan bound",
      ⟨0, source.length⟩, 1⟩
  else
    match String.fromUTF8? ⟨source.toArray⟩ with
    | none =>
        let span := tables.invalidUtf8 source
        refusedScan source ⟨"invalid_utf8", "source is not strict UTF-8", span,
          lineNumberForOffset source span.start⟩
    | some decoded =>
        let text := decoded.toList
        match tokenize tables text with
        | .error failure =>
            let start := byteOffset text (min failure.start text.length)
            let stop := byteOffset text (min (max failure.stop failure.start) text.length)
            refusedScan source ⟨failure.kind, failure.reason, ⟨start, stop⟩, lineForByte source start⟩
        | .ok tokens => ⟨.ok, source.length, classifyTokens source tables tokens, none⟩

end Hearth.Loader
