import Hearth.Loader.Directives
import Hearth.Loader.ProveBindings

/-!
# What is inside a quotation

The interior of a HOL quotation has no say in the loader scan.  Another interior is read as the quotation is, the
tokens in front of it stay where they are and those behind it move; and no row depends on where its tokens stand,
but for its own place.
-/

namespace Hearth.Loader

open Hearth.Library

/-! ## Moved tokens -/

section

variable (place : ℕ → ℕ)

/-- The span between the places of its ends. -/
def ByteSpan.moved (span : ByteSpan) : ByteSpan :=
  ⟨place span.start, place span.stop⟩

def OcamlStringLiteral.moved (literal : OcamlStringLiteral) : OcamlStringLiteral :=
  { literal with span := literal.span.moved place }

/-- The token, elsewhere. -/
def Token.moved (token : Token) : Token where
  kind := token.kind
  value := token.value
  span := token.span.moved place
  literal := token.literal.map (OcamlStringLiteral.moved place)

def LoaderUse.moved (use : LoaderUse) : LoaderUse where
  before := use.before.map (Token.moved place)
  token := use.token.moved place
  after := use.after.map (Token.moved place)
  locallyOpened := use.locallyOpened

@[simp] theorem Token.moved_kind (token : Token) : (token.moved place).kind = token.kind := rfl

@[simp] theorem Token.moved_value (token : Token) : (token.moved place).value = token.value := rfl

@[simp] theorem Token.moved_span (token : Token) : (token.moved place).span = token.span.moved place := rfl

@[simp] theorem Token.moved_isIdent (token : Token) (values : List String) :
    (token.moved place).isIdent values = token.isIdent values := rfl

@[simp] theorem Token.moved_isOp (token : Token) (values : List String) :
    (token.moved place).isOp values = token.isOp values := rfl

end

/-! ## What a row says -/

/-- What a literal says besides its place. -/
structure LiteralContent where
  valueBytes : Bytes
  raw : Bytes
  quoted : Bool
  deriving DecidableEq, Repr

def OcamlStringLiteral.content (literal : OcamlStringLiteral) : LiteralContent :=
  ⟨literal.valueBytes, literal.raw, literal.quoted⟩

/-- What a row says besides its place. -/
structure RowContent where
  loader : String
  family : LoaderFamily
  outcome : LoaderOutcome
  reason : Option String
  pathLiteral : Option LiteralContent
  nameLiteral : Option LiteralContent
  deriving DecidableEq, Repr

def LoaderOccurrence.content (row : LoaderOccurrence) : RowContent where
  loader := row.loader
  family := row.family
  outcome := row.outcome
  reason := row.reason
  pathLiteral := row.pathLiteral.map OcamlStringLiteral.content
  nameLiteral := row.nameLiteral.map OcamlStringLiteral.content

/-- What a row says, with the place it is sorted by. -/
def LoaderOccurrence.placed (place : ℕ → ℕ) (row : LoaderOccurrence) : RowContent × ℕ :=
  (row.content, place row.loaderSpan.start)

section

variable {place : ℕ → ℕ} {source source' : Bytes} {tables : UnicodeTables}

theorem content_moved (literal : Option OcamlStringLiteral) :
    (literal.map (OcamlStringLiteral.moved place)).map OcamlStringLiteral.content =
      literal.map OcamlStringLiteral.content := by
  cases literal <;> rfl

theorem placed_dynamicOccurrence (token : Token) (family : LoaderFamily) (reason : String) (stop stop' : Option ℕ)
    (path name : Option OcamlStringLiteral) :
    (dynamicOccurrence source' (token.moved place) family reason stop' (path.map (OcamlStringLiteral.moved place))
        (name.map (OcamlStringLiteral.moved place))).placed id =
      (dynamicOccurrence source token family reason stop path name).placed place := by
  unfold LoaderOccurrence.placed LoaderOccurrence.content dynamicOccurrence
  rw [content_moved, content_moved]
  rfl

theorem placed_literalOccurrence (token : Token) (family : LoaderFamily) (stop stop' : ℕ) (path : OcamlStringLiteral)
    (name : Option OcamlStringLiteral) :
    (literalOccurrence source' (token.moved place) family stop' (path.moved place)
        (name.map (OcamlStringLiteral.moved place))).placed id =
      (literalOccurrence source token family stop path name).placed place := by
  unfold LoaderOccurrence.placed LoaderOccurrence.content literalOccurrence
  rw [content_moved]
  rfl

/-! ## Neighbours -/

theorem directBinding_moved (before : List Token) :
    directBinding (before.map (Token.moved place)) = directBinding before := by
  match before with
  | [] => rfl
  | [_] => rfl
  | _ :: _ :: _ => rfl

theorem qualifiedOrHashPrefixed_moved (before : List Token) :
    qualifiedOrHashPrefixed (before.map (Token.moved place)) = qualifiedOrHashPrefixed before := by
  match before with
  | [] => rfl
  | [_] => rfl
  | _ :: _ :: _ => rfl

theorem callPosition_moved (loader : String) (before : List Token) :
    callPosition loader (before.map (Token.moved place)) = callPosition loader before := by
  cases before <;> rfl

theorem callBoundary_moved (after : List Token) : callBoundary (after.map (Token.moved place)) = callBoundary after := by
  cases after <;> rfl

theorem startsExpression_moved (after : List Token) :
    startsExpression (after.map (Token.moved place)) = startsExpression after := by
  cases after <;> rfl

theorem closeParens_moved (opens stop : ℕ) (rest : List Token) :
    closeParens opens (place stop) (rest.map (Token.moved place)) =
      (closeParens opens stop rest).map fun (rest, stop) => (rest.map (Token.moved place), place stop) := by
  induction opens generalizing stop rest with
  | zero => rfl
  | succ opens ih =>
      cases rest with
      | nil => rfl
      | cons token rest =>
          rw [List.map_cons, closeParens, closeParens, Token.moved_kind]
          split
          · exact ih token.span.stop rest
          · rfl

theorem exactStringArgumentFrom_moved (opens : ℕ) (after : List Token) :
    exactStringArgumentFrom opens (after.map (Token.moved place)) =
      (exactStringArgumentFrom opens after).map fun (literal, rest, stop) =>
        (literal.moved place, rest.map (Token.moved place), place stop) := by
  induction after generalizing opens with
  | nil => rfl
  | cons token after ih =>
      rw [List.map_cons, exactStringArgumentFrom, exactStringArgumentFrom, Token.moved_kind]
      split
      · exact ih (opens + 1)
      split
      · rfl
      · have hliteral : (token.moved place).literal = token.literal.map (OcamlStringLiteral.moved place) := rfl
        rw [hliteral]
        cases token.literal with
        | none => rfl
        | some literal =>
            have hstop : (literal.moved place).span.stop = place literal.span.stop := rfl
            rw [Option.map_some]
            dsimp only
            rw [hstop, closeParens_moved]
            cases closeParens opens literal.span.stop after <;> rfl

theorem memberAccesses_moved (stop : ℕ) (rest : List Token) :
    memberAccesses (place stop) (rest.map (Token.moved place)) =
      ((memberAccesses stop rest).1.map (Token.moved place), place (memberAccesses stop rest).2) := by
  induction stop, rest using memberAccesses.induct with
  | case1 stop dot member rest haccess ih =>
      rw [List.map_cons, List.map_cons, memberAccesses, memberAccesses, Token.moved_isOp, Token.moved_kind,
        if_pos haccess, if_pos haccess]
      exact ih
  | case2 stop dot member rest haccess =>
      rw [List.map_cons, List.map_cons, memberAccesses, memberAccesses, Token.moved_isOp, Token.moved_kind,
        if_neg haccess, if_neg haccess]
      rfl
  | case3 stop rest hrest =>
      match rest, hrest with
      | [], _ => rfl
      | [_], _ => rfl
      | dot :: member :: rest, hrest => exact absurd rfl (hrest dot member rest)

theorem delimitedExpression_moved (stop : ℕ) (expected : List TokenKind) (rest : List Token) :
    delimitedExpression (place stop) expected (rest.map (Token.moved place)) =
      (delimitedExpression stop expected rest).map fun (rest, stop) => (rest.map (Token.moved place), place stop) := by
  induction rest generalizing stop expected with
  | nil => cases expected <;> rfl
  | cons token rest ih =>
      cases expected with
      | nil => rfl
      | cons closer outer =>
          have hih := fun expected => ih token.span.stop expected
          rw [List.map_cons, delimitedExpression, delimitedExpression, Token.moved_kind]
          cases token.kind.closer with
          | some inner => exact hih (inner :: closer :: outer)
          | none =>
              dsimp only
              split
              · split
                · exact hih outer
                · rfl
              · exact hih (closer :: outer)

theorem singleExpressionEnd_moved (after : List Token) :
    singleExpressionEnd (after.map (Token.moved place)) =
      (singleExpressionEnd after).map fun (rest, stop) => (rest.map (Token.moved place), place stop) := by
  unfold singleExpressionEnd
  rw [startsExpression_moved]
  split
  · rfl
  cases after with
  | nil => rfl
  | cons token after =>
      have hincomplete : ((token.moved place).kind = .typevar ||
          (token.moved place).isIdent incompleteAtomicIdentifiers) =
            (token.kind = .typevar || token.isIdent incompleteAtomicIdentifiers) := rfl
      rw [List.map_cons]
      dsimp only
      rw [hincomplete, Token.moved_kind]
      split
      · rfl
      cases token.kind.closer with
      | none => exact congrArg some (memberAccesses_moved token.span.stop after)
      | some closer => exact delimitedExpression_moved token.span.stop [closer] after

/-! ## Uses -/

theorem loaderUsesFrom_moved (stack : List Bool) (before tokens : List Token) :
    loaderUsesFrom stack (before.map (Token.moved place)) (tokens.map (Token.moved place)) =
      (loaderUsesFrom stack before tokens).map (LoaderUse.moved place) := by
  induction tokens generalizing stack before with
  | nil => rfl
  | cons token tokens ih =>
      have hopened : ((before.map (Token.moved place)).head?.any fun previous => previous.value = ".") =
          before.head?.any fun previous => previous.value = "." := by
        cases before <;> rfl
      have hrest := fun stack => ih stack (token :: before)
      rw [List.map_cons, loaderUsesFrom, loaderUsesFrom, Token.moved_kind, hopened]
      split
      · exact hrest _
      split
      · exact hrest _
      split
      · rw [List.map_cons]
        exact congrArg (LoaderUse.moved place ⟨before, token, tokens, stack.any id⟩ :: ·) (hrest stack)
      · exact hrest stack

theorem LoaderUse.family_moved (use : LoaderUse) : (use.moved place).family = use.family := rfl

theorem artifactCallEnd_moved (loader : String) (after : List Token) (stop : ℕ) :
    (artifactCallEnd loader (after.map (Token.moved place)) (place stop)).2 = (artifactCallEnd loader after stop).2 := by
  unfold artifactCallEnd
  split
  · simp only [callBoundary_moved]
  · rw [singleExpressionEnd_moved]
    cases singleExpressionEnd after with
    | none => rfl
    | some ending => simp only [Option.map_some, callBoundary_moved]

theorem classifySourceCall_moved (use : LoaderUse) :
    (classifySourceCall source' (use.moved place)).1.placed id = (classifySourceCall source use).1.placed place ∧
      (classifySourceCall source' (use.moved place)).2 = (classifySourceCall source use).2 := by
  have hargument := @exactStringArgumentFrom_moved place 0 use.after
  have htoken : (use.moved place).token = use.token.moved place := rfl
  have hafter : (use.moved place).after = use.after.map (Token.moved place) := rfl
  unfold classifySourceCall exactStringArgument
  rw [hafter, hargument, htoken]
  cases exactStringArgumentFrom 0 use.after with
  | none => exact ⟨placed_dynamicOccurrence use.token _ _ _ _ none none, rfl⟩
  | some argument =>
      obtain ⟨path, afterPath, stop⟩ := argument
      have hunsupported : (path.moved place).unsupported = path.unsupported := rfl
      rw [Option.map_some]
      dsimp only
      rw [hunsupported, callBoundary_moved]
      split
      · exact ⟨placed_dynamicOccurrence use.token _ _ _ _ (some path) none, rfl⟩
      split
      · exact ⟨placed_dynamicOccurrence use.token _ _ _ _ (some path) none, rfl⟩
      · exact ⟨placed_literalOccurrence use.token _ _ _ path none, rfl⟩

theorem classifyArtifactCall_moved (use : LoaderUse) :
    (classifyArtifactCall source' (use.moved place)).placed id = (classifyArtifactCall source use).placed place := by
  have htoken : (use.moved place).token = use.token.moved place := rfl
  have hafter : (use.moved place).after = use.after.map (Token.moved place) := rfl
  unfold classifyArtifactCall exactStringArgument
  rw [hafter, exactStringArgumentFrom_moved, htoken]
  cases exactStringArgumentFrom 0 use.after with
  | none => exact placed_dynamicOccurrence use.token _ _ _ _ none none
  | some argument =>
      obtain ⟨name, afterName, nameEnd⟩ := argument
      rw [Option.map_some]
      dsimp only
      rw [exactStringArgumentFrom_moved]
      cases exactStringArgumentFrom 0 afterName with
      | none => exact placed_dynamicOccurrence use.token _ _ _ _ none (some name)
      | some argument =>
          obtain ⟨path, afterPath, stop⟩ := argument
          have hunsupported : ((name.moved place).unsupported || (path.moved place).unsupported) =
              (name.unsupported || path.unsupported) := rfl
          rw [Option.map_some]
          dsimp only
          rw [hunsupported]
          split
          · exact placed_dynamicOccurrence use.token _ _ _ _ (some path) (some name)
          · -- Whether the call is complete does not depend on where it ends.
            have hend := @artifactCallEnd_moved place use.token.value afterPath stop
            rw [Token.moved_value]
            generalize artifactCallEnd use.token.value afterPath stop = ending at hend
            generalize artifactCallEnd use.token.value (afterPath.map (Token.moved place)) (place stop) = ending' at hend
            obtain ⟨ending, reason⟩ := ending
            obtain ⟨ending', reason'⟩ := ending'
            obtain rfl : reason' = reason := hend
            cases reason' with
            | none => exact placed_literalOccurrence use.token _ _ _ path (some name)
            | some reason => exact placed_dynamicOccurrence use.token _ _ _ _ (some path) (some name)

theorem classifyUse_moved (tainted : List String) (use : LoaderUse) :
    (classifyUse source' tainted (use.moved place)).1.map (LoaderOccurrence.placed id) =
        (classifyUse source tainted use).1.map (LoaderOccurrence.placed place) ∧
      (classifyUse source' tainted (use.moved place)).2 = (classifyUse source tainted use).2 := by
  have hbinding : (use.moved place).isBinding = use.isBinding := directBinding_moved use.before
  have hqualified : (use.moved place).isQualified = use.isQualified :=
    congrArg (· || use.locallyOpened) (qualifiedOrHashPrefixed_moved use.before)
  have hposition : (use.moved place).inCallPosition = use.inCallPosition :=
    callPosition_moved use.token.value use.before
  have htoken : (use.moved place).token = use.token.moved place := rfl
  have hdynamic : ∀ reason, (dynamicOccurrence source' (use.token.moved place) use.family reason none none none).placed
      id = (dynamicOccurrence source use.token use.family reason none none none).placed place :=
    fun reason => placed_dynamicOccurrence use.token use.family reason none none none none
  unfold classifyUse
  dsimp only
  rw [hbinding, hqualified, hposition, htoken, LoaderUse.family_moved, Token.moved_value]
  split
  · refine ⟨?_, rfl⟩
    split
    · exact congrArg some (hdynamic _)
    · rfl
  split
  · exact ⟨congrArg some (hdynamic _), rfl⟩
  split
  · exact ⟨congrArg some (hdynamic _), rfl⟩
  split
  · exact ⟨congrArg some (hdynamic _), rfl⟩
  cases use.family with
  | source =>
      obtain ⟨hrow, htaints⟩ := @classifySourceCall_moved place source source' use
      exact ⟨congrArg some hrow, htaints⟩
  | artifact => exact ⟨congrArg some (classifyArtifactCall_moved use), rfl⟩

theorem classifyUses_moved (tainted : List String) (uses : List LoaderUse) :
    (classifyUses source' tainted (uses.map (LoaderUse.moved place))).map (Option.map (LoaderOccurrence.placed id)) =
      (classifyUses source tainted uses).map (Option.map (LoaderOccurrence.placed place)) := by
  induction uses generalizing tainted with
  | nil => rfl
  | cons use uses ih =>
      obtain ⟨hrow, htaints⟩ :=
        @classifyUse_moved place source source' tainted use
      have hvalue : (use.moved place).token.value = use.token.value := rfl
      simp only [List.map_cons, classifyUses]
      rw [hrow, htaints, hvalue, ih]

/-! ## Uncaptured executions -/

theorem moduleReference_moved (token : Token) (members : List String) (after : List Token) :
    (moduleReference source' tables (token.moved place) members (after.map (Token.moved place))).map
        (LoaderOccurrence.placed id) =
      (moduleReference source tables token members after).map (LoaderOccurrence.placed place) := by
  have hdynamic : ∀ reason, (dynamicOccurrence source' (token.moved place) .source reason none none none).placed id =
      (dynamicOccurrence source token .source reason none none none).placed place :=
    fun reason => placed_dynamicOccurrence token .source reason none none none none
  match after with
  | [] => exact congrArg some (hdynamic _)
  | [_] => exact congrArg some (hdynamic _)
  | dot :: member :: rest =>
      rw [List.map_cons, List.map_cons, moduleReference, moduleReference]
      rw [Token.moved_value, Token.moved_kind, Token.moved_value, Token.moved_value]
      split
      · split
        · rfl
        · exact congrArg some (placed_dynamicOccurrence
            ⟨.ident, token.value ++ "." ++ member.value, ⟨token.span.start, member.span.stop⟩, none⟩ .source _ none none
            none none)
      · exact congrArg some (hdynamic _)

theorem uncapturedExecution_moved (before : List Token) (token : Token) (after : List Token) :
    (uncapturedExecution source' tables (before.map (Token.moved place)) (token.moved place)
        (after.map (Token.moved place))).map (LoaderOccurrence.placed id) =
      (uncapturedExecution source tables before token after).map (LoaderOccurrence.placed place) := by
  have hglobal : some ((dynamicOccurrence source' (token.moved place) .source "uncaptured_file_execution" none none
      none).placed id) = some ((dynamicOccurrence source token .source "uncaptured_file_execution" none none none).placed
        place) := congrArg some (placed_dynamicOccurrence token .source _ none none none none)
  unfold uncapturedExecution
  rw [Token.moved_kind, Token.moved_value]
  split
  · rfl
  cases uncapturedExecutionMembers.lookup token.value with
  | some members => exact moduleReference_moved token members after
  | none =>
      cases before with
      | nil =>
          rw [List.map_nil]
          dsimp only
          split
          · exact hglobal
          · rfl
      | cons previous before =>
          rw [List.map_cons]
          dsimp only
          rw [Token.moved_value]
          split
          · exact congrArg some (placed_dynamicOccurrence
              ⟨.ident, "#" ++ token.value, ⟨previous.span.start, token.span.stop⟩, none⟩ .source _ none none none none)
          split
          · exact hglobal
          · rfl

theorem uncapturedExecutionOccurrences_moved (before tokens : List Token) :
    (uncapturedExecutionOccurrences source' tables (before.map (Token.moved place))
        (tokens.map (Token.moved place))).map (LoaderOccurrence.placed id) =
      (uncapturedExecutionOccurrences source tables before tokens).map (LoaderOccurrence.placed place) := by
  induction tokens generalizing before with
  | nil => rfl
  | cons token tokens ih =>
      have hhere := @uncapturedExecution_moved place source source' tables before token tokens
      have hrest := ih (token :: before)
      rw [List.map_cons] at hrest
      rw [List.map_cons, uncapturedExecutionOccurrences, uncapturedExecutionOccurrences, List.map_append,
        List.map_append, hrest, ← Option.toList_map, ← Option.toList_map, hhere]

/-! ## Rows -/

/-- A row starts where some token does. -/
theorem exists_token_of_row {tokens : List Token} {row : LoaderOccurrence}
    (h : row ∈ classifyTokens source tables tokens) : ∃ token ∈ tokens, row.loaderSpan.start = token.span.start := by
  rcases mem_classifyTokens.mp h with huncaptured | huse
  · obtain ⟨index, token, htoken, hrow⟩ := mem_uncapturedExecutionOccurrences.mp huncaptured
    have hmem := List.mem_of_getElem? htoken
    cases names_of_uncapturedExecution hrow with
    | word hspan _ => exact ⟨token, hmem, by rw [hspan]⟩
    | member dot member rest hafter hdot hspan _ => exact ⟨token, hmem, by rw [hspan]⟩
    | directive previous rest hbefore hprevious hspan _ =>
        refine ⟨previous, ?_, by rw [hspan]⟩
        have hprevious : previous ∈ (tokens.take index).reverse ++ [] := by
          rw [hbefore]
          exact .head _
        rw [List.append_nil, List.mem_reverse] at hprevious
        exact List.mem_of_mem_take hprevious
  · obtain ⟨index, token, htoken, -, hspan⟩ := exists_loader_of_row huse
    exact ⟨token, List.mem_of_getElem? htoken, by rw [hspan]⟩

/-- What the rows say, before they are sorted. -/
theorem unsorted_moved (tokens : List Token) :
    (uncapturedExecutionOccurrences source' tables [] (tokens.map (Token.moved place)) ++
        (classifyUses source' [] (loaderUses (tokens.map (Token.moved place)))).filterMap id).map
        (LoaderOccurrence.placed id) =
      (uncapturedExecutionOccurrences source tables [] tokens ++
        (classifyUses source [] (loaderUses tokens)).filterMap id).map (LoaderOccurrence.placed place) := by
  have hrows := @uncapturedExecutionOccurrences_moved place source source' tables [] tokens
  have huses : loaderUses (tokens.map (Token.moved place)) = (loaderUses tokens).map (LoaderUse.moved place) :=
    loaderUsesFrom_moved [] [] tokens
  have hcalls := congrArg (List.filterMap id)
    (@classifyUses_moved place source source' [] (loaderUses tokens))
  rw [List.filterMap_map, List.filterMap_map] at hcalls
  rw [List.map_nil] at hrows
  rw [List.map_append, List.map_append, hrows, huses, List.map_filterMap, List.map_filterMap]
  exact congrArg _ hcalls

/-- What the rows say, and their order, does not depend on the places, if these keep the order of the tokens. -/
theorem classifyTokens_moved {tokens : List Token}
    (horder : ∀ first ∈ tokens, ∀ second ∈ tokens,
      (first.span.start ≤ second.span.start ↔ place first.span.start ≤ place second.span.start)) :
    (classifyTokens source' tables (tokens.map (Token.moved place))).map LoaderOccurrence.content =
      (classifyTokens source tables tokens).map LoaderOccurrence.content := by
  -- Both lists of rows are sorted by the second component of what they say.
  let byPlace := fun first second : RowContent × ℕ => first.2 ≤ second.2
  have hsorted : (classifyTokens source' tables (tokens.map (Token.moved place))).map (LoaderOccurrence.placed id) =
      (classifyTokens source tables tokens).map (LoaderOccurrence.placed place) := by
    unfold classifyTokens
    rw [List.map_insertionSort LoaderOccurrence.startsBy byPlace, unsorted_moved,
      List.map_insertionSort LoaderOccurrence.startsBy byPlace]
    · intro first hfirst second hsecond
      obtain ⟨token, htoken, hstart⟩ := exists_token_of_row ((List.mem_insertionSort _).mpr hfirst)
      obtain ⟨token', htoken', hstart'⟩ := exists_token_of_row ((List.mem_insertionSort _).mpr hsecond)
      show first.loaderSpan.start ≤ second.loaderSpan.start ↔
        place first.loaderSpan.start ≤ place second.loaderSpan.start
      rw [hstart, hstart']
      exact horder token htoken token' htoken'
    · exact fun _ _ _ _ => Iff.rfl
  have hcontent := congrArg (List.map Prod.fst) hsorted
  rw [List.map_map, List.map_map] at hcontent
  exact hcontent

end

/-! ## Another interior -/

/-- A quotation with its backquotes. -/
def quotation (body : List Char) : List Char :=
  backquote :: (body ++ [backquote])

/-- Where a place is when a piece of `old` bytes behind `front` is replaced by one of `new` bytes. -/
def moveBehind (front old new offset : ℕ) : ℕ :=
  if offset ≤ front then offset else offset - old + new

theorem moveBehind_front {front old new offset : ℕ} (h : offset ≤ front) : moveBehind front old new offset = offset :=
  if_pos h

theorem moveBehind_behind {front old : ℕ} (new : ℕ) (hold : 0 < old) (offset : ℕ) :
    moveBehind front old new (front + old + offset) = front + new + offset := by
  unfold moveBehind
  rw [if_neg (by omega)]
  omega

section

variable {tables : UnicodeTables} {size : ℕ}

/-- A quotation is one round. -/
theorem lexToken_quotation {body : List Char} (hbody : backquote ∉ body) (behind : List Char) (previous : Option Char)
    (delimiters : List (TokenKind × ℕ)) :
    ∃ lexed, lexToken tables size previous delimiters backquote (body ++ backquote :: behind) = .ok lexed ∧
      lexed.token = some (.hol, "", none) ∧ lexed.delimiters = delimiters ∧ lexed.rest = behind := by
  have hread : ∀ start, holBackquote size start (body ++ backquote :: behind) = .ok behind := by
    intro start
    unfold holBackquote
    rw [splitAtChar_append hbody]
  unfold lexToken
  dsimp only
  rw [if_neg (by decide), if_neg (by decide)]
  dsimp only
  rw [if_neg (fun hparen => absurd hparen.1 (by decide)), if_neg (by decide), if_neg (by decide)]
  dsimp only
  rw [if_neg (by decide), if_pos rfl, hread]
  exact ⟨_, rfl, rfl, rfl, rfl⟩

theorem placedToken_moved {place : ℕ → ℕ} {read read' piece piece' : List Char} {kind : TokenKind} {value : String}
    {literal : Option (Bytes × Bool)} (hstart : place (width read) = width read')
    (hstop : place (width (read ++ piece)) = width (read' ++ piece')) (hpiece : literal = none ∨ piece = piece') :
    placedToken read' piece' kind value literal = (placedToken read piece kind value literal).moved place := by
  unfold placedToken Token.moved ByteSpan.moved
  rw [hstart, hstop]
  rcases hpiece with rfl | rfl
  · rfl
  · cases literal with
    | none => rfl
    | some literal => simp only [Option.map_some, OcamlStringLiteral.moved, ByteSpan.moved, hstart, hstop]

/-- Behind the quotation the text is read as it was. -/
theorem Reading.behind {place : ℕ → ℕ} {text read after : List Char} {previous : Option Char} {count : ℕ}
    {delimiters : List (TokenKind × ℕ)} {tokens : List Token}
    (h : Reading tables text read after previous count delimiters tokens) {text' read' : List Char}
    {delimiters' : List (TokenKind × ℕ)} (htext : text' = read' ++ after)
    (hplace : ∀ piece, place (width (read ++ piece)) = width (read' ++ piece))
    (hsame : delimiters'.map Prod.fst = delimiters.map Prod.fst) :
    Reading tables text' read' after previous count delimiters' (tokens.map (Token.moved place)) := by
  have hstop : isStopper ';' = true := rfl
  induction h generalizing read' delimiters' with
  | done =>
      rw [List.map_eq_nil_iff.mp hsame, ← List.append_nil read', ← htext]
      exact .done
  | @blank read piece after char previous count delimiters tokens lexed hlexed hafter htoken hrun ih =>
      obtain ⟨piece', hpiece, hread⟩ := lexToken_read hstop hlexed
      rw [hafter] at hpiece
      obtain rfl : piece = piece' := List.append_cancel_right hpiece
      obtain ⟨lexed', hlexed', hround⟩ :=
        hread text'.length previous delimiters' lexed.rest rfl hsame id (.inl htoken)
      obtain hround | ⟨line, hline, hhead, -⟩ := hround
      · rw [hafter] at hlexed'
        refine .blank hlexed' (hround.rest.trans hafter) (hround.token.trans htoken) ?_
        refine ih (by rw [htext]; simp) (fun piece' => ?_) hround.delimiters
        rw [List.append_assoc, List.append_assoc]
        exact hplace _
      · rw [hline] at hhead
        exact absurd rfl hhead
  | @token read piece after char previous count delimiters tokens lexed kind value literal hlexed hafter htoken hlimit
      hrun ih =>
      obtain ⟨piece', hpiece, hread⟩ := lexToken_read hstop hlexed
      rw [hafter] at hpiece
      obtain rfl : piece = piece' := List.append_cancel_right hpiece
      obtain ⟨lexed', hlexed', hround⟩ :=
        hread text'.length previous delimiters' lexed.rest rfl hsame id (.inr (.inr (.inl rfl)))
      obtain hround | ⟨line, hline, hhead, -⟩ := hround
      · rw [hafter] at hlexed'
        have hstart := hplace []
        rw [List.append_nil, List.append_nil] at hstart
        rw [List.map_cons, ← placedToken_moved hstart (hplace (char :: piece)) (.inr rfl)]
        refine .token hlexed' (hround.rest.trans hafter) (hround.token.trans htoken) hlimit ?_
        refine ih (by rw [htext]; simp) (fun piece' => ?_) hround.delimiters
        rw [List.append_assoc, List.append_assoc]
        exact hplace _
      · rw [hline] at hhead
        exact absurd rfl hhead

/-- A round in front of the quotation is read again. -/
theorem lexToken_front {piece c body behind : List Char} {char : Char} {previous : Option Char}
    {delimiters : List (TokenKind × ℕ)} {lexed : Lexed}
    (hlexed : lexToken tables size previous delimiters char (piece ++ (c ++ (quotation body ++ behind))) = .ok lexed)
    (hrest : lexed.rest = c ++ (quotation body ++ behind)) {delimiters' : List (TokenKind × ℕ)}
    (hsame : delimiters'.map Prod.fst = delimiters.map Prod.fst) (size' : ℕ) (body' : List Char) :
    ∃ lexed', lexToken tables size' previous delimiters' char (piece ++ (c ++ (quotation body' ++ behind))) = .ok lexed' ∧
      SameRound lexed lexed' (c ++ (quotation body' ++ behind)) := by
  have hstop : isStopper backquote = true := rfl
  obtain ⟨piece', hpiece, hread⟩ := lexToken_read hstop hlexed
  rw [hrest] at hpiece
  obtain rfl : piece = piece' := List.append_cancel_right hpiece
  have hagree : SameUpTo backquote lexed.rest (c ++ (quotation body' ++ behind)) := by
    rw [hrest]
    exact .inr ⟨c, _, _, rfl, rfl⟩
  have hend : lexed.rest = [] → c ++ (quotation body' ++ behind) = [] := by
    intro hnil
    rw [hrest, List.append_eq_nil_iff] at hnil
    nomatch hnil.2
  obtain ⟨lexed', hlexed', hround⟩ :=
    hread size' previous delimiters' _ rfl hsame hend (.inr (.inr hagree))
  refine ⟨lexed', hlexed', hround.resolve_right ?_⟩
  rintro ⟨line, hline, hhead, -⟩
  rw [hagree.head?_eq, hline] at hhead
  exact hhead rfl

/-- A text with another interior in one of its quotations is read as the text is, with its tokens moved. -/
theorem Reading.requote {front body body' behind text text' : List Char} (hbody : backquote ∉ body)
    (hbody' : backquote ∉ body') (htext' : text' = front ++ (quotation body' ++ behind)) {read after : List Char}
    {previous : Option Char} {count : ℕ} {delimiters : List (TokenKind × ℕ)} {tokens : List Token}
    (h : Reading tables text read after previous count delimiters tokens) {left : List Char}
    (hleft : after = left ++ (quotation body ++ behind)) (hfront : front = read ++ left) {token : Token}
    (htoken : token ∈ tokens) (hstart : token.span.start = width front) {delimiters' : List (TokenKind × ℕ)}
    (hsame : delimiters'.map Prod.fst = delimiters.map Prod.fst) :
    Reading tables text' read (left ++ (quotation body' ++ behind)) previous count delimiters'
      (tokens.map (Token.moved (moveBehind (width front) (width (quotation body)) (width (quotation body'))))) := by
  induction h generalizing left delimiters' with
  | done => nomatch htoken
  | @blank read piece after char previous count delimiters tokens lexed hlexed hafter hnone hrun ih =>
      cases left with
      | nil =>
          have hle := hrun.start_le token htoken
          have hpos := width_pos char piece
          rw [hstart, hfront, width_append, width_append] at hle
          simp only [width, List.map_nil, List.sum_nil] at hle hpos
          omega
      | cons first left =>
          obtain ⟨rfl, hpiece⟩ := List.cons.inj hleft
          obtain ⟨c, rfl, rfl⟩ := hrun.round_before hpiece htoken (hfront ▸ hstart)
          obtain ⟨lexed', hlexed', hround⟩ := lexToken_front hlexed hafter hsame text'.length body'
          rw [List.cons_append, List.append_assoc]
          refine .blank hlexed' hround.rest (hround.token.trans hnone) ?_
          exact ih rfl (by rw [hfront]; simp) htoken hround.delimiters
  | @token read piece after char previous count delimiters tokens lexed kind value literal hlexed hafter hsome hlimit
      hrun ih =>
      cases left with
      | nil =>
          -- The quotation itself, and what follows it.
          obtain ⟨rfl, hrest⟩ := List.cons.inj hleft
          have hpiece : piece ++ after = (body ++ [backquote]) ++ behind := hrest
          rw [List.append_nil] at hfront
          subst hfront
          have hassoc : ∀ body, (body ++ [backquote]) ++ behind = body ++ backquote :: behind := by simp
          obtain ⟨quoted, hquoted, htokenOf, hdelimiters, hbehind⟩ :=
            @lexToken_quotation tables text.length _ hbody behind previous delimiters
          rw [hpiece, hassoc, hquoted] at hlexed
          obtain rfl := Except.ok.inj hlexed
          obtain ⟨rfl, hliteral⟩ := Prod.mk.inj (Option.some.inj (htokenOf.symm.trans hsome))
          obtain ⟨rfl, rfl⟩ := Prod.mk.inj hliteral
          obtain rfl : behind = after := hbehind.symm.trans hafter
          obtain rfl : piece = body ++ [backquote] := List.append_cancel_right hpiece
          obtain ⟨quoted', hquoted', htokenOf', hdelimiters', hbehind'⟩ :=
            @lexToken_quotation tables text'.length _ hbody' behind previous delimiters'
          have hwidth : 0 < width (quotation body) := width_pos _ _
          have hplace : ∀ piece, moveBehind (width front) (width (quotation body)) (width (quotation body'))
              (width (front ++ quotation body ++ piece)) = width (front ++ quotation body' ++ piece) := by
            intro piece
            rw [width_append, width_append, moveBehind_behind _ hwidth, width_append, width_append]
          have hstop := hplace []
          rw [List.append_nil, List.append_nil] at hstop
          rw [← hassoc] at hquoted'
          have hplaced : placedToken front (backquote :: (body' ++ [backquote])) .hol "" none =
              (placedToken front (backquote :: (body ++ [backquote])) .hol "" none).moved
                (moveBehind (width front) (width (quotation body)) (width (quotation body'))) :=
            placedToken_moved (moveBehind_front (Nat.le_refl _)) hstop (.inl rfl)
          rw [List.map_cons, ← hplaced]
          refine .token hquoted' hbehind' htokenOf' hlimit ?_
          have hlast : (backquote :: (body' ++ [backquote])).getLast? = (backquote :: (body ++ [backquote])).getLast? := by
            rw [← List.cons_append, ← List.cons_append, List.getLast?_concat, List.getLast?_concat]
          rw [hlast, hdelimiters']
          refine hrun.behind (by rw [htext']; simp [quotation]) hplace ?_
          rw [hdelimiters, hsame]
      | cons first left =>
          obtain ⟨rfl, hpiece⟩ := List.cons.inj hleft
          have htoken' : token ∈ tokens := by
            refine (List.mem_cons.mp htoken).resolve_left ?_
            rintro rfl
            have hpos := width_pos char left
            have hhere : width read = width front := hstart
            rw [hfront, width_append] at hhere
            omega
          obtain ⟨c, rfl, rfl⟩ := hrun.round_before hpiece htoken' (hfront ▸ hstart)
          obtain ⟨lexed', hlexed', hround⟩ := lexToken_front hlexed hafter hsame text'.length body'
          have hle : width (read ++ char :: piece) ≤ width front := by
            have hassoc : read ++ char :: (piece ++ c) = (read ++ char :: piece) ++ c := by simp
            rw [hfront, hassoc, width_append _ c]
            exact Nat.le_add_right _ _
          have hle' : width read ≤ width front := by
            rw [width_append] at hle
            omega
          rw [List.map_cons, ← placedToken_moved (moveBehind_front hle') (moveBehind_front hle) (.inr rfl),
            List.cons_append, List.append_assoc]
          refine .token hlexed' hround.rest (hround.token.trans hsome) hlimit ?_
          exact ih rfl (by rw [hfront]; simp) htoken' hround.delimiters

end

/-- The source with another interior in the quotation of this span. -/
def requoted (source : Bytes) (span : ByteSpan) (interior : List Char) : Bytes :=
  source.take (span.start + 1) ++ encode interior ++ source.drop (span.stop - 1)

theorem requoted_encode (front body behind interior : List Char) :
    requoted (encode (front ++ (quotation body ++ behind))) ⟨width front, width (front ++ quotation body)⟩ interior =
      encode (front ++ (quotation interior ++ behind)) := by
  have hbackquote : (encode [backquote]).length = 1 := rfl
  have hstart : width front + 1 = (encode (front ++ [backquote])).length := by
    rw [length_encode, width_append]
    rfl
  have hstop : width (front ++ quotation body) - 1 = (encode (front ++ backquote :: body)).length := by
    have hwidth : width (front ++ quotation body) = width (front ++ backquote :: body) + width [backquote] := by
      rw [← width_append]
      simp [quotation]
    rw [length_encode, hwidth]
    rfl
  have hfirst : encode (front ++ (quotation body ++ behind)) =
      encode (front ++ [backquote]) ++ encode (body ++ backquote :: behind) := by
    rw [← encode_append]
    simp [quotation]
  have hsecond : encode (front ++ (quotation body ++ behind)) =
      encode (front ++ backquote :: body) ++ encode (backquote :: behind) := by
    rw [← encode_append]
    simp [quotation]
  unfold requoted
  rw [hstart, hstop]
  conv_lhs => rw [hsecond, List.drop_left, ← hsecond, hfirst, List.take_left]
  rw [← encode_append, ← encode_append]
  simp [quotation]

/-- The places of the tokens keep their order. -/
theorem moveBehind_order {front old new : ℕ} (hold : 0 < old) (hnew : 0 < new) {first second : ℕ}
    (hfirst : first ≤ front ∨ front + old ≤ first) (hsecond : second ≤ front ∨ front + old ≤ second) :
    first ≤ second ↔ moveBehind front old new first ≤ moveBehind front old new second := by
  unfold moveBehind
  split <;> split <;> omega

/-- Of two tokens in order, with one a quotation, the other starts at its start, in front of it or behind it. -/
theorem start_of_token {tables : UnicodeTables} {text : List Char} {tokens : List Token}
    (htokens : tokenize tables text = .ok tokens) {token other : Token} (hmem : token ∈ tokens) (hother : other ∈ tokens) :
    other.span.start ≤ token.span.start ∨ token.span.stop ≤ other.span.start := by
  have hpairs := (tokenize_inOrder htokens).order
  have hcovers := ((reading_of_tokenize htokens).standsIn other hother).covers
  obtain ⟨before, after, rfl⟩ := List.append_of_mem hmem
  obtain ⟨-, hafter, hbefore⟩ := List.pairwise_append.mp hpairs
  rcases List.mem_append.mp hother with hfront | hbehind
  · exact .inl (hcovers.le.trans (hbefore other hfront token (.head _)))
  · rcases List.mem_cons.mp hbehind with rfl | hbehind
    · exact .inl (Nat.le_refl _)
    · exact .inr ((List.pairwise_cons.mp hafter).1 other hbehind)

/-- Another interior of a quotation leaves an accepted source accepted, and its rows as they are but for places. -/
theorem quotation_noninterference {tables : UnicodeTables} {source : Bytes} {tokens : List Token} {token : Token}
    {interior : List Char} (hok : (scanOcamlLoaders tables source).status = .ok)
    (htokens : lexedTokens tables source = some tokens) (hmem : token ∈ tokens) (hkind : token.kind = .hol)
    (hinterior : backquote ∉ interior) (hsize : (requoted source token.span interior).length ≤ maxSourceBytes) :
    (scanOcamlLoaders tables (requoted source token.span interior)).status = .ok ∧
      (scanOcamlLoaders tables (requoted source token.span interior)).occurrences.map LoaderOccurrence.content =
        (scanOcamlLoaders tables source).occurrences.map LoaderOccurrence.content := by
  obtain ⟨text, rfl, hlexed⟩ := text_of_lexedTokens htokens
  have hreading := reading_of_tokenize hlexed
  obtain ⟨front, piece, behind, htext, -, hspan, hquotation⟩ := hreading.standsIn token hmem
  obtain ⟨body, rfl, hbody⟩ := hquotation hkind
  change text = front ++ (quotation body ++ behind) at htext
  change token.span = ⟨width front, width (front ++ quotation body)⟩ at hspan
  subst htext
  rw [hspan, requoted_encode] at hsize ⊢
  have hsizeOld : (encode (front ++ (quotation body ++ behind))).length ≤ maxSourceBytes := by
    by_contra hlarge
    rw [scanOcamlLoaders, if_pos (Nat.not_le.mp hlarge)] at hok
    nomatch hok
  have hrequoted := hreading.requote hbody hinterior rfl rfl rfl hmem (congrArg ByteSpan.start hspan)
    (List.map_nil (f := Prod.fst))
  have hscan := (scanOcamlLoaders_encode hsizeOld hlexed).1
  have hscan' := (scanOcamlLoaders_encode hsize hrequoted.tokenize_eq).1
  rw [hscan, hscan']
  refine ⟨rfl, classifyTokens_moved fun first hfirst second hsecond => ?_⟩
  have hold : 0 < width (quotation body) := width_pos _ _
  have hfirst := start_of_token hlexed hmem hfirst
  have hsecond := start_of_token hlexed hmem hsecond
  rw [hspan, width_append] at hfirst hsecond
  exact moveBehind_order hold (width_pos _ _) hfirst hsecond

/-- A quotation may look like the end of its phrase, or like a loader. -/
theorem loader_in_quotation :
    (scanOcamlLoaders .ascii (utf8 "let a = \x60;;\n#use \x7b|\x60;;\nloads \"b\";;")).status = .ok ∧
      (scanOcamlLoaders .ascii (utf8 "let a = \x60;;\n#use \x7b|\x60;;\nloads \"b\";;")).occurrences.map
          LoaderOccurrence.content =
        (scanOcamlLoaders .ascii (utf8 "let a = \x60x\x60;;\nloads \"b\";;")).occurrences.map
          LoaderOccurrence.content := by
  have hread : (lexedTokens .ascii (utf8 "let a = \x60x\x60;;\nloads \"b\";;")).any
      (·.any fun token => token.kind = .hol ∧ token.span = ⟨8, 11⟩) = true := by decide +kernel
  obtain ⟨tokens, htokens, hany⟩ := (Option.any_eq_true _ _).mp hread
  obtain ⟨token, hmem, hfacts⟩ := List.any_eq_true.mp hany
  obtain ⟨hkind, hspan⟩ := of_decide_eq_true hfacts
  have hsource : requoted (utf8 "let a = \x60x\x60;;\nloads \"b\";;") token.span ";;\n#use \x7b|".toList =
      utf8 "let a = \x60;;\n#use \x7b|\x60;;\nloads \"b\";;" := by
    rw [hspan]
    decide +kernel
  rw [← hsource]
  refine quotation_noninterference (by decide +kernel) htokens hmem hkind (by decide +kernel) ?_
  rw [hsource]
  decide +kernel

end Hearth.Loader
