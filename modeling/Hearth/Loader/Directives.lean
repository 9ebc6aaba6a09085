import Hearth.Loader.Completeness
import Hearth.Loader.TokenOrder

/-!
# Toplevel directives

A directive that loads a file or changes the directory is a hash and a name, with blanks and
comments in between if one likes.  The scan knows it in two places: the lexer takes the four
characters of `#use` for a loader, and `_uncaptured_execution_occurrences` looks for a name of
`_UNCAPTURED_DIRECTIVES` behind a hash token; `load` is a loader of its own.

`use` with something in between and `use_output` are in neither of the two.
-/

namespace Hearth.Loader

open Hearth.Library

/-- The directives that load a file or change the directory. -/
def toplevelDirectives : List String :=
  ["use", "use_output", "mod_use", "load", "load_rec", "cd", "directory", "remove_directory"]

/-- A hash token, and right behind it the name of a directive. -/
structure DirectivePair (tokens : List Token) (index : ℕ) (hash directive : Token) : Prop where
  hash_at : tokens[index]? = some hash
  directive_at : tokens[index + 1]? = some directive
  hash_kind : hash.kind = .op
  hash_value : hash.value = "#"
  kind : directive.kind = .ident ∨ directive.kind = .rawIdent ∨ directive.kind = .loader
  named : directive.value ∈ toplevelDirectives

/-- The occurrence is dynamic, and what it names reaches over the name of the directive. -/
structure Covers (occurrence : LoaderOccurrence) (directive : Token) : Prop where
  dynamic : occurrence.outcome = .dynamic
  start : occurrence.loaderSpan.start ≤ directive.span.start
  stop : directive.span.stop ≤ occurrence.loaderSpan.stop

section

variable {source : Bytes} {tables : UnicodeTables} {tokens : List Token}

/-! ## Where the rows come from -/

/-- The rows of uncaptured executions come from the tokens, each in its surroundings. -/
theorem mem_uncapturedExecutionOccurrences {before : List Token} {occurrence : LoaderOccurrence} :
    occurrence ∈ uncapturedExecutionOccurrences source tables before tokens ↔
      ∃ index token, tokens[index]? = some token ∧
        uncapturedExecution source tables ((tokens.take index).reverse ++ before) token
          (tokens.drop (index + 1)) = some occurrence := by
  induction tokens generalizing before with
  | nil => simp [uncapturedExecutionOccurrences]
  | cons token after ih =>
      rw [uncapturedExecutionOccurrences, List.mem_append, Option.mem_toList, ih]
      constructor
      · rintro (hhere | ⟨index, other, hother, hrow⟩)
        · exact ⟨0, token, rfl, by simpa using hhere⟩
        · exact ⟨index + 1, other, by simpa using hother, by simpa using hrow⟩
      · rintro ⟨index, other, hother, hrow⟩
        cases index with
        | zero =>
            cases hother
            exact .inl (by simpa using hrow)
        | succ index => exact .inr ⟨index, other, by simpa using hother, by simpa using hrow⟩

/-- Every loader token has a use, which sees what stands before it. -/
theorem exists_use_at {stack : List Bool} {before : List Token} {index : ℕ} {token : Token}
    (htoken : tokens[index]? = some token) (hkind : token.kind = .loader) :
    ∃ use ∈ loaderUsesFrom stack before tokens, use.token = token ∧
      use.before = (tokens.take index).reverse ++ before := by
  induction tokens generalizing stack before index with
  | nil => simp at htoken
  | cons first after ih =>
      cases index with
      | zero =>
          cases htoken
          refine ⟨⟨before, token, after, stack.any id⟩, ?_, rfl, by simp⟩
          simp [loaderUsesFrom, hkind, TokenKind.closer, TokenKind.isClose]
      | succ index =>
          have hrest : ∀ stack, ∃ use ∈ loaderUsesFrom stack (first :: before) after,
              use.token = token ∧ use.before = ((first :: after).take (index + 1)).reverse ++ before := by
            intro stack
            obtain ⟨use, huse, hsame, hbefore⟩ := @ih stack (first :: before) index (by simpa using htoken)
            exact ⟨use, huse, hsame, by simpa using hbefore⟩
          rw [loaderUsesFrom]
          split
          · exact hrest _
          split
          · exact hrest _
          split
          · obtain ⟨use, huse, hsame⟩ := hrest stack
            exact ⟨use, .tail _ huse, hsame⟩
          · exact hrest _

/-- The rows of a scan: those of the uncaptured executions, and those of the uses. -/
theorem mem_classifyTokens {occurrence : LoaderOccurrence} :
    occurrence ∈ classifyTokens source tables tokens ↔
      occurrence ∈ uncapturedExecutionOccurrences source tables [] tokens ∨
        some occurrence ∈ classifyUses source [] (loaderUses tokens) := by
  unfold classifyTokens
  rw [List.mem_insertionSort, List.mem_append, List.mem_filterMap]
  simp

/-- A row of a use names the loader token of the use. -/
theorem exists_loader_of_row {occurrence : LoaderOccurrence}
    (h : some occurrence ∈ classifyUses source [] (loaderUses tokens)) :
    ∃ (index : ℕ) (token : Token), tokens[index]? = some token ∧ token.kind = .loader ∧
      occurrence.loaderSpan = token.span := by
  obtain ⟨place, hplace⟩ := List.mem_iff_getElem?.mp h
  rw [classifyUses_getElem?] at hplace
  obtain ⟨use, huse, hrow⟩ := Option.map_eq_some_iff.mp hplace
  have hmem := List.mem_of_getElem? huse
  have hspan := ((classifyUse_row source _ use).token occurrence hrow).2.1
  have hloader : use.token ∈ tokens.filter fun token => token.kind = .loader := by
    rw [← loaderUsesFrom_tokens [] []]
    exact List.mem_map_of_mem hmem
  obtain ⟨htoken, hkind⟩ := List.mem_filter.mp hloader
  obtain ⟨index, hindex⟩ := List.mem_iff_getElem?.mp htoken
  exact ⟨index, use.token, hindex, by simpa using hkind, hspan⟩

/-! ## What a row names -/

/-- What a row of an uncaptured execution names: a word alone, a member of a module, or a
directive. -/
inductive Names (before : List Token) (token : Token) (after : List Token) (span : ByteSpan) : Prop
  | word (hspan : span = token.span)
      (hvalue : token.value ∈ uncapturedExecutionMembers.map Prod.fst ++ uncapturedGlobalExecution)
  | member (dot member : Token) (rest : List Token) (hafter : after = dot :: member :: rest)
      (hdot : dot.value = ".") (hspan : span = ⟨token.span.start, member.span.stop⟩)
      (hvalue : token.value ∈ uncapturedExecutionMembers.map Prod.fst)
  | directive (previous : Token) (rest : List Token) (hbefore : before = previous :: rest)
      (hprevious : previous.value = "#") (hspan : span = ⟨previous.span.start, token.span.stop⟩)
      (hvalue : token.value ∈ uncapturedDirectives)

theorem names_of_uncapturedExecution {before after : List Token} {token : Token}
    {occurrence : LoaderOccurrence}
    (h : uncapturedExecution source tables before token after = some occurrence) :
    Names before token after occurrence.loaderSpan := by
  unfold uncapturedExecution at h
  split at h
  · cases h
  split at h
  · rename_i members hmembers
    have hvalue : token.value ∈ uncapturedExecutionMembers.map Prod.fst := by
      obtain ⟨first, rest, heq, -⟩ := List.lookup_eq_some_iff.mp hmembers
      rw [heq]
      simp
    unfold moduleReference at h
    split at h
    · rename_i dot member rest
      split at h
      · rename_i hqualified
        split at h
        · cases h
        · cases h
          exact .member dot member rest rfl hqualified.1 rfl hvalue
      · cases h
        exact .word rfl (List.mem_append_left _ hvalue)
    · cases h
      exact .word rfl (List.mem_append_left _ hvalue)
  split at h
  · rename_i previous rest
    split at h
    · rename_i hdirective
      cases h
      exact .directive previous rest rfl hdirective.2 rfl hdirective.1
    split at h
    · rename_i hglobal
      cases h
      exact .word rfl (List.mem_append_right _ hglobal)
    · cases h
  split at h
  · rename_i hglobal
    cases h
    exact .word rfl (List.mem_append_right _ hglobal)
  · cases h

/-! ## Where a row reaches -/

/-- A row that names tokens on one side of the directive does not reach over it. -/
theorem not_covers_of_aside (hinOrder : InOrder tokens) {occurrence : LoaderOccurrence}
    {first last place : ℕ} {begins ends directive : Token} (hfirst : tokens[first]? = some begins)
    (hlast : tokens[last]? = some ends) (hplace : tokens[place]? = some directive)
    (hspan : occurrence.loaderSpan = ⟨begins.span.start, ends.span.stop⟩)
    (hword : directive.kind.isWord = true) (haside : last < place ∨ place < first) :
    ¬ Covers occurrence directive := by
  rintro ⟨-, hstart, hstop⟩
  have hcovers := (hinOrder.read directive (List.mem_of_getElem? hplace)).covers hword
  simp only [hspan] at hstart hstop
  rcases haside with hlt | hlt
  · have hbefore := hinOrder.lt hlast hplace hlt
    omega
  · have hafter := hinOrder.lt hplace hfirst hlt
    omega

theorem DirectivePair.isWord {index : ℕ} {hash directive : Token}
    (h : DirectivePair tokens index hash directive) : directive.kind.isWord = true := by
  rcases h.kind with hkind | hkind | hkind <;> rw [hkind] <;> rfl

/-- The hash is what stands right before the directive. -/
theorem DirectivePair.before {index : ℕ} {hash directive : Token}
    (h : DirectivePair tokens index hash directive) :
    (tokens.take (index + 1)).reverse = hash :: (tokens.take index).reverse := by
  rw [List.take_add_one, h.hash_at]
  simp

/-- No row names `use` or `use_output` behind a hash token. -/
theorem not_covers_of_missed (hinOrder : InOrder tokens) {index : ℕ} {hash directive : Token}
    (hpair : DirectivePair tokens index hash directive)
    (hmissed : directive.value = "use" ∨ directive.value = "use_output") {occurrence : LoaderOccurrence}
    (hmem : occurrence ∈ classifyTokens source tables tokens) : ¬ Covers occurrence directive := by
  have hword := hpair.isWord
  have hdirective := hinOrder.read directive (List.mem_of_getElem? hpair.directive_at)
  -- A token of another value is another token.
  have hne : ∀ {place : ℕ} {token : Token}, tokens[place]? = some token → token.value ≠ directive.value →
      place ≠ index + 1 := by
    rintro place token htoken hvalue rfl
    rw [hpair.directive_at] at htoken
    cases htoken
    exact hvalue rfl
  have hmissing : ∀ value ∈ uncapturedExecutionMembers.map Prod.fst ++ uncapturedGlobalExecution ++
      uncapturedDirectives ++ supportedLoaders ++ [".", "#"], value ≠ directive.value := by
    rcases hmissed with hvalue | hvalue <;> rw [hvalue] <;> decide
  rcases mem_classifyTokens.mp hmem with hrow | hrow
  · obtain ⟨place, token, htoken, hrow⟩ := mem_uncapturedExecutionOccurrences.mp hrow
    rw [List.append_nil] at hrow
    cases names_of_uncapturedExecution hrow with
    | word hspan hvalue =>
        have hplace := hne htoken (hmissing _ (by simp only [List.mem_append] at hvalue ⊢; tauto))
        exact not_covers_of_aside hinOrder htoken htoken hpair.directive_at hspan hword (by omega)
    | member dot member rest hafter hdot hspan hvalue =>
        have hdotAt : tokens[place + 1]? = some dot := by
          have := congrArg (fun list => list[0]?) hafter
          simpa using this
        have hmemberAt : tokens[place + 2]? = some member := by
          have := congrArg (fun list => list[1]?) hafter
          simpa [Nat.add_assoc] using this
        have hplace := hne htoken (hmissing _ (by simp only [List.mem_append]; tauto))
        have hdotPlace := hne hdotAt (hmissing _ (by simp [hdot]))
        -- In front of the member stands a point, and in front of the directive a hash.
        have hmemberPlace : place + 2 ≠ index + 1 := by
          intro heq
          have hsame : place + 1 = index := by omega
          rw [hsame, hpair.hash_at] at hdotAt
          cases hdotAt
          rw [hpair.hash_value] at hdot
          exact absurd hdot (by decide)
        exact not_covers_of_aside hinOrder htoken hmemberAt hpair.directive_at hspan hword (by omega)
    | directive previous rest hbefore hprevious hspan hvalue =>
        have hplace := hne htoken (hmissing _ (by simp only [List.mem_append]; tauto))
        obtain ⟨earlier, rfl⟩ : ∃ earlier, place = earlier + 1 := by
          cases place with
          | zero => simp at hbefore
          | succ earlier => exact ⟨earlier, rfl⟩
        have hlength : earlier + 1 < tokens.length := (List.getElem?_eq_some_iff.mp htoken).1
        have hpreviousAt : tokens[earlier]? = some previous := by
          rw [List.take_add_one, List.getElem?_eq_getElem (by omega)] at hbefore
          simp only [Option.toList_some, List.reverse_append, List.reverse_singleton,
            List.singleton_append, List.cons.injEq] at hbefore
          rw [List.getElem?_eq_getElem (by omega), hbefore.1]
        have hpreviousPlace := hne hpreviousAt (hmissing _ (by simp [hprevious]))
        exact not_covers_of_aside hinOrder hpreviousAt htoken hpair.directive_at hspan hword (by omega)
  · obtain ⟨place, token, htoken, hkind, hspan⟩ := exists_loader_of_row hrow
    have hloader := (hinOrder.read token (List.mem_of_getElem? htoken)).spelled.loader hkind
    have hplace := hne htoken (hmissing _ (by simp only [List.mem_append]; tauto))
    exact not_covers_of_aside hinOrder htoken htoken hpair.directive_at hspan hword (by omega)

/-- A loader behind a hash token is named, and not as a literal call. -/
theorem covers_of_loader {index : ℕ} {hash directive : Token}
    (hpair : DirectivePair tokens index hash directive) (hkind : directive.kind = .loader) :
    ∃ occurrence ∈ classifyTokens source tables tokens, Covers occurrence directive := by
  obtain ⟨use, huse, rfl, hbefore⟩ := @exists_use_at tokens [] [] _ _ hpair.directive_at hkind
  rw [List.append_nil, hpair.before] at hbefore
  have hbinding : use.isBinding = false := by
    unfold LoaderUse.isBinding
    rw [hbefore]
    cases (tokens.take index).reverse <;> simp [directBinding, Token.isIdent, hpair.hash_kind]
  have hqualified : use.isQualified = true := by
    unfold LoaderUse.isQualified
    rw [hbefore]
    cases (tokens.take index).reverse <;>
      simp [qualifiedOrHashPrefixed, Token.isOp, hpair.hash_kind, hpair.hash_value]
  have hrow : ∀ tainted, (classifyUse source tainted use).1 =
      some (dynamicOccurrence source use.token use.family "qualified_loader_reference" none none none) := by
    intro tainted
    simp [classifyUse, hbinding, hqualified]
  refine ⟨dynamicOccurrence source use.token use.family "qualified_loader_reference" none none none,
    mem_classifyTokens.mpr (.inr ?_), rfl, le_rfl, le_rfl⟩
  obtain ⟨place, hplace⟩ := List.mem_iff_getElem?.mp huse
  refine List.mem_iff_getElem?.mpr ⟨place, ?_⟩
  rw [classifyUses_getElem?]
  unfold loaderUses
  rw [hplace, Option.map_some, hrow]

/-- A name of `_UNCAPTURED_DIRECTIVES` behind a hash token is named together with the hash. -/
theorem covers_of_uncaptured (hinOrder : InOrder tokens) {index : ℕ} {hash directive : Token}
    (hpair : DirectivePair tokens index hash directive) (hvalue : directive.value ∈ uncapturedDirectives)
    (hkind : isIdentifierKind directive.kind = true) :
    ∃ occurrence ∈ classifyTokens source tables tokens, Covers occurrence directive := by
  have hmembers : uncapturedExecutionMembers.lookup directive.value = none := by
    simp only [uncapturedDirectives, List.mem_cons, List.not_mem_nil, or_false] at hvalue
    rcases hvalue with h | h | h | h | h <;> rw [h] <;> decide
  have hrow : ∃ reason, uncapturedExecution source tables (tokens.take (index + 1)).reverse directive
      (tokens.drop (index + 2)) = some (dynamicOccurrence source
        ⟨.ident, "#" ++ directive.value, ⟨hash.span.start, directive.span.stop⟩, none⟩ .source reason
        none none none) := by
    rw [hpair.before]
    simp only [uncapturedExecution, hkind, hmembers, hvalue, hpair.hash_value, Bool.not_true,
      Bool.false_eq_true, if_false, true_and, if_true]
    exact ⟨_, rfl⟩
  obtain ⟨reason, hrow⟩ := hrow
  refine ⟨dynamicOccurrence source ⟨.ident, "#" ++ directive.value, ⟨hash.span.start, directive.span.stop⟩,
    none⟩ .source reason none none none, mem_classifyTokens.mpr (.inl ?_), rfl, ?_, le_rfl⟩
  · exact mem_uncapturedExecutionOccurrences.mpr
      ⟨index + 1, directive, hpair.directive_at, by simpa using hrow⟩
  · have hhash := (hinOrder.read hash (List.mem_of_getElem? hpair.hash_at)).covers
      (by rw [hpair.hash_kind]; rfl)
    have horder := hinOrder.lt hpair.hash_at hpair.directive_at (Nat.lt_succ_self index)
    exact (hhash.trans_le horder).le

/-- In an accepted source some row covers a directive exactly if it is neither `use`, apart from its
hash, nor `use_output`. -/
theorem directive_covered_iff {text : String} {index : ℕ} {hash directive : Token}
    (haccepted : (scanOcamlLoaders tables source).status = .ok)
    (htext : String.fromUTF8? ⟨source.toArray⟩ = some text) (htokens : tokenize tables text.toList = .ok tokens)
    (hpair : DirectivePair tokens index hash directive) :
    (∃ occurrence ∈ (scanOcamlLoaders tables source).occurrences, Covers occurrence directive) ↔
      directive.value ≠ "use" ∧ directive.value ≠ "use_output" := by
  have hscan : (scanOcamlLoaders tables source).occurrences = classifyTokens source tables tokens := by
    rcases scanOcamlLoaders_cases tables source with ⟨refusal, h⟩ | ⟨other, others, hother, hothers, h⟩
    · rw [h] at haccepted
      cases haccepted
    · rw [htext] at hother
      cases hother
      rw [htokens] at hothers
      cases hothers
      rw [h]
  have hinOrder := tokenize_inOrder htokens
  have hspelled := (hinOrder.read directive (List.mem_of_getElem? hpair.directive_at)).spelled
  rw [hscan]
  constructor
  · rintro ⟨occurrence, hmem, hcovers⟩
    by_contra hmissed
    exact not_covers_of_missed hinOrder hpair (by tauto) hmem hcovers
  · rintro ⟨huse, houtput⟩
    by_cases hload : directive.value = "load"
    · refine covers_of_loader hpair ?_
      rcases hpair.kind with hkind | hkind | hkind
      · exact absurd (by rw [hload]; decide) (hspelled.identifier (.inl hkind))
      · exact absurd (by rw [hload]; decide) (hspelled.identifier (.inr hkind))
      · exact hkind
    · have hvalue : directive.value ∈ uncapturedDirectives := by
        have hnamed := hpair.named
        simp only [toplevelDirectives, List.mem_cons, List.not_mem_nil, or_false] at hnamed
        simp only [uncapturedDirectives, List.mem_cons, List.not_mem_nil, or_false]
        tauto
      refine covers_of_uncaptured hinOrder hpair hvalue ?_
      rcases hpair.kind with hkind | hkind | hkind
      · rw [hkind]
        rfl
      · rw [hkind]
        rfl
      · have hdisjoint : ∀ value ∈ uncapturedDirectives, value ∉ supportedLoaders := by decide
        exact absurd (hspelled.loader hkind) (hdisjoint _ hvalue)

end

/-- The tokens of a text, from the first two. -/
theorem exists_tokens_of_first {text : String} {first second : Token}
    (h : (tokenize .ascii text.toList).toOption.map (fun tokens => (tokens[0]?, tokens[1]?)) =
      some (some first, some second)) :
    ∃ tokens, tokenize .ascii text.toList = .ok tokens ∧ tokens[0]? = some first ∧ tokens[1]? = some second := by
  obtain ⟨tokens, htokens, heq⟩ := Option.map_eq_some_iff.mp h
  obtain ⟨hfirst, hsecond⟩ := Prod.mk.inj heq
  refine ⟨tokens, ?_, hfirst, hsecond⟩
  cases hread : tokenize .ascii text.toList with
  | error failure => rw [hread] at htokens; cases htokens
  | ok others => rw [hread] at htokens; cases htokens; rfl

/-- A change of the directory is covered, with blanks behind the hash. -/
theorem spaced_cd_covered :
    ∃ occurrence ∈ (scanOcamlLoaders .ascii "# cd \"x\";;".toUTF8.toList).occurrences,
      Covers occurrence ⟨.ident, "cd", ⟨2, 4⟩, none⟩ := by
  obtain ⟨tokens, htokens, hhash, hdirective⟩ := @exists_tokens_of_first "# cd \"x\";;"
    ⟨.op, "#", ⟨0, 1⟩, none⟩ ⟨.ident, "cd", ⟨2, 4⟩, none⟩ (by decide +kernel)
  have hpair : DirectivePair tokens 0 ⟨.op, "#", ⟨0, 1⟩, none⟩ ⟨.ident, "cd", ⟨2, 4⟩, none⟩ :=
    ⟨hhash, hdirective, rfl, rfl, .inl rfl, by decide⟩
  have htext : String.fromUTF8? ⟨("# cd \"x\";;".toUTF8.toList).toArray⟩ = some "# cd \"x\";;" := by
    decide +kernel
  exact (directive_covered_iff (by decide +kernel) htext htokens hpair).mpr (by decide)

/-- With a blank behind the hash `use` is covered by nothing, and the scan is accepted without a
row. -/
theorem spaced_use_escapes : (scanOcamlLoaders .ascii "# use \"x\";;".toUTF8.toList).status = .ok ∧
    (scanOcamlLoaders .ascii "# use \"x\";;".toUTF8.toList).occurrences = [] ∧
    ∃ tokens, tokenize .ascii "# use \"x\";;".toList = .ok tokens ∧
      DirectivePair tokens 0 ⟨.op, "#", ⟨0, 1⟩, none⟩ ⟨.ident, "use", ⟨2, 5⟩, none⟩ := by
  refine ⟨by decide +kernel, by decide +kernel, ?_⟩
  obtain ⟨tokens, htokens, hhash, hdirective⟩ := @exists_tokens_of_first "# use \"x\";;"
    ⟨.op, "#", ⟨0, 1⟩, none⟩ ⟨.ident, "use", ⟨2, 5⟩, none⟩ (by decide +kernel)
  exact ⟨tokens, htokens, hhash, hdirective, rfl, rfl, .inl rfl, by decide⟩

end Hearth.Loader
