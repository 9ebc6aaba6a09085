import Hearth.Loader.Scan

/-!
# Completeness of the loader scan

Every loader token of an accepted source is accounted for, and a literal row is never
written behind a use that could have rebound its loader.  The state of the loop over the
uses is the list of tainted loaders; `mem_taintedAfter` says which earlier uses put a
loader there, and everything else is one round of the loop.
-/

namespace Hearth.Loader

/-! ## Uses that taint their loader -/

/-- The argument is one exact, supported string literal with nothing behind it. -/
def LoaderUse.hasLiteralArgument (use : LoaderUse) : Bool :=
  match exactStringArgument use.after with
  | none => false
  | some (pathLiteral, afterPath, _) => !pathLiteral.unsupported && callBoundary afterPath

/-- The use binds its loader, or mentions it unqualified outside call position. -/
def LoaderUse.misplaced (use : LoaderUse) : Bool :=
  use.isBinding || (!use.isQualified && !use.inCallPosition)

/-- The use is misplaced, or an unqualified call without a literal argument. -/
def LoaderUse.nonLiteral (use : LoaderUse) : Bool :=
  use.isBinding || (!use.isQualified && (!use.inCallPosition || !use.hasLiteralArgument))

/-- The use taints its loader, unless the loader is tainted already. -/
def LoaderUse.shadows (use : LoaderUse) : Bool :=
  match use.family with
  | .source => use.nonLiteral
  | .artifact => use.misplaced

section

variable (source : Bytes)

/-- The tainted loaders behind the uses. -/
def taintedAfter (tainted : List String) : List LoaderUse → List String
  | [] => tainted
  | use :: rest =>
      taintedAfter (if (classifyUse source tainted use).2 then use.token.value :: tainted else tainted)
        rest

theorem classifyUses_length (tainted : List String) (uses : List LoaderUse) :
    (classifyUses source tainted uses).length = uses.length := by
  induction uses generalizing tainted with
  | nil => rfl
  | cons use rest ih => simp [classifyUses, ih]

/-- The row of a use is the classification behind the uses before it. -/
theorem classifyUses_getElem? (tainted : List String) (uses : List LoaderUse) (index : ℕ) :
    (classifyUses source tainted uses)[index]? =
      uses[index]?.map fun use =>
        (classifyUse source (taintedAfter source tainted (uses.take index)) use).1 := by
  induction uses generalizing tainted index with
  | nil => simp [classifyUses]
  | cons use rest ih =>
      cases index with
      | zero => simp [classifyUses, taintedAfter]
      | succ index => simpa [classifyUses, taintedAfter] using ih _ index

theorem classifySourceCall_taints (use : LoaderUse) :
    (classifySourceCall source use).2 = !use.hasLiteralArgument := by
  unfold classifySourceCall LoaderUse.hasLiteralArgument
  cases h : exactStringArgument use.after with
  | none => rfl
  | some argument =>
      obtain ⟨pathLiteral, afterPath, callEnd⟩ := argument
      cases hunsupported : pathLiteral.unsupported <;> cases hboundary : callBoundary afterPath <;>
        simp [hunsupported, hboundary]

/-- A round leaves the loader tainted exactly when it was, or the use shadows it. -/
theorem taints_iff (tainted : List String) (use : LoaderUse) :
    (use.token.value ∈ tainted ∨ (classifyUse source tainted use).2) ↔
      (use.token.value ∈ tainted ∨ use.shadows) := by
  by_cases htainted : use.token.value ∈ tainted
  · simp [htainted]
  · have hround : (classifyUse source tainted use).2 = use.shadows := by
      cases hbinding : use.isBinding <;> cases hqualified : use.isQualified <;>
        cases hposition : use.inCallPosition <;> cases hfamily : use.family <;>
        simp [classifyUse, LoaderUse.shadows, LoaderUse.nonLiteral, LoaderUse.misplaced,
          classifySourceCall_taints, htainted, hbinding, hqualified, hposition, hfamily]
    rw [hround]

/-- A loader is tainted exactly by the earlier uses of the same loader that shadow it. -/
theorem mem_taintedAfter (tainted : List String) (uses : List LoaderUse) (loader : String) :
    loader ∈ taintedAfter source tainted uses ↔
      loader ∈ tainted ∨ ∃ use ∈ uses, use.token.value = loader ∧ use.shadows := by
  induction uses generalizing tainted with
  | nil => simp [taintedAfter]
  | cons use rest ih =>
      rw [taintedAfter, ih]
      -- only a round about this loader can change whether it is tainted
      have hround : (loader ∈ if (classifyUse source tainted use).2 then use.token.value :: tainted
            else tainted) ↔ loader ∈ tainted ∨ (use.token.value = loader ∧ use.shadows) := by
        have htaints := taints_iff source tainted use
        by_cases hloader : use.token.value = loader
        · subst hloader
          split <;> simp_all
        · have hne : loader ≠ use.token.value := Ne.symm hloader
          split <;> simp [hloader, hne]
      rw [hround, or_assoc]
      apply or_congr_right
      simp

/-! ## One round -/

/-- What a round writes for a use: a row, except for an artifact loader that is being
bound, and the row repeats the token. -/
structure RowFor (use : LoaderUse) (row : Option LoaderOccurrence) : Prop where
  none_iff : row = none ↔ use.family = .artifact ∧ use.isBinding = true
  token : ∀ occurrence ∈ row, occurrence.loader = use.token.value ∧
    occurrence.loaderSpan = use.token.span ∧ occurrence.family = use.family

/-- The row repeats a token and a family. -/
def repeatsToken (token : Token) (family : LoaderFamily) (occurrence : LoaderOccurrence) : Prop :=
  occurrence.loader = token.value ∧ occurrence.loaderSpan = token.span ∧ occurrence.family = family

@[simp] theorem repeatsToken_dynamic (token : Token) (family : LoaderFamily) (reason : String)
    (stop : Option ℕ) (pathLiteral nameLiteral : Option OcamlStringLiteral) :
    repeatsToken token family
      (dynamicOccurrence source token family reason stop pathLiteral nameLiteral) :=
  ⟨rfl, rfl, rfl⟩

@[simp] theorem repeatsToken_literal (token : Token) (family : LoaderFamily) (stop : ℕ)
    (pathLiteral : OcamlStringLiteral) (nameLiteral : Option OcamlStringLiteral) :
    repeatsToken token family
      (literalOccurrence source token family stop pathLiteral nameLiteral) :=
  ⟨rfl, rfl, rfl⟩

theorem classifySourceCall_repeats (use : LoaderUse) :
    repeatsToken use.token .source (classifySourceCall source use).1 := by
  unfold classifySourceCall
  split
  · simp
  · split
    · simp
    · split <;> simp

theorem classifyArtifactCall_repeats (use : LoaderUse) :
    repeatsToken use.token .artifact (classifyArtifactCall source use) := by
  unfold classifyArtifactCall
  split
  · simp
  · split
    · simp
    · split
      · simp
      · split <;> simp

/-- The rows of a source call are literal exactly for a literal argument. -/
theorem classifySourceCall_literal_iff (use : LoaderUse) :
    (classifySourceCall source use).1.outcome = .literal ↔ use.hasLiteralArgument := by
  unfold classifySourceCall LoaderUse.hasLiteralArgument
  cases h : exactStringArgument use.after with
  | none => simp [dynamicOccurrence]
  | some argument =>
      obtain ⟨pathLiteral, afterPath, callEnd⟩ := argument
      cases hunsupported : pathLiteral.unsupported <;> cases hboundary : callBoundary afterPath <;>
        simp [hunsupported, hboundary, dynamicOccurrence, literalOccurrence]

theorem classifyUse_row (tainted : List String) (use : LoaderUse) :
    RowFor use (classifyUse source tainted use).1 := by
  have hsource := classifySourceCall_repeats source use
  have hartifact := classifyArtifactCall_repeats source use
  unfold repeatsToken at hsource hartifact
  unfold classifyUse
  cases hbinding : use.isBinding with
  | true =>
      cases hfamily : use.family with
      | source => exact ⟨by simp [hfamily], by simp [dynamicOccurrence, hfamily]⟩
      | artifact => exact ⟨by simp [hfamily, hbinding], by simp⟩
  | false =>
      -- every branch from here on writes a row
      dsimp only
      split
      · contradiction
      split
      · exact ⟨by simp [hbinding], by simp [dynamicOccurrence]⟩
      split
      · exact ⟨by simp [hbinding], by simp [dynamicOccurrence]⟩
      split
      · exact ⟨by simp [hbinding], by simp [dynamicOccurrence]⟩
      cases hfamily : use.family with
      | source => exact ⟨by simp [hfamily], by simpa [hfamily] using hsource⟩
      | artifact => exact ⟨by simp [hbinding], by simpa [hfamily] using hartifact⟩

/-- A literal row stands for an unqualified call of a loader that is not tainted. -/
theorem classifyUse_literal {tainted : List String} {use : LoaderUse} {occurrence : LoaderOccurrence}
    (h : (classifyUse source tainted use).1 = some occurrence)
    (hliteral : occurrence.outcome = .literal) :
    use.isBinding = false ∧ use.isQualified = false ∧ use.inCallPosition = true ∧
      use.token.value ∉ tainted ∧ (use.family = .source → use.hasLiteralArgument) := by
  have hdynamic : ∀ reason, some (dynamicOccurrence source use.token use.family reason none none none)
      ≠ some occurrence := by
    rintro reason heq
    rw [← Option.some.inj heq] at hliteral
    exact absurd hliteral (by simp [dynamicOccurrence])
  unfold classifyUse at h
  dsimp only at h
  split at h
  · split at h
    · exact absurd h (hdynamic _)
    · exact absurd h (by simp)
  split at h
  · exact absurd h (hdynamic _)
  split at h
  · exact absurd h (hdynamic _)
  split at h
  · exact absurd h (hdynamic _)
  rename_i hbinding hqualified htainted hposition
  refine ⟨by simpa using hbinding, by simpa using hqualified, by simpa using hposition, htainted, ?_⟩
  intro hfamily
  rw [hfamily] at h
  rw [← Option.some.inj h] at hliteral
  exact (classifySourceCall_literal_iff source use).mp hliteral

/-! ## The stream -/

/-- The uses are the loader tokens of the stream, in order. -/
theorem loaderUsesFrom_tokens (stack : List Bool) (before tokens : List Token) :
    (loaderUsesFrom stack before tokens).map LoaderUse.token =
      tokens.filter fun token => token.kind = .loader := by
  induction tokens generalizing stack before with
  | nil => rfl
  | cons token after ih =>
      rw [loaderUsesFrom]
      split
      · rename_i hopen
        have hkind : token.kind ≠ .loader := by
          intro h
          simp [h, TokenKind.closer] at hopen
        simp [ih, hkind]
      split
      · rename_i _ hclose
        have hkind : token.kind ≠ .loader := by
          intro h
          simp [h, TokenKind.isClose] at hclose
        simp [ih, hkind]
      split
      · rename_i hloader
        simp [ih, hloader]
      · rename_i hloader
        simp [ih, hloader]

/-- Every use stands in its place of the stream. -/
theorem loaderUsesFrom_place {stack : List Bool} {before tokens : List Token} {use : LoaderUse}
    (h : use ∈ loaderUsesFrom stack before tokens) :
    use.before.reverse ++ use.token :: use.after = before.reverse ++ tokens := by
  induction tokens generalizing stack before with
  | nil => simp [loaderUsesFrom] at h
  | cons token after ih =>
      have hplace : ∀ stack, use ∈ loaderUsesFrom stack (token :: before) after →
          use.before.reverse ++ use.token :: use.after = before.reverse ++ token :: after := by
        intro stack hrest
        simpa using ih hrest
      rw [loaderUsesFrom] at h
      split at h
      · exact hplace _ h
      split at h
      · exact hplace _ h
      split at h
      · rcases List.mem_cons.mp h with rfl | hrest
        · rfl
        · exact hplace _ hrest
      · exact hplace _ h

theorem moduleReference_dynamic {tables : UnicodeTables} {token : Token} {members : List String}
    {after : List Token} {occurrence : LoaderOccurrence}
    (h : moduleReference source tables token members after = some occurrence) :
    occurrence.outcome = .dynamic := by
  unfold moduleReference at h
  split at h
  · split at h
    · split at h
      · exact absurd h (by simp)
      · rw [← Option.some.inj h]
        rfl
    · rw [← Option.some.inj h]
      rfl
  · rw [← Option.some.inj h]
    rfl

theorem uncapturedExecution_dynamic {tables : UnicodeTables} {before : List Token} {token : Token}
    {after : List Token} {occurrence : LoaderOccurrence}
    (h : uncapturedExecution source tables before token after = some occurrence) :
    occurrence.outcome = .dynamic := by
  unfold uncapturedExecution at h
  split at h
  · exact absurd h (by simp)
  split at h
  · exact moduleReference_dynamic source h
  split at h
  · split at h
    · rw [← Option.some.inj h]
      rfl
    split at h
    · rw [← Option.some.inj h]
      rfl
    · exact absurd h (by simp)
  · split at h
    · rw [← Option.some.inj h]
      rfl
    · exact absurd h (by simp)

/-- The uncaptured-execution rows are never literal. -/
theorem uncapturedExecutionOccurrences_dynamic {tables : UnicodeTables} {before tokens : List Token}
    {occurrence : LoaderOccurrence}
    (h : occurrence ∈ uncapturedExecutionOccurrences source tables before tokens) :
    occurrence.outcome = .dynamic := by
  induction tokens generalizing before with
  | nil => simp [uncapturedExecutionOccurrences] at h
  | cons token after ih =>
      rw [uncapturedExecutionOccurrences, List.mem_append] at h
      rcases h with h | h
      · exact uncapturedExecution_dynamic source (by simpa using h)
      · exact ih h

end

/-! ## The scan -/

/-- The rows of a token stream: one row for each use, in order, and the uncaptured
executions; literal rows only while nothing before could have rebound the loader. -/
structure AccountedFor (tables : UnicodeTables) (source : Bytes) (tokens : List Token)
    (occurrences : List LoaderOccurrence) : Prop where
  sorted : occurrences.Pairwise fun first second => first.loaderSpan.start ≤ second.loaderSpan.start
  /-- The uses are the loader tokens of the stream. -/
  uses : (loaderUses tokens).map LoaderUse.token = tokens.filter fun token => token.kind = .loader
  /-- A use sees exactly what stands before and after its token. -/
  places : ∀ use ∈ loaderUses tokens,
    use.before.reverse ++ use.token :: use.after = tokens
  rows : ∃ rows : List (Option LoaderOccurrence),
    rows.length = (loaderUses tokens).length ∧
    occurrences.Perm (uncapturedExecutionOccurrences source tables [] tokens ++ rows.filterMap id) ∧
    ∀ index use row, (loaderUses tokens)[index]? = some use → rows[index]? = some row →
      RowFor use row ∧
      ∀ occurrence, row = some occurrence → occurrence.outcome = .literal →
        ∀ earlier ∈ (loaderUses tokens).take index, earlier.token.value = use.token.value →
          match use.family with
          | .source => earlier.nonLiteral = false
          | .artifact => earlier.misplaced = false
  uncaptured : ∀ occurrence ∈ uncapturedExecutionOccurrences source tables [] tokens,
    occurrence.outcome = .dynamic

/-- Two uses of one loader have one family. -/
theorem LoaderUse.family_eq {first second : LoaderUse} (h : first.token.value = second.token.value) :
    first.family = second.family := by
  simp [LoaderUse.family, h]

theorem classifyTokens_accountedFor (tables : UnicodeTables) (source : Bytes) (tokens : List Token) :
    AccountedFor tables source tokens (classifyTokens source tables tokens) where
  sorted := by
    have htotal : Std.Total LoaderOccurrence.startsBy :=
      ⟨fun first second => Nat.le_total first.loaderSpan.start second.loaderSpan.start⟩
    have htrans : IsTrans LoaderOccurrence LoaderOccurrence.startsBy :=
      ⟨fun _ _ _ h₁ h₂ => Nat.le_trans h₁ h₂⟩
    exact List.pairwise_insertionSort _ _
  uses := loaderUsesFrom_tokens [] [] tokens
  places := fun use h => by simpa using loaderUsesFrom_place h
  rows := by
    refine ⟨classifyUses source [] (loaderUses tokens), classifyUses_length .., ?_, ?_⟩
    · exact List.perm_insertionSort _ _
    · intro index use row huse hrow
      rw [classifyUses_getElem?, huse] at hrow
      have hclassify := Option.some.inj hrow
      refine ⟨hclassify ▸ classifyUse_row source _ use, ?_⟩
      intro occurrence hoccurrence hliteral earlier hearlier hloader
      obtain ⟨-, -, -, huntainted, -⟩ :=
        classifyUse_literal source (hclassify.trans hoccurrence) hliteral
      rw [mem_taintedAfter] at huntainted
      have hshadows : earlier.shadows = false := by
        by_contra hshadows
        apply huntainted
        exact .inr ⟨earlier, hearlier, hloader, by simpa using hshadows⟩
      unfold LoaderUse.shadows at hshadows
      rw [LoaderUse.family_eq hloader] at hshadows
      cases hfamily : use.family <;> simpa [hfamily] using hshadows
  uncaptured := fun _ h => uncapturedExecutionOccurrences_dynamic source h

/-- A scan is refused, or classifies the tokens of the decoded source. -/
theorem scanOcamlLoaders_cases (tables : UnicodeTables) (source : Bytes) :
    (∃ refusal, scanOcamlLoaders tables source = refusedScan source refusal) ∨
      ∃ text tokens, String.fromUTF8? ⟨source.toArray⟩ = some text ∧
        tokenize tables text.toList = .ok tokens ∧
        scanOcamlLoaders tables source =
          ⟨.ok, source.length, classifyTokens source tables tokens, none⟩ := by
  unfold scanOcamlLoaders
  by_cases hsize : maxSourceBytes < source.length
  · simp only [if_pos hsize]
    exact .inl ⟨_, rfl⟩
  simp only [if_neg hsize]
  cases hdecoded : String.fromUTF8? ⟨source.toArray⟩ with
  | none => exact .inl ⟨_, rfl⟩
  | some text =>
      cases htokens : tokenize tables text.toList with
      | error failure =>
          simp only [htokens]
          exact .inl ⟨_, rfl⟩
      | ok tokens =>
          simp only [htokens]
          exact .inr ⟨text, tokens, rfl, htokens, rfl⟩

/-- A refused scan has no occurrences; an accepted one accounts for every loader token. -/
theorem scanOcamlLoaders_complete (tables : UnicodeTables) (source : Bytes) :
    match (scanOcamlLoaders tables source).status with
    | .refused => (scanOcamlLoaders tables source).occurrences = []
    | .ok => ∃ text tokens, String.fromUTF8? ⟨source.toArray⟩ = some text ∧
        tokenize tables text.toList = .ok tokens ∧
        AccountedFor tables source tokens (scanOcamlLoaders tables source).occurrences := by
  rcases scanOcamlLoaders_cases tables source with ⟨refusal, h⟩ | ⟨text, tokens, htext, htokens, h⟩
  · rw [h]
    exact rfl
  · rw [h]
    exact ⟨text, tokens, htext, htokens, classifyTokens_accountedFor tables source tokens⟩

end Hearth.Loader
