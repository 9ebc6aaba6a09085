import Hearth.Loader.Balance
import Mathlib.Data.List.Pairwise

/-!
# Shadows of a prove phrase

`scan_prove_bindings` counts the names in front of the first equals sign of each `let` and `and`, and returns a phrase
whose name is counted once.  A pattern ends with the equals sign at its own depth; what it binds behind an inner equals
sign, in front of a further `let` or `and`, or by a raw identifier is not counted.
-/

namespace Hearth.Loader

open Hearth.Library

/-! ## Patterns -/

/-- `let` and `and`. -/
def Token.isBinder (token : Token) : Bool :=
  token.isIdent ["let", "and"]

/-- What opens or closes a header besides the end of a phrase. -/
def Token.isMark (token : Token) : Bool :=
  token.isBinder || token.value = "="

/-- The tokens behind a `let` or `and` up to the equals sign at their own depth; none if the phrase or an enclosing
delimiter ends first. -/
def patternFrom (depth : ℕ) : List Token → Option (List Token)
  | [] => none
  | token :: rest =>
      if token.kind = .semisemi then none
      else if token.value = "=" ∧ depth = 0 then some []
      else if token.kind.closer.isSome then (patternFrom (depth + 1) rest).map (token :: ·)
      else if token.kind.isClose then
        if depth = 0 then none else (patternFrom (depth - 1) rest).map (token :: ·)
      else (patternFrom depth rest).map (token :: ·)

/-- The token is the name, as a plain or a raw identifier. -/
def Token.names (name : String) (token : Token) : Bool :=
  (token.kind = .ident || token.kind = .rawIdent) && token.value = name

/-- No header counts the token of the pattern that has the tokens `front` before it and `behind` after it: it is raw, the
last mark in front of it is an equals sign, or the first one behind it is a `let` or `and`. -/
def Uncounted (front : List Token) (token : Token) (behind : List Token) : Prop :=
  token.kind = .rawIdent ∨ (front.reverse.find? Token.isMark).any (·.value = "=") = true ∨
    (behind.find? Token.isMark).any Token.isBinder = true

/-- The pattern has the name at a place where no header counts it. -/
def HidesName (name : String) (pattern : List Token) : Prop :=
  ∃ front token behind, pattern = front ++ token :: behind ∧ token.names name = true ∧ Uncounted front token behind

/-- The binders of a source other than the one that starts at `start`, with their patterns. -/
def OtherPattern (tokens : List Token) (start : ℕ) (pattern : List Token) : Prop :=
  ∃ before binder after, tokens = before ++ binder :: after ∧ binder.isBinder = true ∧ binder.span.start ≠ start ∧
    patternFrom 0 after = some pattern

/-- No other pattern of the source has the name of the binding. -/
def Unshadowed (tables : UnicodeTables) (source : Bytes) (binding : ProveBinding) : Prop :=
  ∀ tokens pattern, lexedTokens tables source = some tokens → OtherPattern tokens binding.bindingSpan.start pattern →
    ∀ token ∈ pattern, token.names binding.name = false

/-- No other pattern of the source hides the name of the binding. -/
def NowhereHidden (tables : UnicodeTables) (source : Bytes) (binding : ProveBinding) : Prop :=
  ∀ tokens pattern, lexedTokens tables source = some tokens → OtherPattern tokens binding.bindingSpan.start pattern →
    ¬ HidesName binding.name pattern

/-- A pattern ends in front of an equals sign, and no phrase ends in it. -/
theorem patternFrom_split {depth : ℕ} {tokens pattern : List Token} (h : patternFrom depth tokens = some pattern) :
    ∃ equals after, tokens = pattern ++ equals :: after ∧ equals.value = "=" ∧
      ∀ token ∈ pattern ++ [equals], token.kind ≠ .semisemi := by
  induction tokens generalizing depth pattern with
  | nil => nomatch h
  | cons token tokens ih =>
      rw [patternFrom] at h
      split at h
      · nomatch h
      rename_i hphrase
      split at h
      · rename_i hequals
        rw [← Option.some.inj h]
        exact ⟨token, tokens, rfl, hequals.1, by simpa using hphrase⟩
      · -- The token belongs to the pattern, whatever it does to the depth.
        obtain ⟨inner, depth', hinner, rfl⟩ : ∃ inner depth', patternFrom depth' tokens = some inner ∧
            token :: inner = pattern := by
          split at h
          · obtain ⟨inner, hinner, heq⟩ := Option.map_eq_some_iff.mp h
            exact ⟨inner, _, hinner, heq⟩
          split at h
          · split at h
            · nomatch h
            · obtain ⟨inner, hinner, heq⟩ := Option.map_eq_some_iff.mp h
              exact ⟨inner, _, hinner, heq⟩
          · obtain ⟨inner, hinner, heq⟩ := Option.map_eq_some_iff.mp h
            exact ⟨inner, _, hinner, heq⟩
        obtain ⟨equals, after, hsplit, hequals, hphrases⟩ := ih hinner
        refine ⟨equals, after, by rw [hsplit]; rfl, hequals, ?_⟩
        rw [List.cons_append]
        exact List.forall_mem_cons.mpr ⟨hphrase, hphrases⟩

/-! ## Headers -/

theorem headerNamesFrom_binder (header : Option (List String)) {binder : Token} (h : binder.isBinder = true)
    (rest : List Token) : headerNamesFrom header (binder :: rest) = headerNamesFrom (some []) rest := by
  cases header <;> exact if_pos h

/-- A binder starts a header of its own, whatever stands in front of it. -/
theorem headerNamesFrom_reset (header : Option (List String)) (front : List Token) {binder : Token}
    (h : binder.isBinder = true) : ∃ names, ∀ rest, headerNamesFrom header (front ++ binder :: rest) =
      names ++ headerNamesFrom (some []) rest := by
  induction front generalizing header with
  | nil => exact ⟨[], fun rest => headerNamesFrom_binder header h rest⟩
  | cons token front ih =>
      simp only [List.cons_append, headerNamesFrom]
      split
      · exact ih (some [])
      · cases header with
        | none => exact ih none
        | some open_ =>
            dsimp only
            split
            · obtain ⟨names, hnames⟩ := ih none
              exact ⟨open_ ++ names, fun rest => by rw [hnames, List.append_assoc]⟩
            split
            · exact ih _
            · exact ih _

theorem not_isBinder_of_equals {token : Token} (h : token.value = "=") : token.isBinder = false := by
  simp [Token.isBinder, Token.isIdent, h]

/-- Behind an equals sign no header is open. -/
theorem headerNamesFrom_closed (header : Option (List String)) (front : List Token) {equals : Token}
    (h : equals.value = "=") : ∃ names, ∀ rest, headerNamesFrom header (front ++ equals :: rest) =
      names ++ headerNamesFrom none rest := by
  have hbinder : ¬ equals.isIdent ["let", "and"] = true := by
    rw [Bool.not_eq_true]
    exact not_isBinder_of_equals h
  induction front generalizing header with
  | nil =>
      cases header with
      | none => exact ⟨[], fun rest => if_neg hbinder⟩
      | some open_ =>
          refine ⟨open_, fun rest => ?_⟩
          simp only [List.nil_append, headerNamesFrom]
          rw [if_neg hbinder, if_pos (.inl h)]
  | cons token front ih =>
      simp only [List.cons_append, headerNamesFrom]
      split
      · exact ih (some [])
      · cases header with
        | none => exact ih none
        | some open_ =>
            dsimp only
            split
            · obtain ⟨names, hnames⟩ := ih none
              exact ⟨open_ ++ names, fun rest => by rw [hnames, List.append_assoc]⟩
            split
            · exact ih _
            · exact ih _

/-- Without a mark, or the end of a phrase, the open header collects names. -/
theorem headerNamesFrom_unmarked (open_ : List String) {tokens : List Token}
    (hmarks : ∀ token ∈ tokens, token.isMark = false) (hphrases : ∀ token ∈ tokens, token.kind ≠ .semisemi) :
    ∃ names, (∀ name ∈ open_, name ∈ names) ∧
      (∀ token ∈ tokens, token.kind = .ident → token.value ∈ names) ∧
      ∀ rest, headerNamesFrom (some open_) (tokens ++ rest) = headerNamesFrom (some names) rest := by
  induction tokens generalizing open_ with
  | nil => exact ⟨open_, fun _ h => h, nofun, fun _ => rfl⟩
  | cons token tokens ih =>
      have hmark := hmarks token (.head _)
      rw [Token.isMark, Bool.or_eq_false_iff, decide_eq_false_iff_not] at hmark
      have hbinder : ¬ token.isIdent ["let", "and"] = true := Bool.eq_false_iff.mp hmark.1
      have hend : ¬ (token.value = "=" ∨ token.kind = .semisemi) :=
        not_or.mpr ⟨hmark.2, hphrases token (.head _)⟩
      have hstep : ∀ rest, headerNamesFrom (some open_) (token :: rest) =
          headerNamesFrom (some (if token.kind = .ident then open_.insert token.value else open_)) rest := by
        intro rest
        simp only [headerNamesFrom]
        rw [if_neg hbinder, if_neg hend]
        split <;> rfl
      obtain ⟨names, hopen, hidents, hrest⟩ :=
        ih (if token.kind = .ident then open_.insert token.value else open_) (fun other h => hmarks other (.tail _ h))
          fun other h => hphrases other (.tail _ h)
      refine ⟨names, fun name h => hopen name ?_, ?_, fun rest => by rw [List.cons_append, hstep, hrest]⟩
      · split
        · exact List.mem_insert_of_mem h
        · exact h
      · refine List.forall_mem_cons.mpr ⟨fun hident => hopen _ ?_, hidents⟩
        rw [if_pos hident]
        exact List.mem_insert_self

/-- An equals sign without a mark in front of it counts the names of the open header. -/
theorem headerNamesFrom_counted {open_ : List String} {tokens : List Token}
    (hmarks : ∀ token ∈ tokens, token.isMark = false) (hphrases : ∀ token ∈ tokens, token.kind ≠ .semisemi)
    {equals : Token} (hequals : equals.value = "=") : ∃ names, (∀ name ∈ open_, name ∈ names) ∧
      ∀ rest, headerNamesFrom (some open_) (tokens ++ equals :: rest) = names ++ headerNamesFrom none rest := by
  obtain ⟨names, hopen, -, hrest⟩ := headerNamesFrom_unmarked open_ hmarks hphrases
  refine ⟨names, hopen, fun rest => ?_⟩
  have hbinder : ¬ equals.isIdent ["let", "and"] = true := Bool.eq_false_iff.mp (not_isBinder_of_equals hequals)
  rw [hrest]
  simp only [headerNamesFrom]
  rw [if_neg hbinder, if_pos (.inl hequals)]

/-! ## What the headers of a pattern count -/

/-- In front of a token whose last mark is no equals sign a header is open. -/
theorem headerNamesFrom_opened {front : List Token} (hphrases : ∀ token ∈ front, token.kind ≠ .semisemi)
    (h : (front.reverse.find? Token.isMark).any (·.value = "=") ≠ true) :
    ∃ names open_, ∀ rest, headerNamesFrom (some []) (front ++ rest) = names ++ headerNamesFrom (some open_) rest := by
  cases hlast : front.reverse.find? Token.isMark with
  | none =>
      have hmarks : ∀ token ∈ front, token.isMark = false := fun token hmem =>
        Bool.eq_false_iff.mpr (List.find?_eq_none.mp hlast token (List.mem_reverse.mpr hmem))
      obtain ⟨open_, -, -, hrest⟩ := headerNamesFrom_unmarked [] hmarks hphrases
      exact ⟨[], open_, hrest⟩
  | some mark =>
      rw [hlast, Option.any_some, ne_eq, decide_eq_true_eq] at h
      obtain ⟨hmark, behind, before, hsplit, hmarks⟩ := List.find?_eq_some_iff_append.mp hlast
      have hbinder : mark.isBinder = true := by
        rw [Token.isMark, Bool.or_eq_true, decide_eq_true_eq] at hmark
        exact hmark.resolve_right h
      have hfront : front = before.reverse ++ mark :: behind.reverse := by
        rw [← List.reverse_reverse front, hsplit]
        simp
      have hbehind : ∀ token ∈ behind.reverse, token.isMark = false := by
        intro token hmem
        simpa using hmarks token (List.mem_reverse.mp hmem)
      rw [hfront] at hphrases ⊢
      obtain ⟨names, hreset⟩ := headerNamesFrom_reset (some []) before.reverse hbinder
      obtain ⟨open_, -, -, hrest⟩ := headerNamesFrom_unmarked [] hbehind fun token hmem =>
        hphrases token (List.mem_append_right _ (.tail _ hmem))
      refine ⟨names, open_, fun rest => ?_⟩
      rw [List.append_assoc, List.cons_append, hreset, hrest]

/-- An identifier of a pattern is counted, unless it is hidden. -/
theorem headerNamesFrom_pattern {front behind : List Token} {token equals : Token} (hequals : equals.value = "=")
    (hphrases : ∀ other ∈ front ++ token :: behind, other.kind ≠ .semisemi) (hident : token.kind = .ident)
    (hmark : token.isMark = false) (hcounted : ¬ Uncounted front token behind) :
    ∃ names, token.value ∈ names ∧ ∀ rest, headerNamesFrom (some []) (front ++ token :: behind ++ equals :: rest) =
      names ++ headerNamesFrom none rest := by
  obtain ⟨-, hcounted⟩ := not_or.mp hcounted
  obtain ⟨hbefore, hafter⟩ := not_or.mp hcounted
  have hbehind : ∀ other ∈ behind, other.kind ≠ .semisemi := fun other hmem =>
    hphrases other (List.mem_append_right _ (.tail _ hmem))
  obtain ⟨names, open_, hopened⟩ :=
    headerNamesFrom_opened (fun other hmem => hphrases other (List.mem_append_left _ hmem)) hbefore
  obtain ⟨withToken, -, htoken, hread⟩ := headerNamesFrom_unmarked open_ (List.forall_mem_singleton.mpr hmark)
    (List.forall_mem_singleton.mpr (hphrases token (by simp)))
  have hvalue : token.value ∈ withToken := htoken token (.head _) hident
  -- The header is counted at the first equals sign behind the token: one of the pattern, or the one that ends it.
  obtain ⟨counted, hmem, hcount⟩ : ∃ counted, token.value ∈ counted ∧ ∀ rest,
      headerNamesFrom (some withToken) (behind ++ equals :: rest) = counted ++ headerNamesFrom none rest := by
    cases hfirst : behind.find? Token.isMark with
    | none =>
        have hmarks : ∀ other ∈ behind, other.isMark = false := fun other h =>
          Bool.eq_false_iff.mpr (List.find?_eq_none.mp hfirst other h)
        obtain ⟨counted, hopen, hcount⟩ := headerNamesFrom_counted hmarks hbehind hequals
        exact ⟨counted, hopen _ hvalue, hcount⟩
    | some mark =>
        rw [hfirst, Option.any_some] at hafter
        obtain ⟨hmark, before, after, rfl, hmarks⟩ := List.find?_eq_some_iff_append.mp hfirst
        have hvalueMark : mark.value = "=" := by
          rw [Token.isMark, Bool.or_eq_true, decide_eq_true_eq] at hmark
          exact hmark.resolve_left hafter
        obtain ⟨counted, hopen, hcount⟩ := @headerNamesFrom_counted withToken _
          (fun other h => by simpa using hmarks other h) (fun other h => hbehind other (List.mem_append_left _ h)) mark hvalueMark
        obtain ⟨more, hclosed⟩ := headerNamesFrom_closed none after hequals
        refine ⟨counted ++ more, List.mem_append_left _ (hopen _ hvalue), fun rest => ?_⟩
        rw [List.append_assoc, List.cons_append, hcount, hclosed, List.append_assoc]
  refine ⟨names ++ counted, List.mem_append_right _ hmem, fun rest => ?_⟩
  rw [List.append_assoc, hopened, List.cons_append, ← List.singleton_append, hread, hcount, List.append_assoc]

/-! ## The phrase of a binding -/

/-- How the phrase of a binding begins and ends. -/
structure PhraseOf (tokens current : List Token) (binding : ProveBinding) (opening named equals last : Token)
    (rest : List Token) : Prop where
  begins : current = opening :: named :: equals :: rest
  ends : current.getLast? = some last
  binder : opening.isBinder = true
  ident : named.kind = .ident
  name : binding.name = named.value
  equals : equals.value = "="
  once : nameCount tokens binding.name = 1
  span : binding.bindingSpan = ⟨opening.span.start, last.span.stop⟩

theorem proveBinding_phraseOf {source : Bytes} {tokens current : List Token} {binding : ProveBinding}
    (h : proveBinding source tokens current = some binding) :
    ∃ opening named equals last rest, PhraseOf tokens current binding opening named equals last rest := by
  unfold proveBinding at h
  split at h
  · nomatch h
  split at h
  · rename_i opening named equals body hlength
    split at h
    · nomatch h
    rename_i hbegins
    split at h
    · nomatch h
    rename_i honce
    dsimp only at h
    split at h
    · rename_i prove paren quoted comma rest hbody
      split at h
      · nomatch h
      split at h
      · nomatch h
      split at h
      · rename_i inside close last henclosed
        split at h
        · nomatch h
        split at h
        · nomatch h
        split at h
        · nomatch h
        obtain ⟨hlet, hident, hequals⟩ := not_not.mp hbegins
        rw [not_not] at honce
        have hsplit := enclosedFrom_split henclosed
        obtain ⟨start, hstart⟩ : ∃ start, body = start ++ prove :: paren :: quoted :: comma :: rest := by
          split at hbody
          · exact ⟨body.take 1, by rw [← hbody, ← List.drop_one, List.take_append_drop]⟩
          · exact ⟨[], hbody⟩
        have hbinder : opening.isBinder = true := by
          simp only [Token.isBinder, Token.isIdent, Bool.and_eq_true, decide_eq_true_eq] at hlet ⊢
          exact ⟨hlet.1, List.mem_cons.mpr (.inl (List.mem_singleton.mp hlet.2))⟩
        rw [← Option.some.inj h]
        refine ⟨opening, named, equals, last, body, rfl, ?_, hbinder, hident, rfl, hequals, honce, rfl⟩
        have hlast : opening :: named :: equals :: body =
            opening :: named :: equals :: (start ++ prove :: (inside ++ [close])) ++ [last] := by
          rw [hstart, hsplit]
          simp
        rw [hlast, List.getLast?_concat]
      · nomatch h
    · nomatch h
  · nomatch h

/-- The headers never count a `let`, an `and` or an equals sign. -/
theorem not_mem_headerNamesFrom {header : Option (List String)} {name : String} (hname : name ∈ ["let", "and", "="])
    (hheader : ∀ names ∈ header, name ∉ names) (tokens : List Token) : name ∉ headerNamesFrom header tokens := by
  have hnone : ∀ names ∈ (none : Option (List String)), name ∉ names := fun _ h => nomatch h
  induction tokens generalizing header with
  | nil => exact List.not_mem_nil
  | cons token tokens ih =>
      simp only [headerNamesFrom]
      split
      · exact ih (by simp)
      rename_i hbinder
      cases header with
      | none => exact ih hnone
      | some names =>
          have hnames := hheader names rfl
          dsimp only
          split
          · exact fun hmem => (List.mem_append.mp hmem).elim hnames (ih hnone)
          rename_i hends
          split
          · rename_i hident
            have hvalue : name ≠ token.value := by
              rintro rfl
              have hequals := (not_or.mp hends).1
              rw [Token.isIdent] at hbinder
              simp_all
            refine ih fun others hothers hmem => ?_
            rw [← Option.some.inj hothers] at hmem
            exact (List.mem_insert_iff.mp hmem).elim hvalue hnames
          · exact ih hheader

/-- A header with these tokens counts the name, and is closed behind them. -/
def CountsName (name : String) (tokens : List Token) : Prop :=
  ∃ names, name ∈ names ∧ ∀ rest, headerNamesFrom (some []) (tokens ++ rest) = names ++ headerNamesFrom none rest

/-- Two headers that count a name count it twice. -/
theorem two_le_nameCount {name : String} {binder binder' : Token} (hbinder : binder.isBinder = true)
    (hbinder' : binder'.isBinder = true) {first second : List Token} (hfirst : CountsName name first)
    (hsecond : CountsName name second) (before middle after : List Token) :
    2 ≤ nameCount (before ++ binder :: (first ++ (middle ++ binder' :: (second ++ after)))) name := by
  obtain ⟨names, hname, hfirst⟩ := hfirst
  obtain ⟨names', hname', hsecond⟩ := hsecond
  obtain ⟨others, hreset⟩ := headerNamesFrom_reset none before hbinder
  obtain ⟨others', hreset'⟩ := headerNamesFrom_reset none middle hbinder'
  have hcount := List.count_pos_iff.mpr hname
  have hcount' := List.count_pos_iff.mpr hname'
  rw [nameCount, hreset, hfirst, hreset', hsecond]
  simp only [List.count_append]
  omega

section

variable {tokens current : List Token} {binding : ProveBinding} {opening named equals last : Token} {rest : List Token}

/-- The name of a binding is no mark. -/
theorem PhraseOf.isMark_eq_false (h : PhraseOf tokens current binding opening named equals last rest) {token : Token}
    (hvalue : token.value = binding.name) : token.isMark = false := by
  have hname : binding.name ∉ ["let", "and", "="] := by
    intro hname
    have honce := h.once
    rw [nameCount, List.count_eq_zero_of_not_mem (not_mem_headerNamesFrom hname (by simp) tokens)] at honce
    exact Nat.zero_ne_one honce
  rw [← hvalue] at hname
  rw [Token.isMark, Token.isBinder, Token.isIdent]
  simp_all

/-- The header of a binding counts its name. -/
theorem PhraseOf.countsName (h : PhraseOf tokens current binding opening named equals last rest) :
    CountsName binding.name [named, equals] := by
  have hmark : named.isMark = false := h.isMark_eq_false h.name.symm
  have hphrase : named.kind ≠ .semisemi := by
    rw [h.ident]
    nofun
  have hcounted : ¬ Uncounted [] named [] := by
    rintro (hraw | hbefore | hbehind)
    · rw [h.ident] at hraw
      nomatch hraw
    · nomatch hbefore
    · nomatch hbehind
  obtain ⟨names, hmem, hrest⟩ := @headerNamesFrom_pattern [] [] _ _ h.equals
    (List.forall_mem_singleton.mpr hphrase) h.ident hmark hcounted
  exact ⟨names, h.name ▸ hmem, hrest⟩

/-- A pattern with the name at a place where it is not hidden counts the name. -/
theorem PhraseOf.pattern_countsName (h : PhraseOf tokens current binding opening named equals last rest)
    {pattern after : List Token} (hpattern : patternFrom 0 after = some pattern) {token : Token} (hmem : token ∈ pattern)
    (hname : token.names binding.name = true) (hhidden : ¬ HidesName binding.name pattern) :
    ∃ closing behind, after = pattern ++ closing :: behind ∧ (∀ other ∈ pattern ++ [closing], other.kind ≠ .semisemi) ∧
      CountsName binding.name (pattern ++ [closing]) := by
  obtain ⟨closing, behind, hafter, hclosing, hphrases⟩ := patternFrom_split hpattern
  refine ⟨closing, behind, hafter, hphrases, ?_⟩
  obtain ⟨front, back, rfl⟩ := List.append_of_mem hmem
  have hcounted : ¬ Uncounted front token back := fun huncounted => hhidden ⟨front, token, back, rfl, hname, huncounted⟩
  rw [Token.names, Bool.and_eq_true, decide_eq_true_eq, Bool.or_eq_true, decide_eq_true_eq, decide_eq_true_eq] at hname
  have hident : token.kind = .ident := hname.1.resolve_right fun hraw => hcounted (.inl hraw)
  obtain ⟨names, hnames, hrest⟩ := headerNamesFrom_pattern hclosing
    (fun other hother => hphrases other (List.mem_append_left _ hother)) hident (h.isMark_eq_false hname.2) hcounted
  refine ⟨names, hname.2 ▸ hnames, fun rest => ?_⟩
  rw [List.append_assoc]
  exact hrest rest

/-- A pattern in front of a phrase ends in front of it. -/
theorem patternFrom_endsPhrase {front between : List Token} {binder : Token} (hbinder : binder.isBinder = true)
    (hends : EndsPhrase (front ++ binder :: between)) {header later others : List Token}
    (hphrases : ∀ other ∈ header, other.kind ≠ .semisemi) (hsplit : header ++ later = between ++ others) :
    ∃ middle, later = middle ++ others := by
  rcases List.append_eq_append_iff.mp hsplit with ⟨middle, -, hlater⟩ | ⟨middle, hheader, -⟩
  · exact ⟨middle, hlater⟩
  · -- Otherwise the end of the phrase in front would stand in the header.
    have hlast := List.getLast?_eq_some_getLast (List.cons_ne_nil binder between)
    have hphrase : ((binder :: between).getLast (List.cons_ne_nil binder between)).kind = .semisemi := by
      refine hends _ ?_
      rw [List.getLast?_append_of_ne_nil _ (List.cons_ne_nil _ _), hlast]
      rfl
    rcases List.mem_cons.mp (List.getLast_mem (List.cons_ne_nil binder between)) with heq | hmem
    · rw [heq] at hphrase
      rw [Token.isBinder, Token.isIdent, hphrase] at hbinder
      nomatch hbinder
    · exact absurd hphrase (hphrases _ (hheader ▸ List.mem_append_left _ hmem))

/-- Another pattern that has the name of a binding hides it. -/
theorem PhraseOf.hidesName (h : PhraseOf tokens current binding opening named equals last rest) {before after : List Token}
    (htokens : tokens = before ++ (current ++ after)) (hends : EndsPhrase before) {pattern : List Token}
    (hother : OtherPattern tokens binding.bindingSpan.start pattern) {token : Token} (hmem : token ∈ pattern)
    (hname : token.names binding.name = true) : HidesName binding.name pattern := by
  by_contra hhidden
  obtain ⟨front, binder, behind, hsplit, hbinder, hstart, hpattern⟩ := hother
  obtain ⟨closing, later, rfl, hphrases, hcounts⟩ := h.pattern_countsName hpattern hmem hname hhidden
  have hown : tokens = before ++ opening :: ([named, equals] ++ (rest ++ after)) := by
    rw [htokens, h.begins]
    simp
  have hdiffer : binder ≠ opening := by
    rintro rfl
    exact hstart (by rw [h.span])
  have honce := h.once
  have hnamed : named.isMark = false := h.isMark_eq_false h.name.symm
  rcases List.append_eq_append_iff.mp (hsplit.symm.trans hown) with ⟨between, hbefore, hrest⟩ | ⟨between, hfront, hrest⟩
  · -- The other binder stands in front of the phrase; its pattern ends there as well.
    match between, hrest with
    | [], hrest => exact hdiffer (List.cons.inj hrest).1
    | _ :: between, hrest =>
        obtain ⟨rfl, hbetween⟩ := List.cons.inj hrest
        rw [hbefore] at hends
        have hheader : (pattern ++ [closing]) ++ later =
            between ++ (opening :: ([named, equals] ++ (rest ++ after))) := by
          rw [List.append_assoc, List.singleton_append, hbetween]
          rfl
        obtain ⟨middle, rfl⟩ := patternFrom_endsPhrase hbinder hends hphrases hheader
        have htwice := two_le_nameCount hbinder h.binder hcounts h.countsName front middle (rest ++ after)
        rw [List.append_assoc, List.singleton_append, ← hsplit, honce] at htwice
        omega
  · -- The other binder stands behind the equals sign of the phrase.
    match between, hrest with
    | [], hrest => exact hdiffer (List.cons.inj hrest).1.symm
    | [_], hrest =>
        have hfirst := (List.cons.inj (List.cons.inj hrest).2).1
        rw [hfirst, Token.isMark, hbinder] at hnamed
        nomatch hnamed
    | [_, _], hrest =>
        have hsecond := (List.cons.inj (List.cons.inj (List.cons.inj hrest).2).2).1
        have hequals := not_isBinder_of_equals h.equals
        rw [hsecond, hbinder] at hequals
        nomatch hequals
    | _ :: _ :: _ :: middle, hrest =>
        have hbehind : rest ++ after = middle ++ binder :: (pattern ++ closing :: later) :=
          (List.cons.inj (List.cons.inj (List.cons.inj hrest).2).2).2
        have htwice := two_le_nameCount h.binder hbinder h.countsName hcounts before middle later
        rw [List.append_assoc pattern, List.singleton_append, ← hbehind] at htwice
        rw [← hown, honce] at htwice
        omega

/-- The tokens of a phrase stand between its first and its last. -/
theorem PhraseOf.within (h : PhraseOf tokens current binding opening named equals last rest)
    (horder : current.Pairwise fun first second => first.span.stop ≤ second.span.start)
    (hcovers : ∀ token ∈ current, token.span.start ≤ token.span.stop) {token : Token} (hmem : token ∈ current) :
    binding.bindingSpan.start ≤ token.span.start ∧ token.span.stop ≤ binding.bindingSpan.stop := by
  rw [h.span]
  constructor
  · have hopening : opening ∈ current := by
      rw [h.begins]
      exact .head _
    have hcover := hcovers opening hopening
    rw [h.begins] at hmem horder
    rcases List.mem_cons.mp hmem with rfl | hmem
    · exact Nat.le_refl _
    · exact hcover.trans ((List.pairwise_cons.mp horder).1 token hmem)
  · obtain ⟨front, rfl⟩ := List.getLast?_eq_some_iff.mp h.ends
    have hcover := hcovers last (by simp)
    rcases List.mem_append.mp hmem with hmem | hmem
    · exact ((List.pairwise_append.mp horder).2.2 token hmem last (.head _)).trans hcover
    · rw [List.mem_singleton.mp hmem]

end

/-! ## The phrases of a source -/

/-- Of two phrases the first stands in front of the second. -/
theorem topLevelPhrasesFrom_pairwise {phrase : List Token} {blocks : List String} {closers : List TokenKind}
    {tokens : List Token} {phrases : List (List Token)}
    (h : topLevelPhrasesFrom phrase blocks closers tokens = some phrases) :
    phrases.Pairwise fun first second =>
      ∃ before middle after, phrase ++ tokens = before ++ (first ++ (middle ++ (second ++ after))) := by
  induction tokens generalizing phrase blocks closers phrases with
  | nil =>
      rw [topLevelPhrasesFrom] at h
      split at h
      · rw [← Option.some.inj h]
        exact .nil
      · cases h
  | cons token tokens ih =>
      rw [topLevelPhrasesFrom] at h
      split at h
      · cases h
      dsimp only at h
      have hassoc : phrase ++ token :: tokens = (phrase ++ [token]) ++ tokens := by simp
      rw [hassoc]
      split at h
      · obtain ⟨later, hlater, rfl⟩ := Option.map_eq_some_iff.mp h
        refine List.pairwise_cons.mpr ⟨fun second hsecond => ?_, (ih hlater).imp ?_⟩
        · obtain ⟨middle, after, htokens, -⟩ := topLevelPhrasesFrom_split hlater hsecond
          rw [List.nil_append] at htokens
          exact ⟨[], middle, after, by rw [htokens]; rfl⟩
        · rintro first second ⟨before, middle, after, htokens⟩
          rw [List.nil_append] at htokens
          exact ⟨(phrase ++ [token]) ++ before, middle, after, by rw [htokens]; simp⟩
      · exact ih h

/-! ## No shadows -/

/-- The statement and the tactic of a binding stand behind each other in its phrase. -/
structure ProveBinding.Nested (binding : ProveBinding) : Prop where
  statement : binding.bindingSpan.start ≤ binding.statementSpan.start
  between : binding.statementSpan.stop ≤ binding.tacticSpan.start
  tactic : binding.tacticSpan.stop ≤ binding.bindingSpan.stop

/-- The bindings of a source have distinct names, and each of them stands behind the one before. -/
structure StandApart (bindings : List ProveBinding) : Prop where
  names : (bindings.map ProveBinding.name).Nodup
  spans : bindings.Pairwise fun first second => first.bindingSpan.stop ≤ second.bindingSpan.start
  nested : ∀ binding ∈ bindings, binding.Nested

/-- No binding of a source is one of several shadows. -/
structure PicksNoShadow (tables : UnicodeTables) (source : Bytes) : Prop where
  apart : StandApart (scanProveBindings tables source).bindings
  unshadowed : ∀ binding ∈ (scanProveBindings tables source).bindings, Unshadowed tables source binding

theorem proveBinding_nested {tables : UnicodeTables} {text : List Char} {source : Bytes} {tokens current : List Token}
    {before after : List Token} {binding : ProveBinding} (htokens : tokenize tables text = .ok tokens)
    (hsplit : tokens = before ++ (current ++ after)) (h : proveBinding source tokens current = some binding) :
    binding.Nested := by
  obtain ⟨opening, named, equals, last, rest, hphrase⟩ := proveBinding_phraseOf h
  obtain ⟨_, quoted, comma, close, hprove⟩ := proveBinding_phrase h
  obtain ⟨first, middle, others, horder⟩ := hprove.order
  have hpairs := (tokenize_inOrder htokens).order
  have hstands := (reading_of_tokenize htokens).standsIn
  rw [hsplit] at hpairs hstands
  have hcurrent := (List.pairwise_append.mp (List.pairwise_append.mp hpairs).2.1).1
  have hcovers : ∀ token ∈ current, token.span.start ≤ token.span.stop := fun token hmem =>
    (hstands token (List.mem_append_right _ (List.mem_append_left _ hmem))).covers.le
  have hquoted := hphrase.within hcurrent hcovers (show quoted ∈ current by simp [horder])
  have hclose := hphrase.within hcurrent hcovers (show close ∈ current by simp [horder])
  have hcomma := hcovers comma (by simp [horder])
  have hcloses := hcovers close (by simp [horder])
  rw [horder] at hcurrent
  have hbehind := (List.pairwise_cons.mp (List.pairwise_append.mp hcurrent).2.1).1 comma (.head _)
  constructor
  · rw [hprove.statement]
    exact hquoted.1
  · rw [hprove.statement, hprove.tactic]
    exact hbehind.trans hcomma
  · rw [hprove.tactic]
    exact hcloses.trans hclose.2

/-- Of two phrases in a row of tokens the bindings have distinct names and stand behind each other. -/
theorem proveBinding_apart {tables : UnicodeTables} {text : List Char} {source : Bytes}
    {tokens first second before middle after : List Token} {binding binding' : ProveBinding}
    (htokens : tokenize tables text = .ok tokens)
    (hsplit : tokens = before ++ (first ++ (middle ++ (second ++ after))))
    (hbinding : proveBinding source tokens first = some binding)
    (hbinding' : proveBinding source tokens second = some binding') :
    binding.name ≠ binding'.name ∧ binding.bindingSpan.stop ≤ binding'.bindingSpan.start := by
  obtain ⟨opening, named, equals, last, rest, hphrase⟩ := proveBinding_phraseOf hbinding
  obtain ⟨opening', named', equals', last', rest', hphrase'⟩ := proveBinding_phraseOf hbinding'
  constructor
  · intro hname
    have htwice := two_le_nameCount hphrase.binder hphrase'.binder hphrase.countsName (hname ▸ hphrase'.countsName)
      before (rest ++ middle) (rest' ++ after)
    have hown : tokens = before ++ opening :: ([named, equals] ++
        ((rest ++ middle) ++ opening' :: ([named', equals'] ++ (rest' ++ after)))) := by
      rw [hsplit, hphrase.begins, hphrase'.begins]
      simp
    rw [← hown, hphrase.once] at htwice
    omega
  · have hpairs := (tokenize_inOrder htokens).order
    rw [hsplit] at hpairs
    have hpairs := (List.pairwise_append.mp (List.pairwise_append.mp hpairs).2.1).2.2
    obtain ⟨front, hfront⟩ := List.getLast?_eq_some_iff.mp hphrase.ends
    rw [hphrase.span, hphrase'.span]
    exact hpairs last (by simp [hfront]) opening' (by simp [hphrase'.begins])

/-- The bindings of a source stand apart. -/
theorem scanProveBindings_standApart (tables : UnicodeTables) (source : Bytes) :
    StandApart (scanProveBindings tables source).bindings := by
  have hpairs : (scanProveBindings tables source).bindings.Pairwise fun first second =>
      first.name ≠ second.name ∧ first.bindingSpan.stop ≤ second.bindingSpan.start := by
    rcases scanProveBindings_bindings tables source with hnil | ⟨_, tokens, phrases, -, -, htokens, hphrases, heq⟩
    · rw [hnil]
      exact .nil
    · rw [heq, List.pairwise_filterMap]
      refine (topLevelPhrasesFrom_pairwise hphrases).imp ?_
      rintro first second ⟨before, middle, after, hsplit⟩ binding hbinding binding' hbinding'
      exact proveBinding_apart htokens hsplit hbinding hbinding'
  refine ⟨?_, hpairs.imp fun h => h.2, fun binding hmem => ?_⟩
  · rw [List.Nodup, List.pairwise_map]
    exact hpairs.imp fun h => h.1
  · obtain ⟨text, tokens, phrases, current, -, -, htokens, hphrases, hcurrent, hbinding⟩ := mem_scanProveBindings hmem
    obtain ⟨before, after, hsplit, -⟩ := topLevelPhrasesFrom_split hphrases hcurrent
    exact proveBinding_nested htokens hsplit hbinding

/-- A binding has no shadow if and only if no other pattern hides its name from the headers. -/
theorem unshadowed_iff {tables : UnicodeTables} {source : Bytes} {binding : ProveBinding}
    (hmem : binding ∈ (scanProveBindings tables source).bindings) :
    Unshadowed tables source binding ↔ NowhereHidden tables source binding := by
  constructor
  · rintro hnone tokens pattern hlexed hother ⟨front, token, behind, rfl, hname, -⟩
    have hfalse := hnone tokens _ hlexed hother token (by simp)
    rw [hname] at hfalse
    nomatch hfalse
  · intro hnone tokens pattern hlexed hother token htoken
    by_contra hname
    rw [Bool.not_eq_false] at hname
    obtain ⟨text, tokens', phrases, current, -, hlexed', -, hphrases, hcurrent, hbinding⟩ := mem_scanProveBindings hmem
    obtain rfl := Option.some.inj (hlexed.symm.trans hlexed')
    obtain ⟨before, after, hsplit, hends⟩ := topLevelPhrasesFrom_split hphrases hcurrent
    obtain ⟨opening, named, equals, last, rest, hphrase⟩ := proveBinding_phraseOf hbinding
    exact hnone tokens pattern hlexed hother (hphrase.hidesName hsplit hends hother htoken hname)

/-- No binding of a source is one of several shadows if and only if no other pattern hides the name of a binding. -/
theorem picks_no_shadow_iff (tables : UnicodeTables) (source : Bytes) :
    PicksNoShadow tables source ↔
      ∀ binding ∈ (scanProveBindings tables source).bindings, NowhereHidden tables source binding := by
  constructor
  · intro h binding hmem
    exact (unshadowed_iff hmem).mp (h.unshadowed binding hmem)
  · intro h
    exact ⟨scanProveBindings_standApart tables source, fun binding hmem => (unshadowed_iff hmem).mpr (h binding hmem)⟩

/-- The field of a record pattern is a shadow. -/
theorem record_field_shadows :
    ¬ PicksNoShadow .ascii (utf8 "let \x7bf = T\x7d = r;;\nlet T = prove(\x60p\x60, TAC);;") := by
  intro h
  -- The binding is returned, and the pattern of the first `let` has its name.
  have hscan : (scanProveBindings .ascii (utf8 "let \x7bf = T\x7d = r;;\nlet T = prove(\x60p\x60, TAC);;")).bindings.any
      (fun binding => binding.name = "T" ∧ binding.bindingSpan.start = 18) = true := by decide +kernel
  have hread : (lexedTokens .ascii (utf8 "let \x7bf = T\x7d = r;;\nlet T = prove(\x60p\x60, TAC);;")).any
      (fun tokens => tokens.head?.any (fun binder => binder.isBinder ∧ binder.span.start = 0) ∧
        (patternFrom 0 tokens.tail).any (·.any (·.names "T"))) = true := by decide +kernel
  obtain ⟨binding, hmem, hbinding⟩ := List.any_eq_true.mp hscan
  obtain ⟨hname, hstart⟩ := of_decide_eq_true hbinding
  obtain ⟨tokens, hlexed, htokens⟩ := (Option.any_eq_true _ _).mp hread
  obtain ⟨hhead, hpattern⟩ := of_decide_eq_true htokens
  obtain ⟨binder, hbinder, hfacts⟩ := (Option.any_eq_true _ _).mp hhead
  obtain ⟨pattern, hpattern, htoken⟩ := (Option.any_eq_true _ _).mp hpattern
  obtain ⟨token, htoken, hnames⟩ := List.any_eq_true.mp htoken
  obtain ⟨hisBinder, hbinderStart⟩ := of_decide_eq_true hfacts
  have hother : OtherPattern tokens binding.bindingSpan.start pattern := by
    refine ⟨[], binder, tokens.tail, ?_, hisBinder, ?_, hpattern⟩
    · rw [List.nil_append, List.cons_head?_tail hbinder]
    · rw [hstart, hbinderStart]
      nofun
  have hfalse := h.unshadowed binding hmem tokens pattern hlexed hother token htoken
  rw [hname, hnames] at hfalse
  nomatch hfalse

end Hearth.Loader
