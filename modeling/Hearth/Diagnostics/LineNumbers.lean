import Hearth.Diagnostics.Lines
import Hearth.Diagnostics.Text
import Hearth.Library.TextLines

/-!
# Numbers of lines

Three accountings number the lines of one transcript.  The markers, the records of proof diagnostics and the
foundation delta number `bytes.splitlines`, the activity numbers the ranges of `_line_ranges`, and `first_error` and
`diagnostic_claim_lines` number `str.splitlines` of the decoded transcript.  The first two always agree.  The third
also ends a line at the other line boundaries of Unicode, which terminals and tools do print.
-/

namespace Hearth.Diagnostics

open Hearth.Library

/-- The lines that `first_error` and `diagnostic_claim_lines` number. -/
def textLines (transcript : Bytes) : List (List Char) :=
  Text.splitlines (decodeFrom none transcript)

/-- An accounting numbers the `lines` of a transcript from 1: what it gives to those that lie in the physical line
behind the physical lines `before`. -/
def numbersIn {α : Type} (lines : Bytes → List α) (before : List Bytes) (line : Bytes) : List ℕ :=
  List.range' ((lines before.flatten).length + 1) (lines line).length

/-- Each physical line has the same number in the three accountings. -/
def LineNumbersAgree (transcript : Bytes) : Prop :=
  ∀ before line after, lineRanges transcript = before ++ line :: after →
    numbersIn textLines before line = numbersIn splitLines before line ∧
      numbersIn splitLines before line = numbersIn lineRanges before line

/-- No line boundary but a line feed and a carriage return has text behind it. -/
def driftFree : List Char → Bool
  | [] => true
  | char :: rest => (!Text.isLineBreak char || char = '\n' || char = '\r' || rest = []) && driftFree rest

/-! ## Physical lines -/

/-- What ends a physical line. -/
def lineEnds : List Bytes :=
  [[10], [13], [13, 10]]

/-- Physical lines, each with its end; the last one may have none. -/
inductive InLines : List Bytes → Prop
  | nil : InLines []
  | last {content : Bytes} (hcontent : OneLine content) (hne : content ≠ []) : InLines [content]
  | cons {content ending : Bytes} {lines : List Bytes} (hcontent : OneLine content) (hending : ending ∈ lineEnds)
      (hreturn : ending = [13] → lines.flatten.head? ≠ some 10) (hrest : InLines lines) :
      InLines ((content ++ ending) :: lines)

theorem OneLine.append {first second : Bytes} (hfirst : OneLine first) (hsecond : OneLine second) :
    OneLine (first ++ second) :=
  ⟨fun h => (List.mem_append.mp h).elim hfirst.1 hsecond.1, fun h => (List.mem_append.mp h).elim hfirst.2 hsecond.2⟩

theorem oneLine_singleton {byte : UInt8} (hlf : byte ≠ 10) (hcr : byte ≠ 13) : OneLine [byte] :=
  ⟨fun h => hlf (List.mem_singleton.mp h).symm, fun h => hcr (List.mem_singleton.mp h).symm⟩

/-- The ranges are physical lines, and cover the transcript. -/
theorem lineRangesFrom_inLines {open_ : Bytes} (hopen : OneLine open_.reverse) (raw : Bytes) :
    InLines (lineRangesFrom open_ raw) ∧ (lineRangesFrom open_ raw).flatten = open_.reverse ++ raw := by
  have hnone : OneLine ([] : Bytes).reverse := by
    rw [List.reverse_nil]
    exact ⟨List.not_mem_nil, List.not_mem_nil⟩
  fun_induction lineRangesFrom open_ raw with
  | case1 => exact ⟨.nil, rfl⟩
  | case2 open_ hne => exact ⟨.last hopen (by simpa using hne), by simp⟩
  | case3 open_ rest ih =>
      obtain ⟨hlines, hflatten⟩ := ih hnone
      rw [List.reverse_cons, List.flatten_cons, hflatten]
      exact ⟨.cons hopen (by simp [lineEnds]) (by simp) hlines, by simp⟩
  | case4 open_ rest ih =>
      obtain ⟨hlines, hflatten⟩ := ih hnone
      rw [List.reverse_cons, List.reverse_cons, List.append_assoc, List.flatten_cons, hflatten]
      exact ⟨.cons hopen (by simp [lineEnds]) (by simp) hlines, by simp⟩
  | case5 open_ rest hrest ih =>
      obtain ⟨hlines, hflatten⟩ := ih hnone
      have hreturn : (lineRangesFrom [] rest).flatten.head? ≠ some 10 := by
        rw [hflatten]
        intro hhead
        exact hrest rest.tail (List.cons_head?_tail hhead).symm
      rw [List.reverse_cons, List.flatten_cons, hflatten]
      exact ⟨.cons hopen (by simp [lineEnds]) (fun _ => hreturn) hlines, by simp⟩
  | case6 open_ byte rest hlf hcrlf hcr ih =>
      have hopen' : OneLine (byte :: open_).reverse := by
        rw [List.reverse_cons]
        exact hopen.append (oneLine_singleton hlf hcr)
      obtain ⟨hlines, hflatten⟩ := ih hopen'
      exact ⟨hlines, by rw [hflatten]; simp⟩

theorem lineRanges_inLines (transcript : Bytes) :
    InLines (lineRanges transcript) ∧ (lineRanges transcript).flatten = transcript :=
  lineRangesFrom_inLines ⟨List.not_mem_nil, List.not_mem_nil⟩ transcript

/-- Bytes without a line end belong to the open line. -/
theorem lineRangesFrom_content (open_ : Bytes) {content : Bytes} (h : OneLine content) (rest : Bytes) :
    lineRangesFrom open_ (content ++ rest) = lineRangesFrom (content.reverse ++ open_) rest := by
  induction content generalizing open_ with
  | nil => rfl
  | cons byte content ih =>
      have hlf : byte ≠ 10 := fun heq => h.1 (heq ▸ .head _)
      have hcr : byte ≠ 13 := fun heq => h.2 (heq ▸ .head _)
      have hcontent : OneLine content := ⟨fun hmem => h.1 (.tail _ hmem), fun hmem => h.2 (.tail _ hmem)⟩
      rw [List.cons_append, lineRangesFrom_byte open_ hlf hcr, ih _ hcontent]
      simp

theorem lineRanges_line {content ending rest : Bytes} (hcontent : OneLine content) (hending : ending ∈ lineEnds)
    (hreturn : ending = [13] → rest.head? ≠ some 10) :
    lineRanges (content ++ ending ++ rest) = (content ++ ending) :: lineRanges rest := by
  unfold lineRanges
  rw [List.append_assoc, lineRangesFrom_content [] hcontent, List.append_nil]
  simp only [lineEnds, List.mem_cons, List.not_mem_nil, or_false] at hending
  rcases hending with rfl | rfl | rfl
  · rw [List.singleton_append, lineRangesFrom, List.reverse_cons, List.reverse_reverse]
  · rw [List.singleton_append, lineRangesFrom_cr _ (hreturn rfl), List.reverse_cons, List.reverse_reverse]
  · rw [List.cons_append, List.singleton_append, lineRangesFrom]
    simp

theorem InLines.lineRanges_flatten {lines : List Bytes} (h : InLines lines) : lineRanges lines.flatten = lines := by
  induction h with
  | nil => rfl
  | @last content hcontent hne =>
      have hread := lineRangesFrom_content [] hcontent []
      rw [List.append_nil, List.append_nil] at hread
      rw [List.flatten_cons, List.flatten_nil, List.append_nil]
      unfold lineRanges
      rw [hread, lineRangesFrom, if_neg (by simpa using hne), List.reverse_reverse]
  | cons hcontent hending hreturn hrest ih =>
      rw [List.flatten_cons, lineRanges_line hcontent hending hreturn, ih]

/-- A cut between physical lines. -/
theorem InLines.cut {before after : List Bytes} {line : Bytes} (h : InLines (before ++ line :: after)) :
    InLines before ∧ InLines [line] ∧ InLines after := by
  induction before with
  | nil =>
      refine ⟨.nil, ?_⟩
      rw [List.nil_append] at h
      cases h with
      | last hcontent hne => exact ⟨.last hcontent hne, .nil⟩
      | cons hcontent hending hreturn hrest => exact ⟨.cons hcontent hending nofun .nil, hrest⟩
  | cons first before ih =>
      rw [List.cons_append] at h
      generalize hlines : before ++ line :: after = lines at h
      cases h with
      | last hcontent hne => exact absurd hlines (by simp)
      | cons hcontent hending hreturn hrest =>
          subst hlines
          obtain ⟨hbefore, hline⟩ := ih hrest
          refine ⟨.cons hcontent hending (fun heq hhead => hreturn heq ?_) hbefore, hline⟩
          rw [List.flatten_append, List.head?_append, hhead]
          rfl

/-! ## Decoding -/

/-- The bits of a character behind one more byte. -/
@[irreducible]
def nextBits (bits byte : ℕ) : ℕ :=
  bits * 64 + (byte - 0x80)

theorem nextBits_eq (bits byte : ℕ) : nextBits bits byte = bits * 64 + (byte - 0x80) := by
  unfold nextBits
  rfl

theorem nextBits_mono {bits bits' byte byte' : ℕ} (hbits : bits ≤ bits') (hbyte : byte ≤ byte') :
    nextBits bits byte ≤ nextBits bits' byte' := by
  rw [nextBits_eq, nextBits_eq]
  omega

/-- The least value that the bytes still to come can complete. -/
def leastValue (bits : ℕ) : List (ℕ × ℕ) → ℕ
  | [] => bits
  | range :: ranges => leastValue (nextBits bits range.1) ranges

/-- An open character is beyond ASCII, and takes no ASCII byte. -/
def PendingSound (pending : Pending) : Prop :=
  ∀ bits ranges, pending = some (bits, ranges) →
    128 ≤ leastValue bits ranges ∧ ranges ≠ [] ∧ ∀ range ∈ ranges, 0x80 ≤ range.1

theorem leastValue_mono {bits bits' : ℕ} (h : bits ≤ bits') (ranges : List (ℕ × ℕ)) :
    leastValue bits ranges ≤ leastValue bits' ranges := by
  induction ranges generalizing bits bits' with
  | nil => exact h
  | cons range ranges ih => exact ih (nextBits_mono h (Nat.le_refl _))

/-- A character that was put together from several bytes ends no line in ASCII. -/
theorem ofNat_not_lineEnd {bits : ℕ} (h : 128 ≤ bits) : Char.ofNat bits ≠ '\n' ∧ Char.ofNat bits ≠ '\r' := by
  by_cases hvalid : bits.isValidChar
  · have htoNat : (Char.ofNat bits).toNat = bits := by
      unfold Char.ofNat
      rw [dif_pos hvalid]
      rfl
    rw [← htoNat] at h
    constructor <;>
      (intro heq
       rw [heq] at h
       exact absurd h (by decide))
  · have hzero : Char.ofNat bits = '\x00' := by
      unfold Char.ofNat
      rw [dif_neg hvalid]
      rfl
    rw [hzero]
    decide

theorem leadByte_sound (byte : ℕ) : PendingSound (leadByte byte).2 := by
  intro bits ranges h
  unfold leadByte at h
  dsimp only at h
  split at h
  · cases h
  split at h
  · rename_i hbyte
    simp only [Option.some.injEq, Prod.mk.injEq] at h
    obtain ⟨rfl, rfl⟩ := h
    simp only [leastValue, nextBits_eq]
    exact ⟨by omega, by simp, by simp⟩
  split at h
  · cases h
    simp only [leastValue, nextBits_eq]
    exact ⟨by omega, by simp, by simp⟩
  split at h
  · cases h
    simp only [leastValue, nextBits_eq]
    exact ⟨by omega, by simp, by simp⟩
  split at h
  · rename_i hbyte
    simp only [Option.some.injEq, Prod.mk.injEq] at h
    obtain ⟨rfl, rfl⟩ := h
    simp only [leastValue, nextBits_eq]
    exact ⟨by omega, by simp, by simp⟩
  split at h
  · cases h
    simp only [leastValue, nextBits_eq]
    exact ⟨by omega, by simp, by simp⟩
  split at h
  · rename_i hbyte
    simp only [Option.some.injEq, Prod.mk.injEq] at h
    obtain ⟨rfl, rfl⟩ := h
    simp only [leastValue, nextBits_eq]
    exact ⟨by omega, by simp, by simp⟩
  split at h
  · cases h
    simp only [leastValue, nextBits_eq]
    exact ⟨by omega, by simp, by simp⟩
  · cases h

/-- The replacement of an open character that ends here. -/
def flushed (pending : Pending) : List Char :=
  if pending.isSome then ['\uFFFD'] else []

/-- What one byte does: an ASCII byte ends what is open and is a character, another ends no line. -/
structure ByteDecoded (pending : Pending) (byte : ℕ) : Prop where
  sound : PendingSound (decodeByte pending byte).2
  ascii : byte < 128 → decodeByte pending byte = (flushed pending ++ [Char.ofNat byte], none)
  other : 128 ≤ byte → ∀ char ∈ (decodeByte pending byte).1, char ≠ '\n' ∧ char ≠ '\r'
  silent : (decodeByte pending byte).1 = [] → (decodeByte pending byte).2.isSome

theorem leadByte_ascii {byte : ℕ} (h : byte < 128) : leadByte byte = ([Char.ofNat byte], none) :=
  if_pos h

/-- A byte beyond ASCII starts a character or is replaced. -/
theorem leadByte_other {byte : ℕ} (h : 128 ≤ byte) :
    ((leadByte byte).1 = [] ∧ (leadByte byte).2.isSome) ∨ (leadByte byte).1 = ['\uFFFD'] := by
  unfold leadByte
  dsimp only
  rw [if_neg (by omega)]
  repeat' split
  all_goals simp

theorem leadByte_decoded (byte : ℕ) : ByteDecoded none byte where
  sound := leadByte_sound byte
  ascii := leadByte_ascii
  other := by
    intro h char hmem
    have hmem' : char ∈ (leadByte byte).1 := hmem
    rcases leadByte_other h with ⟨hnil, -⟩ | hreplaced
    · rw [hnil] at hmem'
      exact absurd hmem' List.not_mem_nil
    · rw [hreplaced] at hmem'
      rw [List.mem_singleton.mp hmem']
      decide
  silent := by
    intro h
    have h' : (leadByte byte).1 = [] := h
    by_cases hascii : byte < 128
    · rw [leadByte_ascii hascii] at h'
      cases h'
    · rcases leadByte_other (Nat.le_of_not_lt hascii) with ⟨-, hsome⟩ | hreplaced
      · exact hsome
      · rw [hreplaced] at h'
        cases h'

theorem decodeByte_decoded {pending : Pending} (h : PendingSound pending) (byte : ℕ) : ByteDecoded pending byte := by
  cases pending with
  | none => exact leadByte_decoded byte
  | some open_ =>
      obtain ⟨bits, ranges⟩ := open_
      obtain ⟨hvalue, hranges, hlows⟩ := h bits ranges rfl
      obtain ⟨⟨low, high⟩, ranges, rfl⟩ := List.exists_cons_of_ne_nil hranges
      obtain ⟨hlow, hlows⟩ := List.forall_mem_cons.mp hlows
      have hbits : bits * 64 + (byte - 0x80) = nextBits bits byte := (nextBits_eq bits byte).symm
      by_cases hnext : low ≤ byte ∧ byte ≤ high
      · have hascii : 128 ≤ byte := le_trans hlow hnext.1
        have hleast : 128 ≤ leastValue (nextBits bits byte) ranges :=
          le_trans hvalue (leastValue_mono (nextBits_mono (Nat.le_refl _) hnext.1) ranges)
        by_cases hlast : ranges = []
        · subst hlast
          have hdecode : decodeByte (some (bits, [(low, high)])) byte = ([Char.ofNat (nextBits bits byte)], none) := by
            rw [← hbits]
            simp only [decodeByte, if_pos hnext, if_true]
          refine ⟨?_, fun hlt => absurd hlt (by omega), fun _ char hmem => ?_, fun hnil => ?_⟩
          · rw [hdecode]
            exact nofun
          · rw [hdecode] at hmem
            rw [List.mem_singleton.mp hmem]
            exact ofNat_not_lineEnd hleast
          · rw [hdecode] at hnil
            cases hnil
        · have hdecode : decodeByte (some (bits, (low, high) :: ranges)) byte =
              ([], some (nextBits bits byte, ranges)) := by
            rw [← hbits]
            simp only [decodeByte, if_pos hnext, if_neg hlast]
          refine ⟨?_, fun hlt => absurd hlt (by omega), fun _ char hmem => ?_, fun _ => ?_⟩
          · rw [hdecode]
            rintro bits' ranges' heq
            obtain ⟨rfl, rfl⟩ := Prod.mk.inj (Option.some.inj heq)
            exact ⟨hleast, hlast, hlows⟩
          · rw [hdecode] at hmem
            exact absurd hmem List.not_mem_nil
          · rw [hdecode]
            rfl
      · have hdecode : decodeByte (some (bits, (low, high) :: ranges)) byte =
            ('\uFFFD' :: (leadByte byte).1, (leadByte byte).2) := by
          simp only [decodeByte, if_neg hnext]
        have hlead := leadByte_decoded byte
        refine ⟨?_, fun hlt => ?_, fun hge char hmem => ?_, fun hnil => ?_⟩
        · rw [hdecode]
          exact hlead.sound
        · rw [hdecode, leadByte_ascii hlt]
          rfl
        · rw [hdecode] at hmem
          rcases List.mem_cons.mp hmem with rfl | hmem
          · decide
          · exact hlead.other hge char hmem
        · rw [hdecode] at hnil
          cases hnil

theorem pendingSound_none : PendingSound none :=
  nofun

theorem decodeFrom_cons (pending : Pending) (byte : UInt8) (rest : Bytes) :
    decodeFrom pending (byte :: rest) =
      (decodeByte pending byte.toNat).1 ++ decodeFrom (decodeByte pending byte.toNat).2 rest :=
  rfl

theorem decodeFrom_ascii {pending : Pending} (h : PendingSound pending) {byte : UInt8} (hbyte : byte.toNat < 128)
    (rest : Bytes) :
    decodeFrom pending (byte :: rest) = flushed pending ++ Char.ofNat byte.toNat :: decodeFrom none rest := by
  rw [decodeFrom_cons, (decodeByte_decoded h byte.toNat).ascii hbyte, List.append_assoc]
  rfl

/-- An ASCII byte cuts the decoding. -/
theorem decodeFrom_append_ascii {pending : Pending} (h : PendingSound pending) (content : Bytes) {byte : UInt8}
    (hbyte : byte.toNat < 128) (rest : Bytes) :
    decodeFrom pending (content ++ byte :: rest) =
      decodeFrom pending content ++ Char.ofNat byte.toNat :: decodeFrom none rest := by
  induction content generalizing pending with
  | nil => exact decodeFrom_ascii h hbyte rest
  | cons first content ih =>
      rw [List.cons_append, decodeFrom_cons, decodeFrom_cons, ih (decodeByte_decoded h first.toNat).sound,
        List.append_assoc]

/-- Bytes without a line end decode to characters that are none. -/
theorem decodeFrom_oneLine {pending : Pending} (h : PendingSound pending) {content : Bytes} (hcontent : OneLine content) :
    ∀ char ∈ decodeFrom pending content, char ≠ '\n' ∧ char ≠ '\r' := by
  induction content generalizing pending with
  | nil =>
      intro char hmem
      have hflushed : char ∈ flushed pending := hmem
      unfold flushed at hflushed
      split at hflushed
      · rw [List.mem_singleton.mp hflushed]
        decide
      · exact absurd hflushed List.not_mem_nil
  | cons byte content ih =>
      have hdecoded := decodeByte_decoded h byte.toNat
      have hrest : OneLine content := ⟨fun hmem => hcontent.1 (.tail _ hmem), fun hmem => hcontent.2 (.tail _ hmem)⟩
      intro char hmem
      rw [decodeFrom_cons] at hmem
      rcases List.mem_append.mp hmem with hmem | hmem
      · by_cases hascii : byte.toNat < 128
        · rw [hdecoded.ascii hascii] at hmem
          rcases List.mem_append.mp hmem with hmem | hmem
          · unfold flushed at hmem
            split at hmem
            · rw [List.mem_singleton.mp hmem]
              decide
            · exact absurd hmem List.not_mem_nil
          · have hall : ∀ number : Fin 128, number.val ≠ 10 → number.val ≠ 13 →
                Char.ofNat number ≠ '\n' ∧ Char.ofNat number ≠ '\r' := by decide
            rw [List.mem_singleton.mp hmem]
            refine hall ⟨byte.toNat, hascii⟩ (fun heq => hcontent.1 ?_) fun heq => hcontent.2 ?_
            · rw [← UInt8.toNat_inj.mp (show byte.toNat = (10 : UInt8).toNat from heq)]
              exact .head _
            · rw [← UInt8.toNat_inj.mp (show byte.toNat = (13 : UInt8).toNat from heq)]
              exact .head _
        · exact hdecoded.other (Nat.le_of_not_lt hascii) char hmem
      · exact ih hdecoded.sound hrest char hmem

/-- The decoded text starts with a line feed only where the bytes do. -/
theorem head?_decodeFrom {pending : Pending} (h : PendingSound pending) {raw : Bytes}
    (hraw : pending = none → raw.head? ≠ some 10) : (decodeFrom pending raw).head? ≠ some '\n' := by
  induction raw generalizing pending with
  | nil =>
      show (flushed pending).head? ≠ some '\n'
      unfold flushed
      split
      · decide
      · nofun
  | cons byte rest ih =>
      have hdecoded := decodeByte_decoded h byte.toNat
      rw [decodeFrom_cons]
      by_cases hsilent : (decodeByte pending byte.toNat).1 = []
      · rw [hsilent, List.nil_append]
        refine ih hdecoded.sound fun hnone => ?_
        have hsome := hdecoded.silent hsilent
        rw [hnone] at hsome
        cases hsome
      · obtain ⟨char, chars, hchars⟩ := List.exists_cons_of_ne_nil hsilent
        rw [hchars, List.cons_append, List.head?_cons]
        intro heq
        cases heq
        by_cases hascii : byte.toNat < 128
        · rw [hdecoded.ascii hascii] at hchars
          cases hpending : pending with
          | some open_ =>
              rw [hpending] at hchars
              cases hchars
          | none =>
              rw [hpending] at hchars
              have hall : ∀ number : Fin 128, Char.ofNat number = '\n' → number.val = 10 := by decide
              have hten := hall ⟨byte.toNat, hascii⟩ (List.cons.inj hchars).1
              exact hraw hpending (congrArg some (UInt8.toNat_inj.mp hten))
        · exact (hdecoded.other (Nat.le_of_not_lt hascii) '\n' (by rw [hchars]; exact .head _)).1 rfl

/-- Bytes are not lost. -/
theorem eq_nil_of_decodeFrom {pending : Pending} (h : PendingSound pending) {raw : Bytes}
    (hnil : decodeFrom pending raw = []) : raw = [] ∧ pending = none := by
  induction raw generalizing pending with
  | nil =>
      have hflushed : flushed pending = [] := hnil
      cases pending with
      | none => exact ⟨rfl, rfl⟩
      | some open_ => cases hflushed
  | cons byte rest ih =>
      have hdecoded := decodeByte_decoded h byte.toNat
      rw [decodeFrom_cons] at hnil
      obtain ⟨hsilent, hrest⟩ := List.append_eq_nil_iff.mp hnil
      have hsome := hdecoded.silent hsilent
      rw [(ih hdecoded.sound hrest).2] at hsome
      cases hsome

/-! ## Lines of the text -/

/-- A carriage return ends a line that no line feed follows. -/
theorem splitlines_append_cr {line rest : List Char} (hline : ∀ char ∈ line, char ≠ '\r') (hrest : rest.head? ≠ some '\n') :
    Text.splitlines (line ++ '\r' :: rest) = Text.splitlines (line ++ ['\r']) ++ Text.splitlines rest := by
  induction line with
  | nil =>
      rw [List.nil_append, List.nil_append, Text.splitlines_cons fun h => hrest h.2]
      rfl
  | cons char line ih =>
      have hchar : char ≠ '\r' := hline char (.head _)
      rw [List.cons_append, List.cons_append, Text.splitlines_cons fun h => hchar h.1,
        Text.splitlines_cons fun h => hchar h.1, ih fun other hmem => hline other (.tail _ hmem)]
      split
      · rfl
      · exact Text.pushFront_append _ (Text.splitlines_ne_nil (by simp)) _

/-- A physical line is decoded apart from what follows it. -/
theorem decodeFrom_line (content : Bytes) {ending : Bytes} (hending : ending ∈ lineEnds) (rest : Bytes) :
    decodeFrom none (content ++ ending ++ rest) =
      decodeFrom none content ++ (ending.map fun byte => Char.ofNat byte.toNat) ++ decodeFrom none rest := by
  simp only [lineEnds, List.mem_cons, List.not_mem_nil, or_false] at hending
  rcases hending with rfl | rfl | rfl
  · rw [List.append_assoc, List.singleton_append, decodeFrom_append_ascii pendingSound_none content (by decide)]
    simp
  · rw [List.append_assoc, List.singleton_append, decodeFrom_append_ascii pendingSound_none content (by decide)]
    simp
  · have hlf := decodeFrom_append_ascii pendingSound_none [] (show (10 : UInt8).toNat < 128 by decide) rest
    rw [List.append_assoc, List.cons_append, decodeFrom_append_ascii pendingSound_none content (by decide),
      List.singleton_append, ← List.nil_append (10 :: rest), hlf]
    simp [decodeFrom]

theorem textLines_line {content ending : Bytes} (hcontent : OneLine content) (hending : ending ∈ lineEnds) {rest : Bytes}
    (hreturn : ending = [13] → rest.head? ≠ some 10) :
    textLines (content ++ ending ++ rest) = textLines (content ++ ending) ++ textLines rest := by
  have hline := decodeFrom_line content hending []
  rw [List.append_nil] at hline
  have hnone : decodeFrom none [] = [] := rfl
  unfold textLines
  rw [decodeFrom_line content hending, hline, hnone, List.append_nil]
  simp only [lineEnds, List.mem_cons, List.not_mem_nil, or_false] at hending
  rcases hending with rfl | rfl | rfl
  · rw [List.append_assoc]
    exact Text.splitlines_append_lf _ _
  · have hchars := decodeFrom_oneLine pendingSound_none hcontent
    rw [List.append_assoc]
    exact splitlines_append_cr (fun char hchar => (hchars char hchar).2)
      (head?_decodeFrom pendingSound_none fun _ => hreturn rfl)
  · have hsplit := Text.splitlines_append_lf (decodeFrom none content ++ ['\r']) (decodeFrom none rest)
    simpa using hsplit

/-- The lines of the text lie in the physical lines. -/
theorem InLines.textLines_flatten {lines : List Bytes} (h : InLines lines) :
    textLines lines.flatten = lines.flatMap textLines := by
  induction h with
  | nil => rfl
  | last hcontent hne => simp
  | cons hcontent hending hreturn hrest ih =>
      rw [List.flatten_cons, textLines_line hcontent hending hreturn, ih, List.flatMap_cons]

/-- Each line boundary in front of the end of a physical line starts another line. -/
theorem length_splitlines_ended {line ending : List Char} (hline : ∀ char ∈ line, char ≠ '\n' ∧ char ≠ '\r')
    (hending : (Text.splitlines ending).length = 1) :
    (Text.splitlines (line ++ ending)).length = line.countP Text.isLineBreak + 1 := by
  induction line with
  | nil => rw [List.nil_append, hending, List.countP_nil]
  | cons char line ih =>
      have hrest := ih fun other hmem => hline other (.tail _ hmem)
      have hreturn : ¬ (char = '\r' ∧ (line ++ ending).head? = some '\n') := fun h => (hline char (.head _)).2 h.1
      rw [List.cons_append, Text.splitlines_cons hreturn]
      split
      · rename_i hbreak
        rw [List.length_cons, hrest, List.countP_cons_of_pos hbreak]
      · rename_i hbreak
        obtain ⟨first, lines, hlines⟩ := List.exists_cons_of_length_pos (by rw [hrest]; omega)
        rw [List.countP_cons_of_neg hbreak, ← hrest, hlines]
        rfl

/-- A last line without an end is one line of the text if no line boundary has text behind it. -/
theorem length_splitlines_last {line : List Char} (hline : ∀ char ∈ line, char ≠ '\n' ∧ char ≠ '\r') (hne : line ≠ []) :
    (Text.splitlines line).length = 1 ↔ driftFree line = true := by
  induction line with
  | nil => exact absurd rfl hne
  | cons char line ih =>
      obtain ⟨hlf, hcr⟩ := hline char (.head _)
      have hreturn : ¬ (char = '\r' ∧ line.head? = some '\n') := fun h => hcr h.1
      rw [Text.splitlines_cons hreturn]
      cases hrest : line with
      | nil =>
          have hone : (if Text.isLineBreak char then [] :: Text.splitlines [] else
              Text.pushFront char (Text.splitlines [])).length = 1 := by split <;> rfl
          simp [hone, driftFree]
      | cons next rest =>
          have hcons : line ≠ [] := hrest ▸ List.cons_ne_nil next rest
          have hlater := ih (fun other hmem => hline other (.tail _ hmem)) hcons
          obtain ⟨first, lines, hlines⟩ := List.exists_cons_of_ne_nil (Text.splitlines_ne_nil hcons)
          rw [← hrest, driftFree, hlines]
          split
          · rename_i hbreak
            simp [hbreak, hlf, hcr, hcons]
          · rename_i hbreak
            rw [hlines] at hlater
            rw [Bool.not_eq_true] at hbreak
            rw [hbreak]
            simpa [Text.pushFront] using hlater

/-! ## Agreement -/

theorem driftFree_append {first rest : List Char} (hne : rest ≠ []) :
    driftFree (first ++ rest) =
      ((first.all fun char => !Text.isLineBreak char || char = '\n' || char = '\r') && driftFree rest) := by
  induction first with
  | nil => rfl
  | cons char first ih =>
      have hbehind : first ++ rest ≠ [] := by simp [hne]
      rw [List.cons_append, driftFree, ih, decide_eq_false hbehind, Bool.or_false, List.all_cons, Bool.and_assoc]

/-- A physical line with an end. -/
theorem driftFree_line {content ending : Bytes} (hcontent : OneLine content) (hending : ending ∈ lineEnds)
    (rest : Bytes) :
    driftFree (decodeFrom none (content ++ ending ++ rest)) = true ↔
      (textLines (content ++ ending)).length = 1 ∧ driftFree (decodeFrom none rest) = true := by
  have hchars := decodeFrom_oneLine pendingSound_none hcontent
  have hends : ∀ ending ∈ lineEnds, (Text.splitlines (ending.map fun byte => Char.ofNat byte.toNat)).length = 1 ∧
      (ending.map fun byte => Char.ofNat byte.toNat) ≠ [] ∧
        ((ending.map fun byte => Char.ofNat byte.toNat).all fun char => char = '\n' || char = '\r') = true := by decide
  obtain ⟨hlength, hne, hreturns⟩ := hends ending hending
  have hline := decodeFrom_line content hending []
  rw [List.append_nil] at hline
  have hnone : decodeFrom none [] = [] := rfl
  have hcount : (textLines (content ++ ending)).length = (decodeFrom none content).countP Text.isLineBreak + 1 := by
    unfold textLines
    rw [hline, hnone, List.append_nil, length_splitlines_ended hchars hlength]
  have hall : ((decodeFrom none content).all fun char => !Text.isLineBreak char || char = '\n' || char = '\r') = true ↔
      (decodeFrom none content).countP Text.isLineBreak = 0 := by
    rw [List.countP_eq_zero, List.all_eq_true]
    refine forall₂_congr fun char hmem => ?_
    obtain ⟨hlf, hcr⟩ := hchars char hmem
    simp [hlf, hcr]
  have hend : driftFree ((ending.map fun byte => Char.ofNat byte.toNat) ++ decodeFrom none rest) =
      driftFree (decodeFrom none rest) := by
    generalize ending.map (fun byte => Char.ofNat byte.toNat) = chars at hreturns
    induction chars with
    | nil => rfl
    | cons char chars ih =>
        rw [List.all_cons, Bool.and_eq_true, Bool.or_eq_true, decide_eq_true_eq, decide_eq_true_eq] at hreturns
        obtain ⟨hchar, hrest⟩ := hreturns
        rw [List.cons_append, driftFree, ih hrest]
        rcases hchar with rfl | rfl <;> simp
  rw [decodeFrom_line content hending, List.append_assoc, driftFree_append (by simp [hne]), hend, hcount,
    Bool.and_eq_true, hall]
  exact and_congr_left' (by omega)

theorem InLines.driftFree_iff {lines : List Bytes} (h : InLines lines) :
    driftFree (decodeFrom none lines.flatten) = true ↔ ∀ line ∈ lines, (textLines line).length = 1 := by
  induction h with
  | nil => exact ⟨fun _ => nofun, fun _ => rfl⟩
  | @last content hcontent hne =>
      have hdecoded : decodeFrom none content ≠ [] := fun hnil => hne (eq_nil_of_decodeFrom pendingSound_none hnil).1
      rw [List.flatten_cons, List.flatten_nil, List.append_nil, List.forall_mem_singleton]
      exact (length_splitlines_last (decodeFrom_oneLine pendingSound_none hcontent) hdecoded).symm
  | cons hcontent hending hreturn hrest ih =>
      rw [List.flatten_cons, driftFree_line hcontent hending, ih, List.forall_mem_cons]

/-- The lines of the markers and of the activity are the physical lines. -/
theorem InLines.length_splitLines {lines : List Bytes} (h : InLines lines) :
    (splitLines lines.flatten).length = lines.length := by
  rw [splitLines_eq, List.length_map, h.lineRanges_flatten]

/-- The three accountings agree on every line if and only if no line boundary of the decoded transcript but a line feed
and a carriage return has text behind it. -/
theorem line_numbers_agree_iff (transcript : Bytes) :
    LineNumbersAgree transcript ↔ driftFree (decodeFrom none transcript) = true := by
  obtain ⟨hlines, hflatten⟩ := lineRanges_inLines transcript
  generalize hranges : lineRanges transcript = lines at hlines hflatten
  subst hflatten
  rw [hlines.driftFree_iff]
  unfold LineNumbersAgree
  rw [hranges]
  constructor
  · intro hagree line hmem
    obtain ⟨before, after, rfl⟩ := List.append_of_mem hmem
    obtain ⟨-, hline, -⟩ := hlines.cut
    have hlength := congrArg List.length (hagree before line after rfl).1
    have hone := hline.length_splitLines
    rw [List.flatten_cons, List.flatten_nil, List.append_nil] at hone
    unfold numbersIn at hlength
    rw [List.length_range', List.length_range', hone] at hlength
    exact hlength
  · rintro hone before line after rfl
    obtain ⟨hbefore, hline, -⟩ := hlines.cut
    have htext : (textLines before.flatten).length = before.length := by
      rw [hbefore.textLines_flatten, List.length_flatMap]
      have hmap : before.map (fun line => (textLines line).length) = before.map fun _ => 1 :=
        List.map_congr_left fun other hmem => hone other (List.mem_append_left _ hmem)
      rw [hmap]
      simp
    have hself : [line].flatten = line := by simp
    have hsplit := hline.length_splitLines
    have hrange := hline.lineRanges_flatten
    rw [hself] at hsplit hrange
    unfold numbersIn
    rw [htext, hbefore.length_splitLines, hbefore.lineRanges_flatten, hrange, hsplit,
      hone line (List.mem_append_right _ (.head _))]
    exact ⟨rfl, rfl⟩

/-- A form feed inside a line shifts the line behind it. -/
theorem form_feed_shifts : ¬ LineNumbersAgree (utf8 "page\x0cbreak\nFailure \"TAC\"\n") := by
  rw [line_numbers_agree_iff]
  decide +kernel

end Hearth.Diagnostics
