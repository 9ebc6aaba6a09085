import Mathlib.Data.List.Basic
import Mathlib.Tactic.Common

/-!
# Incremental decoding

A decoder reads one value off the front of a stream, or says that it needs more of
the stream, or that the stream is wrong.  Two readers use it.  The first has the whole
stream.  The second receives the stream in pieces of any size, with timeouts between
them, and keeps what it has not decoded yet.

A decoder decides from a prefix: what it makes of some units does not change when more
units follow.  From this alone the two readers produce the same values and the same
first failure, however the stream is cut.
-/

namespace Hearth.Library

variable {α β ε : Type*}

/-- What a decoder makes of the units at hand. -/
inductive Parse (α β ε : Type*)
  | more
  | failed (error : ε)
  | done (value : β) (rest : List α)

/-- A decoder that decides from a prefix and consumes something for each value. -/
structure Decoder (α β ε : Type*) where
  next : List α → Parse α β ε
  next_nil : next [] = .more
  done_append : ∀ {units value rest} (later : List α),
    next units = .done value rest → next (units ++ later) = .done value (rest ++ later)
  failed_append : ∀ {units error} (later : List α),
    next units = .failed error → next (units ++ later) = .failed error

/-- One answer of a receiving socket; a piece is never empty. -/
inductive Recv (α : Type*)
  | chunk (head : α) (tail : List α)
  | timeout
  deriving DecidableEq, Repr

/-- What one call of a reader gives its caller. -/
inductive Outcome (β ε : Type*)
  | value (value : β)
  | failed (error : ε)
  | ended
  deriving DecidableEq, Repr

namespace Recv

/-- The units of one answer. -/
def units : Recv α → List α
  | .chunk head tail => head :: tail
  | .timeout => []

/-- The stream that was cut into these answers. -/
def stream (answers : List (Recv α)) : List α :=
  answers.flatMap units

/-- How often the socket timed out. -/
def timeouts (answers : List (Recv α)) : ℕ :=
  answers.countP fun
    | .chunk _ _ => false
    | .timeout => true

@[simp] theorem stream_nil : stream ([] : List (Recv α)) = [] := rfl

@[simp] theorem stream_chunk (head : α) (tail : List α) (answers : List (Recv α)) :
    stream (.chunk head tail :: answers) = head :: tail ++ stream answers := rfl

@[simp] theorem stream_timeout (answers : List (Recv α)) :
    stream (.timeout :: answers) = stream answers := rfl

@[simp] theorem timeouts_nil : timeouts ([] : List (Recv α)) = 0 := rfl

@[simp] theorem timeouts_chunk (head : α) (tail : List α) (answers : List (Recv α)) :
    timeouts (.chunk head tail :: answers) = timeouts answers := rfl

@[simp] theorem timeouts_timeout (answers : List (Recv α)) :
    timeouts (.timeout :: answers) = timeouts answers + 1 := by
  simp [timeouts]

end Recv

namespace Decoder

variable (decoder : Decoder α β ε)

/-- The outcomes of that many calls on a whole stream.  A failure is the last outcome;
a stream that has ended answers so again and again. -/
def calls : ℕ → List α → List (Outcome β ε)
  | 0, _ => []
  | count + 1, units =>
      match decoder.next units with
      | .done value rest => .value value :: calls count rest
      | .failed error => [.failed error]
      | .more => .ended :: calls count units

/-- One call of the reader that keeps what it has received: the outcome, unless the
socket timed out first, what is kept, and the answers that are left. -/
def poll (kept : List α) : List (Recv α) → Option (Outcome β ε) × List α × List (Recv α)
  | [] =>
      match decoder.next kept with
      | .done value rest => (some (.value value), rest, [])
      | .failed error => (some (.failed error), kept, [])
      | .more => (some .ended, kept, [])
  | answer :: answers =>
      match decoder.next kept with
      | .done value rest => (some (.value value), rest, answer :: answers)
      | .failed error => (some (.failed error), kept, answer :: answers)
      | .more =>
          match answer with
          | .timeout => (none, kept, answers)
          | .chunk head tail => poll (kept ++ head :: tail) answers

/-- The outcomes of that many calls, without the timeouts, up to the first failure. -/
def polls : ℕ → List α → List (Recv α) → List (Outcome β ε)
  | 0, _, _ => []
  | count + 1, kept, answers =>
      match decoder.poll kept answers with
      | (none, kept, answers) => polls count kept answers
      | (some (.failed error), _, _) => [.failed error]
      | (some outcome, kept, answers) => outcome :: polls count kept answers

/-- What one call of the keeping reader says about the stream in front of it. -/
inductive Polled (kept : List α) (answers : List (Recv α)) :
    Option (Outcome β ε) × List α × List (Recv α) → Prop
  | value {value : β} {rest : List α} {left : List (Recv α)}
      (hnext : decoder.next (kept ++ Recv.stream answers) = .done value (rest ++ Recv.stream left))
      (htimeouts : Recv.timeouts left = Recv.timeouts answers) :
      Polled kept answers (some (.value value), rest, left)
  | failed {error : ε} {rest : List α} {left : List (Recv α)}
      (hnext : decoder.next (kept ++ Recv.stream answers) = .failed error) :
      Polled kept answers (some (.failed error), rest, left)
  | ended {rest : List α} (hnext : decoder.next (kept ++ Recv.stream answers) = .more)
      (hrest : rest = kept ++ Recv.stream answers) (htimeouts : Recv.timeouts answers = 0) :
      Polled kept answers (some .ended, rest, [])
  | timeout {rest : List α} {left : List (Recv α)}
      (hstream : rest ++ Recv.stream left = kept ++ Recv.stream answers)
      (htimeouts : Recv.timeouts left + 1 = Recv.timeouts answers) :
      Polled kept answers (none, rest, left)

theorem poll_polled (kept : List α) (answers : List (Recv α)) :
    decoder.Polled kept answers (decoder.poll kept answers) := by
  -- One call consumes the answers one by one, so the induction is on them.
  induction answers generalizing kept with
  | nil =>
      unfold poll
      cases hnext : decoder.next kept with
      | done value rest =>
          apply Polled.value
          · simpa using hnext
          · rfl
      | failed error =>
          apply Polled.failed
          simpa using hnext
      | more =>
          apply Polled.ended
          · simpa using hnext
          · simp
          · rfl
  | cons answer answers ih =>
      unfold poll
      cases hnext : decoder.next kept with
      | done value rest =>
          apply Polled.value
          · exact decoder.done_append _ hnext
          · rfl
      | failed error =>
          apply Polled.failed
          exact decoder.failed_append _ hnext
      | more =>
          cases answer with
          | timeout =>
              apply Polled.timeout
              · rfl
              · simp
          | chunk head tail =>
              have hstream : kept ++ Recv.stream (.chunk head tail :: answers) =
                  kept ++ head :: tail ++ Recv.stream answers := by
                simp
              have hcall := ih (kept ++ head :: tail)
              show decoder.Polled kept _ (decoder.poll (kept ++ head :: tail) answers)
              generalize decoder.poll (kept ++ head :: tail) answers = called at hcall ⊢
              cases hcall with
              | value hdone htimeouts => exact .value (hstream ▸ hdone) (by simpa using htimeouts)
              | failed hfailed => exact .failed (hstream ▸ hfailed)
              | ended hmore hrest htimeouts =>
                  exact .ended (hstream ▸ hmore) (hstream ▸ hrest) (by simpa using htimeouts)
              | timeout hsame htimeouts =>
                  exact .timeout (hstream ▸ hsame) (by simpa using htimeouts)

/-- **The keeping reader gives what the whole stream gives.**  Its outcomes are those of
as many calls on the whole stream, and only timeouts take calls without an outcome. -/
theorem polls_eq_calls (count : ℕ) (kept : List α) (answers : List (Recv α)) :
    ∃ n ≤ count,
      decoder.polls count kept answers = decoder.calls n (kept ++ Recv.stream answers) ∧
      ((∀ error, .failed error ∉ decoder.polls count kept answers) →
        (decoder.polls count kept answers).length = n ∧ count ≤ n + Recv.timeouts answers) := by
  induction count generalizing kept answers with
  | zero => exact ⟨0, Nat.le_refl 0, rfl, fun _ => ⟨rfl, Nat.zero_le _⟩⟩
  | succ count ih =>
      have hcall := decoder.poll_polled kept answers
      unfold polls
      generalize decoder.poll kept answers = called at hcall
      cases hcall with
      | @value value rest left hnext htimeouts =>
          obtain ⟨n, hle, heq, hlength⟩ := ih rest left
          refine ⟨n + 1, by omega, ?_, ?_⟩
          · simp only [calls, hnext, heq]
          · intro hclean
            obtain ⟨hn, hcount⟩ := hlength fun error hmem => hclean error (List.mem_cons_of_mem _ hmem)
            constructor
            · simp [hn]
            · omega
      | @failed error rest left hnext =>
          refine ⟨1, by omega, ?_, ?_⟩
          · simp only [calls, hnext]
          · intro hclean
            exact absurd (List.mem_singleton_self _) (hclean error)
      | @ended rest hnext hrest htimeouts =>
          obtain ⟨n, hle, heq, hlength⟩ := ih rest []
          have hstream : rest ++ Recv.stream [] = kept ++ Recv.stream answers := by
            simpa using hrest
          refine ⟨n + 1, by omega, ?_, ?_⟩
          · simp only [calls, hnext, heq, hstream]
          · intro hclean
            obtain ⟨hn, hcount⟩ := hlength fun error hmem => hclean error (List.mem_cons_of_mem _ hmem)
            simp only [Recv.timeouts_nil] at hcount
            constructor
            · simp [hn]
            · omega
      | @timeout rest left hstream htimeouts =>
          obtain ⟨n, hle, heq, hlength⟩ := ih rest left
          refine ⟨n, by omega, ?_, ?_⟩
          · rw [← hstream]
            exact heq
          · intro hclean
            obtain ⟨hn, hcount⟩ := hlength hclean
            exact ⟨hn, by omega⟩

/-- After a failure further calls change nothing. -/
theorem calls_of_failed {count more : ℕ} {units : List α} {error : ε}
    (h : .failed error ∈ decoder.calls count units)
    (hmore : (decoder.calls count units).length ≤ more) :
    decoder.calls more units = decoder.calls count units := by
  induction count generalizing units more with
  | zero => cases h
  | succ count ih =>
      unfold calls at h hmore ⊢
      cases hnext : decoder.next units with
      | done value rest =>
          simp only [hnext, List.mem_cons, reduceCtorEq, false_or, List.length_cons] at h hmore ⊢
          obtain ⟨more, rfl⟩ : ∃ fewer, more = fewer + 1 := ⟨more - 1, by omega⟩
          simp only [hnext]
          rw [ih h (by omega)]
      | failed error =>
          simp only [hnext, List.length_singleton] at hmore ⊢
          obtain ⟨more, rfl⟩ : ∃ fewer, more = fewer + 1 := ⟨more - 1, by omega⟩
          simp only [hnext]
      | more =>
          simp only [hnext, List.mem_cons, reduceCtorEq, false_or, List.length_cons] at h hmore ⊢
          obtain ⟨more, rfl⟩ : ∃ fewer, more = fewer + 1 := ⟨more - 1, by omega⟩
          simp only [hnext]
          rw [ih h (by omega)]

end Decoder

/-! ## Pieces -/

section Pieces

variable [BEq α] (separator : α)

/-- What is split off so far stays, and what is behind it is split with what follows. -/
theorem splitOn_append (units later : List α) :
    (units ++ later).splitOn separator =
      (units.splitOn separator).dropLast ++ ((units.splitOn separator).getLastD [] ++ later).splitOn separator := by
  induction units with
  | nil => simp
  | cons unit units ih =>
      obtain ⟨first, others, hsplit⟩ := List.exists_cons_of_ne_nil (List.splitOn_ne_nil separator units)
      rw [List.cons_append, List.splitOn_cons_eq_if_modifyHead, List.splitOn_cons_eq_if_modifyHead, ih, hsplit]
      split
      · rfl
      · rename_i hseparator
        cases others with
        | nil =>
            have hopen : ((unit :: first) ++ later).splitOn separator =
                ((first ++ later).splitOn separator).modifyHead (unit :: ·) := by
              rw [List.cons_append, List.splitOn_cons_eq_if_modifyHead, if_neg hseparator]
            simpa using hopen.symm
        | cons next others => rfl

/-- The pieces of a stream, and what is open behind the last of them. -/
def pieces (units : List α) : List (List α) × List α :=
  ((units.splitOn separator).dropLast, (units.splitOn separator).getLastD [])

theorem pieces_append (units later : List α) :
    pieces separator (units ++ later) =
      ((pieces separator units).1 ++ (pieces separator ((pieces separator units).2 ++ later)).1,
        (pieces separator ((pieces separator units).2 ++ later)).2) := by
  unfold pieces
  rw [splitOn_append separator units later]
  have hne := List.splitOn_ne_nil separator ((units.splitOn separator).getLastD [] ++ later)
  rw [List.dropLast_append_of_ne_nil hne]
  refine Prod.ext rfl ?_
  generalize ((units.splitOn separator).getLastD [] ++ later).splitOn separator = rows at hne ⊢
  obtain ⟨front, last, rfl⟩ := List.eq_nil_or_concat' rows |>.resolve_left hne
  rw [← List.append_assoc, List.getLastD_concat, List.getLastD_concat]

end Pieces

end Hearth.Library
