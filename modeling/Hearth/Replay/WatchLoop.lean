import Mathlib.Data.Int.Notation
import Mathlib.Data.List.Basic

/-!
# The watch loop

`main` of `cli/prove_loop.py`: a loop that polls the revision of a source and its dependencies, and starts a recorded
check where the same unchecked revision was seen before.  What an attempt checked is read off the newest receipt below
the watch root; where this records no closure, the revision is taken at which the attempt was started.

A round is a function of what it looks at, so edits, attempts and their receipts may fall anywhere between two rounds.
-/

namespace Hearth.Replay

/-! ## One round -/

/-- What the loop reads of a receipt. -/
structure WatchReceipt where
  source : Option String
  closure : Option String
  deriving DecidableEq, Repr

/-- A candidate of `_replay_receipt`; `replay` is whether it has the schema of a replay receipt. -/
structure ReceiptFile where
  path : String
  mtime : ℕ
  replay : Bool
  receipt : WatchReceipt
  deriving DecidableEq, Repr

/-- `_replay_receipt`: the first of the newest. -/
def replayReceipt (files : List ReceiptFile) : Option ReceiptFile :=
  (files.filter ReceiptFile.replay).foldl
    (fun newest file =>
      match newest with
      | none => some file
      | some newest => if newest.mtime < file.mtime then some file else some newest)
    none

/-- What a round looks at: `exit` is what `poll` answers where a process runs. -/
structure WatchLook where
  revision : String
  exit : Option ℤ
  files : List ReceiptFile
  deriving DecidableEq, Repr

/-- The variables of the loop; `running` is whether `process` is set. -/
structure WatchLoop where
  running : Bool
  lastAttempt : Option String
  pending : Option String
  launched : Option String
  previousReceipt : Option String
  changed : Bool
  deriving DecidableEq, Repr

/-- What the loop prints. -/
inductive WatchMessage
  | changed | stale | checking
  | current (accepted : Bool)
  deriving DecidableEq, Repr

namespace WatchLoop

/-- The loop before its first round. -/
def initial : WatchLoop where
  running := false
  lastAttempt := none
  pending := none
  launched := none
  previousReceipt := none
  changed := false

variable (source : String) (loop : WatchLoop) (look : WatchLook)

/-- The closure identity that the receipt of a finished attempt records of this source. -/
def recorded : Option String :=
  match replayReceipt look.files with
  | none => none
  | some file =>
      if some file.path = loop.previousReceipt then none
      else if file.receipt.source = some source then file.receipt.closure.filter fun closure => closure ≠ ""
      else none

/-- One round of the loop. -/
def round : WatchLoop × List WatchMessage :=
  if loop.running then
    let notices := some look.revision ≠ loop.launched ∧ loop.changed = false
    let noticed := if notices then [WatchMessage.changed] else []
    let changed := decide notices || loop.changed
    match look.exit with
    | none => ({ loop with changed := changed }, noticed)
    | some status =>
        let lastAttempt := (loop.recorded source look).or loop.launched
        ({ loop with running := false, lastAttempt := lastAttempt, pending := none, changed := changed },
          noticed ++ [if some look.revision ≠ lastAttempt then .stale else .current (status = 0)])
  else if some look.revision ≠ loop.lastAttempt then
    if loop.pending = some look.revision then
      ({ loop with
          running := true
          launched := some look.revision
          previousReceipt := (replayReceipt look.files).map ReceiptFile.path
          changed := false }, [.checking])
    else ({ loop with pending := some look.revision }, [])
  else (loop, [])

end WatchLoop

/-! ## Rounds -/

section

variable (source : String) (looks : ℕ → WatchLook)

/-- The loop in front of a round. -/
def watchAt : ℕ → WatchLoop
  | 0 => .initial
  | round + 1 => ((watchAt round).round source (looks round)).1

/-- What a round prints. -/
def printedAt (round : ℕ) : List WatchMessage :=
  ((watchAt source looks round).round source (looks round)).2

/-- The round starts an attempt. -/
def LaunchesAt (round : ℕ) : Prop :=
  (watchAt source looks round).running = false ∧ (watchAt source looks (round + 1)).running = true

/-- The attempt that was started in the first round is found finished in the second. -/
structure Attempted (first last : ℕ) : Prop where
  launches : LaunchesAt source looks first
  before : first < last
  running : ∀ round, first < round → round ≤ last → (watchAt source looks round).running = true
  finished : (looks last).exit.isSome = true

/-- The identity that the attempt found finished in a round has recorded. -/
def recordedAt (round : ℕ) : Option String :=
  (watchAt source looks round).recorded source (looks round)

end

section

variable {source : String} {looks : ℕ → WatchLook} {round first last : ℕ}

/-- A running attempt that did not exit goes on. -/
theorem watchAt_running (hrunning : (watchAt source looks round).running = true) (hexit : (looks round).exit = none) :
    (watchAt source looks (round + 1)).running = true ∧
      (watchAt source looks (round + 1)).launched = (watchAt source looks round).launched := by
  rw [watchAt, WatchLoop.round, if_pos hrunning]
  dsimp only
  rw [hexit]
  exact ⟨hrunning, rfl⟩

/-- A running attempt that exited is accounted for. -/
theorem watchAt_finished (hrunning : (watchAt source looks round).running = true)
    (hexit : (looks round).exit.isSome = true) :
    (watchAt source looks (round + 1)).running = false ∧
      (watchAt source looks (round + 1)).lastAttempt =
        (recordedAt source looks round).or (watchAt source looks round).launched := by
  obtain ⟨status, hstatus⟩ := Option.isSome_iff_exists.mp hexit
  rw [watchAt, WatchLoop.round, if_pos hrunning]
  dsimp only
  rw [hstatus]
  exact ⟨rfl, rfl⟩

/-- A round without an attempt, by what it does. -/
theorem watchAt_idle (hrunning : (watchAt source looks round).running = false) :
    some (looks round).revision = (watchAt source looks round).lastAttempt ∧
        watchAt source looks (round + 1) = watchAt source looks round ∨
      some (looks round).revision ≠ (watchAt source looks round).lastAttempt ∧
        ((watchAt source looks round).pending = some (looks round).revision ∧
            (watchAt source looks (round + 1)).running = true ∧
            (watchAt source looks (round + 1)).launched = some (looks round).revision ∨
          (watchAt source looks (round + 1)).running = false ∧
            (watchAt source looks (round + 1)).lastAttempt = (watchAt source looks round).lastAttempt ∧
            (watchAt source looks (round + 1)).pending = some (looks round).revision) := by
  have hnot : ¬ (watchAt source looks round).running = true := by simp [hrunning]
  rw [watchAt, WatchLoop.round, if_neg hnot]
  by_cases hchecked : some (looks round).revision ≠ (watchAt source looks round).lastAttempt
  · rw [if_pos hchecked]
    by_cases hpending : (watchAt source looks round).pending = some (looks round).revision
    · rw [if_pos hpending]
      exact .inr ⟨hchecked, .inl ⟨hpending, rfl, rfl⟩⟩
    · rw [if_neg hpending]
      exact .inr ⟨hchecked, .inr ⟨hrunning, rfl, rfl⟩⟩
  · rw [if_neg hchecked]
    exact .inl ⟨not_not.mp hchecked, rfl⟩

/-- A launch is of a revision that is not checked yet and is remembered. -/
theorem launchesAt_cases (h : LaunchesAt source looks round) :
    some (looks round).revision ≠ (watchAt source looks round).lastAttempt ∧
      (watchAt source looks (round + 1)).launched = some (looks round).revision := by
  rcases watchAt_idle h.1 with ⟨-, hsame⟩ | ⟨hchecked, ⟨-, -, hlaunched⟩ | ⟨hrunning, -⟩⟩
  · have hrunning := h.2
    rw [hsame, h.1] at hrunning
    cases hrunning
  · exact ⟨hchecked, hlaunched⟩
  · rw [h.2] at hrunning
    cases hrunning

/-- A running attempt was started in some round, and has been running since. -/
theorem exists_launch (hrunning : (watchAt source looks round).running = true) :
    ∃ first < round, LaunchesAt source looks first ∧
      (∀ other, first < other → other ≤ round → (watchAt source looks other).running = true) ∧
      (watchAt source looks round).launched = some (looks first).revision := by
  induction round with
  | zero => cases hrunning
  | succ round ih =>
      cases hbefore : (watchAt source looks round).running with
      | false =>
          have hlaunch : LaunchesAt source looks round := ⟨hbefore, hrunning⟩
          refine ⟨round, Nat.lt_succ_self _, hlaunch, ?_, (launchesAt_cases hlaunch).2⟩
          intro other hlow hhigh
          obtain rfl : other = round + 1 := by omega
          exact hrunning
      | true =>
          have hexit : (looks round).exit = none := by
            by_contra hexit
            have hfinished := (watchAt_finished hbefore (Option.isSome_iff_ne_none.mpr hexit)).1
            rw [hrunning] at hfinished
            cases hfinished
          obtain ⟨first, hfirst, hlaunch, hsince, hlaunched⟩ := ih hbefore
          refine ⟨first, Nat.lt_succ_of_lt hfirst, hlaunch, ?_, (watchAt_running hbefore hexit).2.trans hlaunched⟩
          intro other hlow hhigh
          rcases Nat.lt_or_eq_of_le hhigh with hother | rfl
          · exact hsince other hlow (Nat.le_of_lt_succ hother)
          · exact hrunning

/-- The revision that a running attempt was started at. -/
theorem launched_of_running (hlaunch : LaunchesAt source looks first) (hbefore : first < last)
    (hsince : ∀ round, first < round → round ≤ last → (watchAt source looks round).running = true) :
    (watchAt source looks last).launched = some (looks first).revision := by
  obtain ⟨other, hother, hlaunched, hrunning, heq⟩ := exists_launch (hsince last hbefore (Nat.le_refl _))
  have hsame : other = first := by
    rcases Nat.lt_trichotomy other first with hlt | heq | hgt
    · have hnot := hlaunch.1
      rw [hrunning first hlt (Nat.le_of_lt hbefore)] at hnot
      cases hnot
    · exact heq
    · have hnot := hlaunched.1
      rw [hsince other hgt (Nat.le_of_lt hother)] at hnot
      cases hnot
  rw [heq, hsame]

/-- Nothing runs, and the revision is the one that was checked last. -/
def WatchLoop.Settled (revision : String) (loop : WatchLoop) : Prop :=
  loop.running = false ∧ loop.lastAttempt = some revision

variable {start : ℕ} {revision : String}

theorem settled_succ (hrevision : (looks round).revision = revision)
    (h : (watchAt source looks round).Settled revision) : (watchAt source looks (round + 1)).Settled revision := by
  rcases watchAt_idle h.1 with ⟨-, hsame⟩ | ⟨hchecked, -⟩
  · rw [hsame]
    exact h
  · rw [hrevision, h.2] at hchecked
    exact absurd rfl hchecked

theorem settled_from (hquiet : ∀ round ≥ start, (looks round).revision = revision) (hround : start ≤ round)
    (h : (watchAt source looks round).Settled revision) {later : ℕ} (hlater : round ≤ later) :
    (watchAt source looks later).Settled revision := by
  induction hlater with
  | refl => exact h
  | step hle ih => exact settled_succ (hquiet _ (Nat.le_trans hround hle)) ih

/-- The first exit of a running attempt. -/
theorem exists_finish {delay : ℕ} (hrunning : (watchAt source looks round).running = true)
    (hexit : (looks (round + delay)).exit.isSome = true) :
    ∃ last ≥ round, (∀ other, round ≤ other → other ≤ last → (watchAt source looks other).running = true) ∧
      (looks last).exit.isSome = true := by
  induction delay generalizing round with
  | zero =>
      refine ⟨round, Nat.le_refl _, ?_, hexit⟩
      intro other hlow hhigh
      rw [Nat.le_antisymm hhigh hlow]
      exact hrunning
  | succ delay ih =>
      cases hnow : (looks round).exit with
      | some status =>
          refine ⟨round, Nat.le_refl _, ?_, by rw [hnow]; rfl⟩
          intro other hlow hhigh
          rw [Nat.le_antisymm hhigh hlow]
          exact hrunning
      | none =>
          have hnext := (watchAt_running hrunning hnow).1
          have hdelay : round + (delay + 1) = round + 1 + delay := by omega
          rw [hdelay] at hexit
          obtain ⟨last, hlast, hsince, hfinished⟩ := ih hnext hexit
          refine ⟨last, Nat.le_of_succ_le hlast, ?_, hfinished⟩
          intro other hlow hhigh
          rcases Nat.eq_or_lt_of_le hlow with rfl | hlt
          · exact hrunning
          · exact hsince other hlt hhigh

/-- What is assumed once the edits stopped: every round sees the revision, every attempt ends, and an attempt that is
started from then on records the closure identity of what it read, which is the revision, or none. -/
structure WatchQuiet (source : String) (looks : ℕ → WatchLook) (start : ℕ) (revision : String) : Prop where
  quiet : ∀ round ≥ start, (looks round).revision = revision
  exits : ∀ round ≥ start, (watchAt source looks round).running = true →
    ∃ delay, (looks (round + delay)).exit.isSome = true
  records : ∀ first ≥ start, ∀ last, Attempted source looks first last →
    recordedAt source looks last = none ∨ recordedAt source looks last = some revision

/-- An attempt that is started in the quiet settles the loop. -/
theorem settled_of_launch (h : WatchQuiet source looks start revision) (hfirst : start ≤ first)
    (hlaunch : LaunchesAt source looks first) :
    ∃ last > first, (∀ round, first < round → round ≤ last → (watchAt source looks round).running = true) ∧
      (watchAt source looks (last + 1)).Settled revision := by
  obtain ⟨delay, hexit⟩ := h.exits (first + 1) (Nat.le_succ_of_le hfirst) hlaunch.2
  obtain ⟨last, hlast, hsince, hfinished⟩ := exists_finish hlaunch.2 hexit
  have hrunning : ∀ round, first < round → round ≤ last → (watchAt source looks round).running = true :=
    fun round hlow hhigh => hsince round hlow hhigh
  refine ⟨last, hlast, hrunning, ?_⟩
  have hattempt : Attempted source looks first last := ⟨hlaunch, hlast, hrunning, hfinished⟩
  obtain ⟨hstopped, hattempted⟩ := watchAt_finished (hrunning last hlast (Nat.le_refl _)) hfinished
  refine ⟨hstopped, ?_⟩
  rw [hattempted, launched_of_running hlaunch hlast hrunning, h.quiet first hfirst]
  rcases h.records first hfirst last hattempt with hnone | hsome
  · rw [hnone]
    rfl
  · rw [hsome]
    rfl

/-- Without an attempt the loop is settled, or starts one within two rounds. -/
theorem settles_or_launches (h : WatchQuiet source looks start revision) (hround : start ≤ round)
    (hrunning : (watchAt source looks round).running = false) :
    (watchAt source looks round).Settled revision ∨ LaunchesAt source looks round ∨ LaunchesAt source looks (round + 1) := by
  rcases watchAt_idle hrunning with ⟨hchecked, -⟩ | ⟨hunchecked, ⟨-, hstarted, -⟩ | ⟨hidle, hlast, hpending⟩⟩
  · rw [h.quiet round hround] at hchecked
    exact .inl ⟨hrunning, hchecked.symm⟩
  · exact .inr (.inl ⟨hrunning, hstarted⟩)
  · -- The second look at the same revision starts the attempt.
    refine .inr (.inr ⟨hidle, ?_⟩)
    have hsame : (looks (round + 1)).revision = (looks round).revision := by
      rw [h.quiet (round + 1) (Nat.le_succ_of_le hround), h.quiet round hround]
    rcases watchAt_idle hidle with ⟨hchecked, -⟩ | ⟨-, ⟨-, hstarted, -⟩ | ⟨-, -, -⟩⟩
    · rw [hsame, hlast] at hchecked
      exact absurd hchecked hunchecked
    · exact hstarted
    · have hnot : ¬ (watchAt source looks (round + 1)).running = true := by simp [hidle]
      rw [watchAt, WatchLoop.round, if_neg hnot, hlast, hsame, if_pos hunchecked, if_pos hpending]

theorem exists_settled_of_idle (h : WatchQuiet source looks start revision) (hround : start ≤ round)
    (hrunning : (watchAt source looks round).running = false) :
    ∃ settled ≥ round, (watchAt source looks settled).Settled revision := by
  rcases settles_or_launches h hround hrunning with hsettled | hlaunch | hlaunch
  · exact ⟨round, Nat.le_refl _, hsettled⟩
  · obtain ⟨last, hlast, -, hsettled⟩ := settled_of_launch h hround hlaunch
    exact ⟨last + 1, by omega, hsettled⟩
  · obtain ⟨last, hlast, -, hsettled⟩ := settled_of_launch h (Nat.le_succ_of_le hround) hlaunch
    exact ⟨last + 1, by omega, hsettled⟩

/-- Behind a launch in the quiet, the attempt runs or the loop is settled. -/
theorem not_launchesAt_of_launch (h : WatchQuiet source looks start revision) (hfirst : start ≤ first)
    (hlaunch : LaunchesAt source looks first) (hround : first < round) : ¬ LaunchesAt source looks round := by
  obtain ⟨last, hlast, hrunning, hsettled⟩ := settled_of_launch h hfirst hlaunch
  intro hother
  rcases Nat.lt_or_ge last round with hlater | hearlier
  · have hstays := settled_from h.quiet (by omega) hsettled hlater
    have hchecked := (launchesAt_cases hother).1
    rw [h.quiet round (by omega), hstays.2] at hchecked
    exact hchecked rfl
  · have hnot := hother.1
    rw [hrunning round hround hearlier] at hnot
    cases hnot

end

/-- **When the edits stop, one more attempt settles the loop.**  From a round on, let every round see the same
revision, let every attempt end, and let each attempt that is started record this revision or none.  Then from some
round on nothing runs and the revision is the one that counts as checked, and there was at most one launch. -/
theorem watch_loop_settles {source : String} {looks : ℕ → WatchLook} {start : ℕ} {revision : String}
    (h : WatchQuiet source looks start revision) :
    (∃ settled ≥ start, ∀ round ≥ settled, (watchAt source looks round).Settled revision) ∧
      ∀ first ≥ start, ∀ other ≥ start, LaunchesAt source looks first → LaunchesAt source looks other →
        first = other := by
  refine ⟨?_, ?_⟩
  · have hidle : ∃ round ≥ start, (watchAt source looks round).running = false := by
      cases hrunning : (watchAt source looks start).running with
      | false => exact ⟨start, Nat.le_refl _, hrunning⟩
      | true =>
          obtain ⟨delay, hexit⟩ := h.exits start (Nat.le_refl _) hrunning
          obtain ⟨last, hlast, hsince, hfinished⟩ := exists_finish hrunning hexit
          exact ⟨last + 1, by omega, (watchAt_finished (hsince last hlast (Nat.le_refl _)) hfinished).1⟩
    obtain ⟨round, hround, hrunning⟩ := hidle
    obtain ⟨settled, hsettled, hstate⟩ := exists_settled_of_idle h hround hrunning
    refine ⟨settled, by omega, fun later hlater => ?_⟩
    exact settled_from h.quiet (by omega) hstate hlater
  · intro first hfirst other hother hlaunch hlaunch'
    rcases Nat.lt_trichotomy first other with hlt | heq | hgt
    · exact absurd hlaunch' (not_launchesAt_of_launch h hfirst hlaunch hlt)
    · exact heq
    · exact absurd hlaunch (not_launchesAt_of_launch h hother hlaunch' hgt)

/-- An attempt that ends in the round behind its launch, with a receipt. -/
def sampleLooks (round : ℕ) : WatchLook where
  revision := "closure"
  exit := some 0
  files := if round < 2 then [] else [⟨"transcript.log.json", 1, true, ⟨some "leaf.ml", some "closure"⟩⟩]

theorem watch_loop_settles_sample :
    (∃ settled ≥ 0, ∀ round ≥ settled, (watchAt "leaf.ml" sampleLooks round).Settled "closure") ∧
      (∀ first ≥ 0, ∀ other ≥ 0, LaunchesAt "leaf.ml" sampleLooks first → LaunchesAt "leaf.ml" sampleLooks other →
        first = other) ∧
      LaunchesAt "leaf.ml" sampleLooks 1 := by
  have hrecords : ∀ last, recordedAt "leaf.ml" sampleLooks last = none ∨
      recordedAt "leaf.ml" sampleLooks last = some "closure" := by
    intro last
    unfold recordedAt WatchLoop.recorded sampleLooks
    by_cases hearly : last < 2
    · rw [if_pos hearly]
      exact .inl rfl
    · rw [if_neg hearly]
      dsimp only [replayReceipt, List.filter, List.foldl]
      split
      · exact .inl rfl
      · exact .inr rfl
  obtain ⟨hsettles, honce⟩ := @watch_loop_settles "leaf.ml" sampleLooks 0 "closure"
    ⟨fun _ _ => rfl, fun _ _ _ => ⟨0, rfl⟩, fun _ _ last _ => hrecords last⟩
  exact ⟨hsettles, honce, rfl, rfl⟩

end Hearth.Replay
