import Hearth.Closure.LogicalRoots
import Hearth.Diagnostics.Text
import Mathlib.Data.List.Infix

/-!
# Waiting for the child of an interrupted attempt

`wait_for_fork_attempt_cleanup` is written twice.  Both copies poll the registry of active
children until it has listed a child of the attempt and then lists none.  The copy of
`pools/fork_attempt_lifecycle.py` takes nothing but a well-formed registry for evidence; the
copy of `proof_run_warm_pool_interrupt.py`, which `cli/orbstack_criu_vanilla.py` calls, reads
an unreadable registry as an empty one and believes the transcript, which is the output of the
proof itself.

What the polls read is not for the code to choose: a call is given the polls that it makes
before its deadline and the one at which the deadline has passed.
-/

namespace Hearth.Pools

open Hearth.Library
open Hearth.Closure (str)
open Hearth.Diagnostics (intOf)

/-- `ACTIVE_CHILDREN_SCHEMA`. -/
def activeChildrenSchema : String := "proof-run.fork-active-children.v1"

/-- What a poll finds at the path of the registry. -/
inductive RegistryRead
  /-- No file, no UTF-8 text, or no JSON. -/
  | unreadable
  | value (data : Json)

/-- What one poll reads. -/
structure Poll where
  registry : RegistryRead
  /-- The text of the transcript, which is empty if it cannot be read. -/
  transcript : String

/-- `status` of the result. -/
inductive CleanupStatus
  | quiescent | survivors | unverified
  deriving DecidableEq, Repr

/-- What a look at the registry leads to. -/
inductive Looked
  | returned (status : CleanupStatus)
  /-- The `TypeError` of a `children` that cannot be iterated over. -/
  | raised
  | going (observed : Bool) (children : List Json)

/-- How a call ends, and the polls that it made. -/
structure CleanupResult where
  /-- `none` is an exception. -/
  status : Option CleanupStatus
  polls : List Poll

/-- The loop of both copies, from a state of `observed`. -/
def pollLoop (look : Bool → Poll → Looked) (observed : Bool) : List Poll → Poll → CleanupResult
  | [], last =>
      match look observed last with
      | .returned status => ⟨some status, [last]⟩
      | .raised => ⟨none, [last]⟩
      | .going _ children => ⟨some (if children = [] then .unverified else .survivors), [last]⟩
  | poll :: polls, last =>
      match look observed poll with
      | .returned status => ⟨some status, [poll]⟩
      | .raised => ⟨none, [poll]⟩
      | .going observed _ =>
          let result := pollLoop look observed polls last
          ⟨result.status, poll :: result.polls⟩

/-- Without `active_children_registry` no poll is made. -/
def cleanupOf (session : Json) (look : Bool → Poll → Looked) (polls : List Poll) (last : Poll) :
    CleanupResult :=
  if (session.get "active_children_registry").truthy then pollLoop look false polls last
  else ⟨some .unverified, []⟩

/-- One round of the loop of either copy: it reads the children of the attempt, and returns if
it believes that there are none any more. -/
def lookWith (read : RegistryRead → Option (List Json)) (believed : Poll → Bool) (failure : Looked)
    (observed : Bool) (poll : Poll) : Looked :=
  match read poll.registry with
  | none => failure
  | some children =>
      let observed := observed || !children.isEmpty
      if believed poll || (observed && children.isEmpty) then .returned .quiescent
      else .going observed children

section

variable (repr : Json → String) (attemptId : String)

/-- The row is a child of the attempt. -/
def isChildOfAttempt (child : Json) : Bool :=
  child.isDict && str repr ((child.get "attempt_id").orElse (.str "")) = attemptId

/-! ## `proof_run_warm_pool_interrupt.py` -/

namespace WarmPoolInterrupt

/-- `_attempt_children`; a registry that is no dictionary has no children. -/
def attemptChildren : RegistryRead → Option (List Json)
  | .unreadable => some []
  | .value data =>
      match data.get "children" with
      | .arr children => some (children.filter (isChildOfAttempt repr attemptId))
      -- The keys of a dictionary and the characters of a text are no rows.
      | .obj _ | .str _ | .null => some []
      | .int value => if value = 0 then some [] else none
      | .bool value => if value then none else some []

/-- `cancellation_quiescent`. -/
def cancellationQuiescent (poll : Poll) : Bool :=
  decide ("client_disconnected;".toList <:+: poll.transcript.toList) &&
    ["cleanup=quiescent", "cleanup=already_quiescent"].any fun marker =>
      decide (marker.toList <:+: poll.transcript.toList)

/-- `wait_for_fork_attempt_cleanup`. -/
def waitForForkAttemptCleanup (session : Json) (polls : List Poll) (last : Poll) : CleanupResult :=
  cleanupOf session (lookWith (attemptChildren repr attemptId)
    cancellationQuiescent .raised) polls last

end WarmPoolInterrupt

/-! ## `pools/fork_attempt_lifecycle.py` -/

namespace ForkAttemptLifecycle

/-- `int(str(child.get(key) or ""))`. -/
def intField (key : String) (child : Json) : Option ℤ :=
  intOf (str repr ((child.get key).orElse (.str ""))).toList

/-- A row that the registry may hold. -/
def isValidChild (child : Json) : Bool :=
  child.isDict &&
    match intField repr "pid" child, intField repr "pgid" child,
        intField repr "process_start_ticks" child with
    | some childPid, some childPgid, some childTicks =>
        (child.get "attempt_id").isStr && (child.get "attempt_id").truthy && 0 < childPid &&
          0 < childPgid && 0 < childTicks &&
          child.get "process_identity" =
            .str ("linux-proc:" ++ String.ofList (Json.renderInt childTicks))
    | _, _, _ => false

/-- The registry is of its schema, and every row of it is valid. -/
def isWellFormed : RegistryRead → Bool
  | .unreadable => false
  | .value data =>
      data.isDict && data.get "schema" = .str activeChildrenSchema && (data.get "children").isList &&
        (data.get "children").items.all (isValidChild repr)

/-- `_attempt_children`; `none` is a snapshot that is not valid. -/
def attemptChildren (registry : RegistryRead) : Option (List Json) :=
  match registry with
  | .unreadable => none
  | .value data =>
      if isWellFormed repr registry then
        some ((data.get "children").items.filter (isChildOfAttempt repr attemptId))
      else none

/-- `wait_for_fork_attempt_cleanup`: the transcript is no evidence, and a registry that is not
valid ends the wait. -/
def waitForForkAttemptCleanup (session : Json) (polls : List Poll) (last : Poll) : CleanupResult :=
  cleanupOf session (lookWith (attemptChildren repr attemptId) (fun _ => false)
    (.returned .unverified)) polls last

end ForkAttemptLifecycle

end

/-! ## Evidence -/

/-- Some of these polls read a child of the attempt. -/
def Seen (read : RegistryRead → Option (List Json)) (polls : List Poll) : Prop :=
  ∃ poll ∈ polls, ∃ child rest, read poll.registry = some (child :: rest)

/-- Behind these polls, this one reads that no child is left. -/
def Vacated (read : RegistryRead → Option (List Json)) (made : List Poll) (poll : Poll) : Prop :=
  Seen read made ∧ read poll.registry = some []

section

variable (repr : Json → String) (attemptId : String)

/-- Some poll reads a well-formed registry that lists a child of the attempt, and a later one
reads a well-formed registry that lists none. -/
def Justified (polls : List Poll) : Prop :=
  ∃ earlier poll later, polls = earlier ++ poll :: later ∧
    Vacated (ForkAttemptLifecycle.attemptChildren repr attemptId) earlier poll

/-- The poll at which the copy that reads the transcript takes the child for gone: the
transcript says so, or no child is read any more. -/
def Settles (made : List Poll) (poll : Poll) : Prop :=
  WarmPoolInterrupt.cancellationQuiescent poll = true ∨
    Vacated (WarmPoolInterrupt.attemptChildren repr attemptId) made poll

/-- Whenever the child is taken for gone, well-formed registries have shown that it is. -/
def Evidenced (polls : List Poll) : Prop :=
  ∀ made poll, made ++ [poll] <+: polls →
    (∀ one ∈ made ++ [poll], (WarmPoolInterrupt.attemptChildren repr attemptId one.registry).isSome) →
    Settles repr attemptId made poll → Justified repr attemptId (made ++ [poll])

end

/-! ## The loop -/

section

variable {read : RegistryRead → Option (List Json)} {believed : Poll → Bool} {failure : Looked}

theorem Seen.mono {polls more : List Poll} (h : Seen read polls) (hmore : ∀ poll ∈ polls, poll ∈ more) :
    Seen read more := by
  obtain ⟨poll, hpoll, hchildren⟩ := h
  exact ⟨poll, hmore poll hpoll, hchildren⟩

/-- What `observed` says behind one more poll. -/
theorem seen_append {past : List Poll} {observed : Bool} (hobserved : observed = true ↔ Seen read past)
    {poll : Poll} {children : List Json} (hread : read poll.registry = some children) :
    (observed || !children.isEmpty) = true ↔ Seen read (past ++ [poll]) := by
  rw [Bool.or_eq_true, hobserved]
  constructor
  · rintro (hseen | hchildren)
    · exact hseen.mono fun one hone => List.mem_append_left _ hone
    · cases children with
      | nil => cases hchildren
      | cons child rest => exact ⟨poll, List.mem_append_right _ (List.mem_singleton_self _), child, rest, hread⟩
  · rintro ⟨one, hone, child, rest, hchildren⟩
    rcases List.mem_append.mp hone with hpast | hpoll
    · exact .inl ⟨one, hpast, child, rest, hchildren⟩
    · rw [List.mem_singleton.mp hpoll, hread] at hchildren
      rw [Option.some.inj hchildren]
      exact .inr rfl

/-- What a look may lead to when the registry tells nothing. -/
def Looked.Fails (failure : Looked) : Prop :=
  failure = .raised ∨ failure = .returned .unverified

/-- What one round does behind the polls that have been made. -/
theorem lookWith_cases (believed : Poll → Bool) (failure : Looked) {past : List Poll} {observed : Bool}
    (hobserved : observed = true ↔ Seen read past) (poll : Poll) :
    (read poll.registry = none ∧ lookWith read believed failure observed poll = failure) ∨
      ((read poll.registry).isSome ∧ (believed poll = true ∨ Vacated read past poll) ∧
        lookWith read believed failure observed poll = .returned .quiescent) ∨
      ((read poll.registry).isSome ∧ ¬ (believed poll = true ∨ Vacated read past poll) ∧
        ∃ later children, lookWith read believed failure observed poll = .going later children ∧
          (later = true ↔ Seen read (past ++ [poll]))) := by
  unfold lookWith
  cases hread : read poll.registry with
  | none => exact .inl ⟨rfl, rfl⟩
  | some children =>
      have hends : (believed poll || ((observed || !children.isEmpty) && children.isEmpty)) = true ↔
          believed poll = true ∨ Vacated read past poll := by
        unfold Vacated
        rw [Bool.or_eq_true, hread, ← hobserved]
        cases children <;> simp
      right
      dsimp only
      by_cases h : believed poll = true ∨ Vacated read past poll
      · exact .inl ⟨rfl, h, if_pos (hends.mpr h)⟩
      · exact .inr ⟨rfl, h, _, _, if_neg fun hend => h (hends.mp hend), seen_append hobserved hread⟩

/-- The polls of a call are the first of those it is given. -/
theorem pollLoop_polls (look : Bool → Poll → Looked) (observed : Bool) (polls : List Poll) (last : Poll) :
    (pollLoop look observed polls last).polls <+: polls ++ [last] := by
  induction polls generalizing observed with
  | nil =>
      unfold pollLoop
      cases look observed last <;> exact List.prefix_rfl
  | cons poll polls ih =>
      unfold pollLoop
      cases look observed poll with
      | returned status => exact List.prefix_append [poll] _
      | raised => exact List.prefix_append [poll] _
      | going observed _ => exact (List.prefix_cons_inj poll).mpr (ih observed)

/-- A call that returns quiescent ends with a poll that it believes, or that finds the child
gone. -/
theorem pollLoop_quiescent (hfailure : failure.Fails) {past polls : List Poll} {last : Poll}
    {observed : Bool} (hobserved : observed = true ↔ Seen read past)
    (h : (pollLoop (lookWith read believed failure) observed polls last).status = some .quiescent) :
    ∃ made poll, (pollLoop (lookWith read believed failure) observed polls last).polls = made ++ [poll] ∧
      (∀ one ∈ made ++ [poll], (read one.registry).isSome) ∧
      (believed poll = true ∨ Vacated read (past ++ made) poll) := by
  induction polls generalizing past observed with
  | nil =>
      unfold pollLoop at h ⊢
      rcases lookWith_cases believed failure hobserved last with
        ⟨-, hlook⟩ | ⟨hread, hends, hlook⟩ | ⟨-, -, _, children, hlook, -⟩
      · rcases hfailure with rfl | rfl <;> simp [hlook] at h
      · refine ⟨[], last, by simp [hlook], ?_, by rwa [List.append_nil]⟩
        intro one hone
        rwa [List.mem_singleton.mp hone]
      · cases children <;> simp [hlook] at h
  | cons poll polls ih =>
      unfold pollLoop at h ⊢
      rcases lookWith_cases believed failure hobserved poll with
        ⟨-, hlook⟩ | ⟨hread, hends, hlook⟩ | ⟨hread, -, later, children, hlook, hlater⟩
      · rcases hfailure with rfl | rfl <;> simp [hlook] at h
      · refine ⟨[], poll, by simp [hlook], ?_, by rwa [List.append_nil]⟩
        intro one hone
        rwa [List.mem_singleton.mp hone]
      · simp only [hlook] at h ⊢
        obtain ⟨made, final, hmade, hreads, hends⟩ := ih hlater h
        refine ⟨poll :: made, final, by rw [hmade, List.cons_append], ?_, ?_⟩
        · intro one hone
          rcases List.mem_cons.mp hone with rfl | hone
          · exact hread
          · exact hreads one hone
        · rwa [List.append_assoc] at hends

/-- A round that returns ends the call. -/
theorem pollLoop_of_returned {look : Bool → Poll → Looked} {observed : Bool} {polls : List Poll}
    {poll last : Poll} {status : CleanupStatus} (hfirst : [poll] <+: polls ++ [last])
    (hlook : look observed poll = .returned status) :
    pollLoop look observed polls last = ⟨some status, [poll]⟩ := by
  cases polls with
  | nil =>
      obtain ⟨rfl, -⟩ := List.cons_prefix_cons.mp hfirst
      unfold pollLoop
      rw [hlook]
  | cons first polls =>
      obtain ⟨rfl, -⟩ := List.cons_prefix_cons.mp hfirst
      unfold pollLoop
      rw [hlook]

/-- Once a poll is believed, or finds the child gone, the call returns quiescent. -/
theorem pollLoop_of_ends (failure : Looked) {past made polls : List Poll} {poll last : Poll}
    {observed : Bool} (hobserved : observed = true ↔ Seen read past)
    (hinit : made ++ [poll] <+: polls ++ [last])
    (hreads : ∀ one ∈ made ++ [poll], (read one.registry).isSome)
    (hends : believed poll = true ∨ Vacated read (past ++ made) poll) :
    (pollLoop (lookWith read believed failure) observed polls last).status = some .quiescent ∧
      (pollLoop (lookWith read believed failure) observed polls last).polls <+: made ++ [poll] := by
  induction made generalizing past observed polls with
  | nil =>
      rw [List.append_nil] at hends
      rcases lookWith_cases believed failure hobserved poll with
        ⟨hnone, -⟩ | ⟨-, -, hlook⟩ | ⟨-, hgoing, -⟩
      · have hread := hreads poll (List.mem_singleton_self _)
        rw [hnone] at hread
        cases hread
      · rw [pollLoop_of_returned hinit hlook]
        exact ⟨rfl, List.prefix_rfl⟩
      · exact absurd hends hgoing
  | cons first made ih =>
      have hfirst : [first] <+: polls ++ [last] :=
        List.IsPrefix.trans (List.prefix_append [first] _) hinit
      rcases lookWith_cases believed failure hobserved first with
        ⟨hnone, -⟩ | ⟨-, -, hlook⟩ | ⟨-, -, later, children, hlook, hlater⟩
      · have hread := hreads first List.mem_cons_self
        rw [hnone] at hread
        cases hread
      · rw [pollLoop_of_returned hfirst hlook]
        exact ⟨rfl, List.prefix_append [first] _⟩
      · cases polls with
        | nil =>
            -- The last poll is the only one there is.
            have hlength := hinit.length_le
            simp at hlength
        | cons head polls =>
            obtain ⟨rfl, hrest⟩ := List.cons_prefix_cons.mp hinit
            have hlast : believed poll = true ∨ Vacated read (past ++ [first] ++ made) poll := by
              rwa [List.append_assoc]
            obtain ⟨hstatus, hpolls⟩ :=
              ih hlater hrest (fun one hone => hreads one (List.mem_cons_of_mem _ hone)) hlast
            unfold pollLoop
            simp only [hlook]
            exact ⟨hstatus, (List.prefix_cons_inj first).mpr hpolls⟩

/-- Belief that the registry bears out changes no round. -/
theorem lookWith_believed (failure : Looked) {past : List Poll} {observed : Bool}
    (hobserved : observed = true ↔ Seen read past) {poll : Poll}
    (hbelieved : (read poll.registry).isSome → believed poll = true → Vacated read past poll) :
    lookWith read believed failure observed poll = lookWith read (fun _ => false) failure observed poll := by
  unfold lookWith
  cases hread : read poll.registry with
  | none => rfl
  | some children =>
      cases hbelief : believed poll with
      | false => rfl
      | true =>
          obtain ⟨hseen, hnone⟩ := hbelieved (by rw [hread]; rfl) hbelief
          rw [hread] at hnone
          rw [Option.some.inj hnone, hobserved.mpr hseen]
          rfl

/-- Of one poll alone. -/
theorem vacated_of_singleton {past : List Poll} {first : Poll}
    (h : ∃ earlier final later, [] ++ [first] = earlier ++ final :: later ∧
      Vacated read (past ++ earlier) final) : Vacated read past first := by
  obtain ⟨earlier, final, later, hsplit, hvacated⟩ := h
  cases earlier with
  | nil =>
      obtain ⟨rfl, -⟩ := List.cons.inj hsplit
      rwa [List.append_nil] at hvacated
  | cons other earlier => simp at hsplit

/-- Belief that comes no sooner than the registry changes nothing. -/
theorem pollLoop_believed (hfailure : failure.Fails) {past polls : List Poll} {last : Poll} {observed : Bool}
    (hobserved : observed = true ↔ Seen read past)
    (hbelieved : ∀ made poll, made ++ [poll] <+: polls ++ [last] →
      (∀ one ∈ made ++ [poll], (read one.registry).isSome) → believed poll = true →
      ∃ earlier final later, made ++ [poll] = earlier ++ final :: later ∧
        Vacated read (past ++ earlier) final) :
    pollLoop (lookWith read believed failure) observed polls last =
      pollLoop (lookWith read (fun _ => false) failure) observed polls last := by
  induction polls generalizing past observed with
  | nil =>
      unfold pollLoop
      rw [lookWith_believed failure hobserved fun hread hbelief =>
        vacated_of_singleton (hbelieved [] last List.prefix_rfl (by simpa using hread) hbelief)]
  | cons poll polls ih =>
      have hlook := lookWith_believed failure hobserved fun hread hbelief =>
        vacated_of_singleton
          (hbelieved [] poll (List.prefix_append [poll] _) (by simpa using hread) hbelief)
      unfold pollLoop
      rcases lookWith_cases believed failure hobserved poll with
        ⟨-, hfail⟩ | ⟨-, -, hreturn⟩ | ⟨hread, hgoing, later, children, hgo, hlater⟩
      · rw [← hlook, hfail]
        rcases hfailure with rfl | rfl <;> rfl
      · rw [← hlook, hreturn]
      · rw [← hlook, hgo]
        dsimp only
        have hrest : ∀ made final, made ++ [final] <+: polls ++ [last] →
            (∀ one ∈ made ++ [final], (read one.registry).isSome) → believed final = true →
            ∃ earlier vacant after, made ++ [final] = earlier ++ vacant :: after ∧
              Vacated read (past ++ [poll] ++ earlier) vacant := by
          intro made final hinit hreads hbelief
          obtain ⟨earlier, vacant, after, hsplit, hvacated⟩ :=
            hbelieved (poll :: made) final ((List.prefix_cons_inj poll).mpr hinit)
              (by simpa using ⟨hread, by simpa using hreads⟩) hbelief
          cases earlier with
          | nil =>
              -- The child was gone at the first poll already, which would have returned.
              rw [List.append_nil] at hvacated
              obtain ⟨rfl, -⟩ := List.cons.inj hsplit
              exact absurd (Or.inr hvacated) hgoing
          | cons first earlier =>
              obtain ⟨rfl, htail⟩ := List.cons.inj hsplit
              exact ⟨earlier, vacant, after, htail, by simpa using hvacated⟩
        rw [ih hlater hrest]

/-- Rounds that are the same make the same call. -/
theorem pollLoop_congr {look other : Bool → Poll → Looked} {polls : List Poll} {last : Poll}
    (h : ∀ poll ∈ polls ++ [last], ∀ observed, look observed poll = other observed poll) (observed : Bool) :
    pollLoop look observed polls last = pollLoop other observed polls last := by
  induction polls generalizing observed with
  | nil =>
      unfold pollLoop
      rw [h last (List.mem_singleton_self _)]
  | cons poll polls ih =>
      have hrest := ih fun one hone => h one (List.mem_cons_of_mem _ hone)
      unfold pollLoop
      rw [h poll List.mem_cons_self]
      cases other observed poll with
      | returned status => rfl
      | raised => rfl
      | going later children => simp only [hrest]

/-- A call that looks at nothing but the registries returns the same for the same registries. -/
theorem pollLoop_registries {Item : Type*} {look : Bool → Poll → Looked} {one other : Item → Poll}
    (h : ∀ item observed, look observed (one item) = look observed (other item)) (observed : Bool)
    (polls : List Item) (last : Item) :
    (pollLoop look observed (polls.map one) (one last)).status =
      (pollLoop look observed (polls.map other) (other last)).status := by
  induction polls generalizing observed with
  | nil =>
      simp only [List.map_nil, pollLoop, h]
      cases look observed (other last) <;> rfl
  | cons poll polls ih =>
      simp only [List.map_cons, pollLoop, h]
      cases look observed (other poll) with
      | returned status => rfl
      | raised => rfl
      | going later children => exact ih later

end

/-! ## The two copies -/

section

variable {repr : Json → String} {attemptId : String}

theorem not_seen_nil {read : RegistryRead → Option (List Json)} : false = true ↔ Seen read [] := by
  simp [Seen]

/-- What a valid registry lists is what the other copy reads. -/
theorem attemptChildren_of_valid {registry : RegistryRead} {children : List Json}
    (h : ForkAttemptLifecycle.attemptChildren repr attemptId registry = some children) :
    WarmPoolInterrupt.attemptChildren repr attemptId registry = some children := by
  cases registry with
  | unreadable => cases h
  | value data =>
      simp only [ForkAttemptLifecycle.attemptChildren] at h
      split at h
      · rename_i hvalid
        unfold ForkAttemptLifecycle.isWellFormed at hvalid
        simp only [Bool.and_eq_true] at hvalid
        obtain ⟨⟨-, hlist⟩, -⟩ := hvalid
        simp only [WarmPoolInterrupt.attemptChildren]
        cases hchildren : data.get "children" with
        | arr rows =>
            rw [hchildren] at h
            exact h
        | null | bool _ | int _ | str _ | obj _ =>
            rw [hchildren] at hlist
            cases hlist
      · cases h

theorem Vacated.of_valid {made : List Poll} {poll : Poll}
    (h : Vacated (ForkAttemptLifecycle.attemptChildren repr attemptId) made poll) :
    Vacated (WarmPoolInterrupt.attemptChildren repr attemptId) made poll := by
  obtain ⟨⟨earlier, hearlier, child, rest, hchild⟩, hnone⟩ := h
  exact ⟨⟨earlier, hearlier, child, rest, attemptChildren_of_valid hchild⟩,
    attemptChildren_of_valid hnone⟩

theorem Justified.mono {polls more : List Poll} (h : Justified repr attemptId polls)
    (hinit : polls <+: more) : Justified repr attemptId more := by
  obtain ⟨earlier, poll, later, rfl, hvacated⟩ := h
  obtain ⟨rest, rfl⟩ := hinit
  exact ⟨earlier, poll, later ++ rest, by rw [List.append_assoc, List.cons_append], hvacated⟩

/-- The copy that reads registries alone has its evidence. -/
theorem ForkAttemptLifecycle.quiescent_justified {session : Json} {polls : List Poll} {last : Poll}
    (h : (waitForForkAttemptCleanup repr attemptId session polls last).status = some .quiescent) :
    Justified repr attemptId (waitForForkAttemptCleanup repr attemptId session polls last).polls := by
  unfold waitForForkAttemptCleanup cleanupOf at h ⊢
  split at h
  · rename_i hsession
    rw [if_pos hsession]
    obtain ⟨made, poll, hpolls, -, hends⟩ := pollLoop_quiescent (.inr rfl) not_seen_nil h
    rcases hends with hbelieved | hvacated
    · cases hbelieved
    · exact ⟨made, poll, [], hpolls, hvacated⟩
  · cases h

namespace WarmPoolInterrupt

variable {session : Json} {polls : List Poll} {last : Poll}

/-- The copy that reads the transcript has its evidence whenever it takes a child for gone. -/
theorem justified_iff (hsession : (session.get "active_children_registry").truthy = true) :
    ((waitForForkAttemptCleanup repr attemptId session polls last).status = some .quiescent →
      Justified repr attemptId (waitForForkAttemptCleanup repr attemptId session polls last).polls) ↔
      Evidenced repr attemptId (polls ++ [last]) := by
  unfold waitForForkAttemptCleanup cleanupOf
  rw [if_pos hsession]
  constructor
  · intro h made poll hinit hreads hsettles
    have hends : cancellationQuiescent poll = true ∨
        Vacated (attemptChildren repr attemptId) ([] ++ made) poll := hsettles
    obtain ⟨hstatus, hpolls⟩ := pollLoop_of_ends .raised not_seen_nil hinit hreads hends
    exact (h hstatus).mono hpolls
  · intro h hstatus
    obtain ⟨made, poll, hpolls, hreads, hends⟩ := pollLoop_quiescent (.inl rfl) not_seen_nil hstatus
    have hinit : made ++ [poll] <+: polls ++ [last] := by
      rw [← hpolls]
      exact pollLoop_polls _ _ _ _
    rw [hpolls]
    exact h made poll hinit hreads hends

/-- Where the evidence is there, the transcript decides nothing. -/
theorem pollLoop_eq_registries (h : Evidenced repr attemptId (polls ++ [last])) :
    pollLoop (lookWith (attemptChildren repr attemptId) cancellationQuiescent .raised) false polls last =
      pollLoop (lookWith (attemptChildren repr attemptId) (fun _ => false) .raised) false polls last := by
  apply pollLoop_believed (.inl rfl) not_seen_nil
  intro made poll hinit hreads hbelieved
  obtain ⟨earlier, vacant, later, hsplit, hvacated⟩ := h made poll hinit hreads (.inl hbelieved)
  exact ⟨earlier, vacant, later, hsplit, hvacated.of_valid⟩

end WarmPoolInterrupt

/-- On well-formed registries the two copies look at the same rows. -/
theorem pollLoop_wellFormed {polls : List Poll} {last : Poll}
    (h : ∀ poll ∈ polls ++ [last], ForkAttemptLifecycle.isWellFormed repr poll.registry = true) :
    pollLoop (lookWith (WarmPoolInterrupt.attemptChildren repr attemptId) (fun _ => false) .raised) false
        polls last =
      pollLoop (lookWith (ForkAttemptLifecycle.attemptChildren repr attemptId) (fun _ => false)
        (.returned .unverified)) false polls last := by
  apply pollLoop_congr
  intro poll hpoll observed
  have hvalid := h poll hpoll
  cases hregistry : poll.registry with
  | unreadable =>
      rw [hregistry] at hvalid
      cases hvalid
  | value data =>
      have hread : ForkAttemptLifecycle.attemptChildren repr attemptId poll.registry =
          some ((data.get "children").items.filter (isChildOfAttempt repr attemptId)) := by
        rw [hregistry] at hvalid ⊢
        exact if_pos hvalid
      unfold lookWith
      rw [hread, attemptChildren_of_valid hread]

end

/-! ## The status of a cleanup -/

/-- One poll of two calls: they read one registry, and each its own transcript. -/
structure PairedPoll where
  registry : RegistryRead
  one : String
  other : String

namespace PairedPoll

variable (poll : PairedPoll)

def first : Poll := ⟨poll.registry, poll.one⟩

def second : Poll := ⟨poll.registry, poll.other⟩

end PairedPoll

/-- What is asked of the two copies, for one sequence of registries and two transcripts. -/
structure CleanupHolds (repr : Json → String) (attemptId : String) (session : Json)
    (polls : List PairedPoll) (last : PairedPoll) : Prop where
  independent : ∀ wait ∈ [WarmPoolInterrupt.waitForForkAttemptCleanup repr attemptId,
      ForkAttemptLifecycle.waitForForkAttemptCleanup repr attemptId],
    (wait session (polls.map PairedPoll.first) last.first).status =
      (wait session (polls.map PairedPoll.second) last.second).status
  justified : ∀ wait ∈ [WarmPoolInterrupt.waitForForkAttemptCleanup repr attemptId,
      ForkAttemptLifecycle.waitForForkAttemptCleanup repr attemptId],
    ∀ side ∈ [PairedPoll.first, PairedPoll.second],
      (wait session (polls.map side) (side last)).status = some .quiescent →
        Justified repr attemptId (wait session (polls.map side) (side last)).polls
  agree : (∀ poll ∈ polls ++ [last], ForkAttemptLifecycle.isWellFormed repr poll.registry = true) →
    ∀ side ∈ [PairedPoll.first, PairedPoll.second],
      (WarmPoolInterrupt.waitForForkAttemptCleanup repr attemptId session (polls.map side)
        (side last)).status =
      (ForkAttemptLifecycle.waitForForkAttemptCleanup repr attemptId session (polls.map side)
        (side last)).status

section

variable {repr : Json → String} {attemptId : String} {session : Json}
variable {polls : List PairedPoll} {last : PairedPoll}

/-- A round that does not read the transcript does the same for both calls. -/
theorem lookWith_registry (read : RegistryRead → Option (List Json)) (failure : Looked)
    (poll : PairedPoll) (observed : Bool) :
    lookWith read (fun _ => false) failure observed poll.first =
      lookWith read (fun _ => false) failure observed poll.second := rfl

/-- The copy that reads registries alone returns one status for any two transcripts. -/
theorem ForkAttemptLifecycle.independent :
    (waitForForkAttemptCleanup repr attemptId session (polls.map PairedPoll.first) last.first).status =
      (waitForForkAttemptCleanup repr attemptId session (polls.map PairedPoll.second)
        last.second).status := by
  unfold waitForForkAttemptCleanup cleanupOf
  split
  · exact pollLoop_registries (lookWith_registry _ _) false polls last
  · rfl

/-- With evidence for both transcripts, so does the other. -/
theorem WarmPoolInterrupt.independent
    (hfirst : Evidenced repr attemptId (polls.map PairedPoll.first ++ [last.first]))
    (hsecond : Evidenced repr attemptId (polls.map PairedPoll.second ++ [last.second])) :
    (waitForForkAttemptCleanup repr attemptId session (polls.map PairedPoll.first) last.first).status =
      (waitForForkAttemptCleanup repr attemptId session (polls.map PairedPoll.second)
        last.second).status := by
  unfold waitForForkAttemptCleanup cleanupOf
  split
  · rw [pollLoop_eq_registries hfirst, pollLoop_eq_registries hsecond]
    exact pollLoop_registries (lookWith_registry _ _) false polls last
  · rfl

/-- On well-formed registries, with evidence, the two copies return the same status. -/
theorem WarmPoolInterrupt.agrees {polls : List Poll} {last : Poll}
    (h : Evidenced repr attemptId (polls ++ [last]))
    (hvalid : ∀ poll ∈ polls ++ [last], ForkAttemptLifecycle.isWellFormed repr poll.registry = true) :
    (waitForForkAttemptCleanup repr attemptId session polls last).status =
      (ForkAttemptLifecycle.waitForForkAttemptCleanup repr attemptId session polls last).status := by
  unfold waitForForkAttemptCleanup ForkAttemptLifecycle.waitForForkAttemptCleanup cleanupOf
  split
  · rw [pollLoop_eq_registries h, pollLoop_wellFormed hvalid]
  · rfl

/-- Without a registry neither copy polls. -/
theorem cleanupHolds_of_no_registry
    (h : ¬ (session.get "active_children_registry").truthy = true) :
    CleanupHolds repr attemptId session polls last := by
  have hnone : ∀ look (polls : List Poll) (last : Poll),
      cleanupOf session look polls last = ⟨some .unverified, []⟩ := fun _ _ _ => if_neg h
  refine ⟨?_, ?_, ?_⟩
  · simp [WarmPoolInterrupt.waitForForkAttemptCleanup, ForkAttemptLifecycle.waitForForkAttemptCleanup,
      hnone]
  · simp [WarmPoolInterrupt.waitForForkAttemptCleanup, ForkAttemptLifecycle.waitForForkAttemptCleanup,
      hnone]
  · simp [WarmPoolInterrupt.waitForForkAttemptCleanup, ForkAttemptLifecycle.waitForForkAttemptCleanup,
      hnone]

end

/-- A registry with one child of the attempt, in the form that the broker writes. -/
def registryOfOne : Json :=
  Json.dict [
    ("schema", .str activeChildrenSchema),
    ("children", .arr [Json.dict [
      ("attempt_id", .str "vanilla-0a"),
      ("pid", .int 41),
      ("pgid", .int 41),
      ("process_start_ticks", .int 7),
      ("process_identity", .str "linux-proc:7")]])]

end Hearth.Pools
