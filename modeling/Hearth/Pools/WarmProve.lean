import Hearth.Pools.LeaseRuns
import Hearth.Pools.AttemptCleanup

/-!
# Giving back the seat of a warm proof

`run` of `cli/orbstack_criu_vanilla.py` from the moment at which `_checkout` has written its
lease, until the admission slot is given back.  Other owners go on with the pool in between, and
an exception or an interrupt may come in front of every operation.

The release sits in the `finally` of the evaluation.  What comes before its `try`, and what the
`finally` does first, may raise past it.  The pool decides as well: `release_warm_pool_seat`
makes a dirty seat of a fork basis idle, because the child that was used has exited.
-/

namespace Hearth.Pools

open Hearth.Library
open Hearth.Closure (str)

variable {Owner : Type}

/-- What does not change while a proof runs. -/
structure ProveSetup (Owner : Type) where
  host : Host
  pid : Owner → ℤ
  owner : Owner
  /-- `project_basis_handle` is there. -/
  projectBasis : Bool
  /-- `profile_satisfaction` is there. -/
  profileSatisfaction : Bool
  repr : Json → String
  attemptId : String

/-- `cleanup_receipt`; `scope` and `active_children` are for display. -/
structure CleanupReceipt where
  status : CleanupStatus
  verifiedQuiescent : Bool
  seatReusable : Option Bool
  deriving DecidableEq, Repr

/-- A release that has been written, with the engine of the pool. -/
structure SeatRelease where
  engine : Engine
  item : Seat
  deriving DecidableEq, Repr

/-- Where `run` is. -/
inductive ProveStage
  /-- The lease is on disk. -/
  | checkedOut
  /-- Behind `update_shelf_owner`. -/
  | owned
  /-- Behind the second look at the profile. -/
  | preparing
  /-- In the `try`. -/
  | requesting | responded
  /-- In the `finally`. -/
  | recording | waited | retiring
  | releasing (clean : Bool)
  | released
  /-- Leaving the admission. -/
  | leaving
  | left
  deriving DecidableEq, Repr

/-- The lease has not been given back yet, and may still be. -/
def ProveStage.leased : ProveStage → Bool
  | .released | .leaving | .left => false
  | _ => true

structure WarmProve (Owner : Type) where
  stage : ProveStage
  world : World Owner
  response : Option Json
  interrupted : Bool
  /-- The profile satisfaction has changed before the evaluation. -/
  changed : Bool
  cleanupReceipt : Option CleanupReceipt
  releases : List SeatRelease

namespace WarmProve

variable (prove : WarmProve Owner)

/-- Behind `_checkout`. -/
def start (world : World Owner) : WarmProve Owner where
  stage := .checkedOut
  world
  response := none
  interrupted := false
  changed := false
  cleanupReceipt := none
  releases := []

def goTo (stage : ProveStage) : WarmProve Owner :=
  { prove with stage }

/-- `response is not None and response.get("status") in {"ok", "timeout", "cancelled"}`. -/
def evaluated : Bool :=
  prove.response.any fun response =>
    ["ok", "timeout", "cancelled"].any fun status => response.get "status" = .str status

/-- The interrupt cleanup has been verified. -/
def verified : Bool :=
  prove.cleanupReceipt.any CleanupReceipt.verifiedQuiescent

/-- `clean`, as it is computed in the `finally`. -/
def clean : Bool :=
  match prove.cleanupReceipt with
  | some receipt => receipt.verifiedQuiescent
  | none => prove.evaluated

/-- `reason` of the release. -/
def reason (repr : Json → String) : String :=
  if prove.changed then "profile satisfaction changed before evaluation"
  else
    match prove.response with
    | some response => "warm vanilla eval " ++ str repr (response.get "status")
    | none => "warm vanilla client ended before a worker response"

/-- The release has been written. -/
def settle (world : World Owner) (engine : Engine) (item : Seat) : WarmProve Owner :=
  { prove with
    stage := .released
    world
    cleanupReceipt := prove.cleanupReceipt.map fun receipt =>
      { receipt with seatReusable := some (item.status = .idle) }
    releases := prove.releases ++ [⟨engine, item⟩] }

end WarmProve

/-- `_release`. -/
def ProveSetup.release (setup : ProveSetup Owner) (prove : WarmProve Owner) (holding : Holding) (clean : Bool)
    (releasedUtc updatedUtc : String) : Pool × Except PoolError Seat :=
  releasePoolSeatLocked setup.host prove.world.pool holding.sessionDir (returnedStatus clean) releasedUtc
    (some (prove.reason setup.repr)) updatedUtc

/-- What happens next: an operation of the proof, an exception, or an operation of another
owner. -/
inductive ProveEvent (Owner : Type)
  | operation | failure
  | other (op : Op Owner)

section

variable [DecidableEq Owner]

/-- The steps of a proof.  A second interrupt may come before `interrupted` is set. -/
inductive ProveStep (setup : ProveSetup Owner) (prove : WarmProve Owner) :
    ProveEvent Owner → WarmProve Owner → Prop
  | own (hstage : prove.stage = .checkedOut) : ProveStep setup prove .operation (prove.goTo .owned)
  | proceed (hstage : prove.stage = .owned) :
      ProveStep setup prove .operation (prove.goTo .preparing)
  /-- `ProfileSatisfactionError`. -/
  | change (hstage : prove.stage = .owned) (hsatisfaction : setup.profileSatisfaction = true) :
      ProveStep setup prove .operation { prove with stage := .releasing true, changed := true }
  | enter (hstage : prove.stage = .preparing) :
      ProveStep setup prove .operation (prove.goTo .requesting)
  | respond (response : Json) (hstage : prove.stage = .requesting) :
      ProveStep setup prove .operation
        { prove with stage := .responded, response := some response }
  | finish (hstage : prove.stage = .responded) :
      ProveStep setup prove .operation (prove.goTo .recording)
  /-- An exception in the `try`. -/
  | interrupt (interrupted : Bool) (hstage : prove.stage = .requesting ∨ prove.stage = .responded) :
      ProveStep setup prove .failure { prove with stage := .recording, interrupted }
  | record (hstage : prove.stage = .recording) (hinterrupted : prove.interrupted = false) :
      ProveStep setup prove .operation (prove.goTo .waited)
  | wait {session : Json} {polls : List Poll} {last : Poll} {status : CleanupStatus}
      (hstage : prove.stage = .recording) (hinterrupted : prove.interrupted = true)
      (hstatus : (WarmPoolInterrupt.waitForForkAttemptCleanup setup.repr setup.attemptId session polls
        last).status = some status) :
      ProveStep setup prove .operation
        { prove with
          stage := .waited
          cleanupReceipt := some ⟨status, status = .quiescent, none⟩ }
  | conclude (hstage : prove.stage = .waited) (hbasis : setup.projectBasis = false) :
      ProveStep setup prove .operation (prove.goTo (.releasing prove.clean))
  /-- The global seat was not used; only the child of the project can need retirement. -/
  | keepBasis (hstage : prove.stage = .waited) (hbasis : setup.projectBasis = true)
      (hclean : prove.clean = true) : ProveStep setup prove .operation (prove.goTo (.releasing true))
  | retire (hstage : prove.stage = .waited) (hbasis : setup.projectBasis = true)
      (hclean : prove.clean = false) : ProveStep setup prove .operation (prove.goTo .retiring)
  | retired (hstage : prove.stage = .retiring) :
      ProveStep setup prove .operation (prove.goTo (.releasing true))
  | release {clean : Bool} {holding : Holding} {releasedUtc updatedUtc : String} {item : Seat}
      (hstage : prove.stage = .releasing clean) (hheld : prove.world.held setup.owner = some holding)
      (hresult : (setup.release prove holding clean releasedUtc updatedUtc).2 = .ok item) :
      ProveStep setup prove .operation
        (prove.settle (prove.world.giveBack setup.owner (setup.release prove holding clean releasedUtc updatedUtc))
          prove.world.pool.engine item)
  | report (hstage : prove.stage = .released) :
      ProveStep setup prove .operation (prove.goTo .leaving)
  /-- An exception anywhere but in the `try`. -/
  | escape (hrequesting : prove.stage ≠ .requesting) (hresponded : prove.stage ≠ .responded)
      (hleft : prove.stage ≠ .left) : ProveStep setup prove .failure (prove.goTo .leaving)
  /-- The admission slot is given back. -/
  | leave (hstage : prove.stage = .leaving) :
      ProveStep setup prove .operation (prove.goTo .left)
  | other {op : Op Owner} {outcome : Outcome} {world : World Owner}
      (hactor : op.actor ≠ some setup.owner)
      (hstep : Step setup.host setup.pid prove.world (op, outcome) world) :
      ProveStep setup prove (.other op) { prove with world }

end

/-! ## What a proof says about its seat -/

/-- Without a project basis the seat becomes idle, and is called reusable, only for a reason.  A
fork basis takes every seat back as idle, or as poisoned when it is quarantined. -/
structure SettledTruthfully (setup : ProveSetup Owner) (prove : WarmProve Owner) : Prop where
  idle : setup.projectBasis = false → ∀ release ∈ prove.releases, release.engine ≠ .forkBasis →
    release.item.status = .idle →
      prove.evaluated = true ∨ prove.verified = true ∨ prove.changed = true
  reusable : setup.projectBasis = false → ∀ release ∈ prove.releases, release.engine ≠ .forkBasis →
    ∀ receipt, prove.cleanupReceipt = some receipt → receipt.seatReusable = some true →
      receipt.verifiedQuiescent = true
  forkBasis : ∀ release ∈ prove.releases, release.engine = .forkBasis →
    release.item.status = .idle ∨ release.item.status = .poisoned

/-- The lease has been given back once, and is gone. -/
def ReleasedOnce (prove : WarmProve Owner) : Prop :=
  ∃ release, prove.releases = [release] ∧ release.item.lease = none

/-- No exception comes before the `try`, nor in the `finally` before the release. -/
def Guarded (prove : WarmProve Owner) : ProveEvent Owner → Prop
  | .failure => prove.stage = .requesting ∨ prove.stage = .responded ∨ prove.stage.leased = false
  | .operation | .other _ => True

/-- A step that is guarded. -/
structure GuardedStep [DecidableEq Owner] (setup : ProveSetup Owner) (prove : WarmProve Owner)
    (event : ProveEvent Owner) (after : WarmProve Owner) : Prop where
  step : ProveStep setup prove event after
  guarded : Guarded prove event

/-! ## The release -/

section

variable {host : Host} {pool : Pool}

/-- What a release gives back is a seat of the pool, as `releaseSeat` makes it. -/
theorem exists_seat_of_released {session releasedUtc updatedUtc : String} {status : SeatStatus}
    {reason : Option String} {item : Seat}
    (h : (releasePoolSeatLocked host pool session status releasedUtc reason updatedUtc).2 = .ok item) :
    ∃ seat ∈ pool.sessions, item = releaseSeat pool status releasedUtc reason seat := by
  unfold releasePoolSeatLocked persistUnlessRaised releaseWarmPoolSeat at h
  cases hupdated : (updateFirst (fun item => host.resolve item.sessionDir = host.resolve session)
      (releaseSeat pool status releasedUtc reason) pool.sessions).2 with
  | none => simp [hupdated] at h
  | some released =>
      obtain ⟨first, seat, last, hsessions, -, hreleased, -⟩ := updateFirst_eq_some hupdated
      simp only [hupdated, Except.ok.injEq] at h
      exact ⟨seat, by rw [hsessions]; simp, h.symm.trans hreleased⟩

/-- Apart from a fork basis, a ready pool makes a seat idle only if it comes back clean. -/
theorem clean_of_idle (hengine : pool.engine ≠ .forkBasis) (hready : pool.status = .ready) {clean : Bool}
    {releasedUtc : String} {reason : Option String} {seat : Seat}
    (hidle : (releaseSeat pool (returnedStatus clean) releasedUtc reason seat).status = .idle) :
    clean = true := by
  cases clean with
  | true => rfl
  | false => simp [releaseSeat, hready, hengine, returnedStatus] at hidle

/-- A fork basis makes a seat idle, or poisoned. -/
theorem idle_or_poisoned (hengine : pool.engine = .forkBasis)
    (hserving : pool.status = .ready ∨ pool.status = .poisoned) (clean : Bool) (releasedUtc : String)
    (reason : Option String) (seat : Seat) :
    (releaseSeat pool (returnedStatus clean) releasedUtc reason seat).status = .idle ∨
      (releaseSeat pool (returnedStatus clean) releasedUtc reason seat).status = .poisoned := by
  rcases hserving with hready | hpoisoned
  · left
    cases clean <;> simp [releaseSeat, hready, hengine, returnedStatus]
  · right
    simp [releaseSeat, hpoisoned, hengine]

variable {Owner : Type} {pid : Owner → ℤ} {world : World Owner} {owner : Owner} {holding : Holding}

/-- The pool of a seat that is held is ready, or a quarantined fork basis. -/
theorem WorldInvariant.serving (h : WorldInvariant host pid world) (hlive : world.exited owner = false)
    (hheld : world.held owner = some holding) :
    world.pool.status = .ready ∨ (world.pool.engine = .forkBasis ∧ world.pool.status = .poisoned) := by
  rcases h.lifecycle with hready | hpoisoned | hnone
  · exact .inl hready
  · exact .inr hpoisoned
  · obtain ⟨item, hitem, -, lease, hlease, -⟩ := h.live owner holding hlive hheld
    rw [hnone item hitem] at hlease
    cases hlease

end

section

variable [DecidableEq Owner] {setup : ProveSetup Owner} {prove after : WarmProve Owner}
  {event : ProveEvent Owner}

/-- Nobody but the owner changes what the owner holds. -/
theorem Step.held_of_other {host : Host} {pid : Owner → ℤ} {world world' : World Owner} {owner : Owner}
    {label : Op Owner × Outcome} (hstep : Step host pid world label world')
    (hactor : label.1.actor ≠ some owner) :
    world'.held owner = world.held owner ∧ world'.exited owner = world.exited owner := by
  have hne : ∀ {other : Owner}, (some other : Option Owner) ≠ some owner → owner ≠ other := by
    rintro other hother rfl
    exact hother rfl
  cases hstep with
  | checkout =>
      unfold World.receive
      split
      · exact ⟨Function.update_of_ne (hne hactor) _ _, rfl⟩
      · exact ⟨rfl, rfl⟩
  | reclaim => exact ⟨rfl, rfl⟩
  | release | quarantine | quarantineLease =>
      unfold World.giveBack
      split
      · exact ⟨Function.update_of_ne (hne hactor) _ _, rfl⟩
      · exact ⟨rfl, rfl⟩
  | exit => exact ⟨rfl, Function.update_of_ne (hne hactor) _ _⟩

theorem giveBack_exited (world : World Owner) (owner : Owner) (result : Pool × Except PoolError Seat) :
    (world.giveBack owner result).exited = world.exited := by
  unfold World.giveBack
  split <;> rfl

/-! ## Every run -/

/-- The cleanup has not been waited for. -/
def ProveStage.early : ProveStage → Bool
  | .checkedOut | .owned | .preparing | .requesting | .responded | .recording => true
  | _ => false

/-- A seat comes back clean for a reason, and as the receipt says. -/
structure CleanFor (prove : WarmProve Owner) (clean : Bool) : Prop where
  reason : clean = true → prove.evaluated = true ∨ prove.verified = true ∨ prove.changed = true
  receipt : ∀ receipt, prove.cleanupReceipt = some receipt → clean = receipt.verifiedQuiescent

/-- What holds of a proof in every run. -/
structure ProveFacts (setup : ProveSetup Owner) (holding : Holding) (prove : WarmProve Owner) : Prop where
  world : WorldInvariant setup.host setup.pid prove.world
  live : prove.world.exited setup.owner = false
  leased : prove.stage.leased = true →
    prove.world.held setup.owner = some holding ∧ prove.releases = []
  early : prove.stage.early = true → prove.cleanupReceipt = none
  clean : ∀ clean, prove.stage = .releasing clean → setup.projectBasis = false → CleanFor prove clean
  retiring : prove.stage = .retiring → setup.projectBasis = true
  truthful : SettledTruthfully setup prove
  few : prove.releases.length ≤ 1
  gone : ∀ release ∈ prove.releases, release.item.lease = none

omit [DecidableEq Owner] in
/-- What the `finally` computes. -/
theorem cleanFor_clean (prove : WarmProve Owner) : CleanFor prove prove.clean := by
  constructor
  · intro hclean
    unfold WarmProve.clean at hclean
    split at hclean
    · rename_i receipt hreceipt
      exact .inr (.inl (by simp [WarmProve.verified, hreceipt, hclean]))
    · exact .inl hclean
  · intro receipt hreceipt
    simp [WarmProve.clean, hreceipt]

omit [DecidableEq Owner] in
theorem settledTruthfully_of_nil (h : after.releases = []) : SettledTruthfully setup after := by
  refine ⟨fun _ release hrelease => ?_, fun _ release hrelease => ?_, fun release hrelease => ?_⟩ <;>
  · rw [h] at hrelease
    cases hrelease

omit [DecidableEq Owner] in
/-- A step before the release that leaves the pool alone. -/
theorem ProveFacts.before {holding : Holding} (h : ProveFacts setup holding prove)
    (hstage : prove.stage.leased = true) (hworld : after.world = prove.world)
    (hreleases : after.releases = prove.releases)
    (hearly : after.stage.early = true → after.cleanupReceipt = none)
    (hclean : ∀ clean, after.stage = .releasing clean → setup.projectBasis = false → CleanFor after clean)
    (hretiring : after.stage = .retiring → setup.projectBasis = true) :
    ProveFacts setup holding after := by
  obtain ⟨hheld, hnil⟩ := h.leased hstage
  have hnil : after.releases = [] := hreleases.trans hnil
  refine ⟨?_, ?_, fun _ => ⟨?_, hnil⟩, hearly, hclean, hretiring, settledTruthfully_of_nil hnil,
    ?_, ?_⟩
  · rw [hworld]
    exact h.world
  · rw [hworld]
    exact h.live
  · rw [hworld]
    exact hheld
  · simp [hnil]
  · simp [hnil]

omit [DecidableEq Owner] in
/-- The stage of the call changes, and the call does not go back. -/
theorem ProveFacts.goTo {holding : Holding} (h : ProveFacts setup holding prove) {stage : ProveStage}
    (hleased : stage.leased = false) : ProveFacts setup holding (prove.goTo stage) := by
  refine ⟨h.world, h.live, fun hstage => ?_, fun hstage => ?_, fun clean hstage => ?_,
    fun hstage => ?_, ⟨h.truthful.idle, h.truthful.reusable, h.truthful.forkBasis⟩, h.few, h.gone⟩
  · exact absurd (hleased.symm.trans hstage) nofun
  · have hearly : stage.early = true := hstage
    cases stage <;> simp [ProveStage.early, ProveStage.leased] at hearly hleased
  · have hreleasing : stage = .releasing clean := hstage
    rw [hreleasing] at hleased
    cases hleased
  · have hretiring : stage = .retiring := hstage
    rw [hretiring] at hleased
    cases hleased

/-- The release, and what it leaves. -/
theorem ProveFacts.settle {holding : Holding} (h : ProveFacts setup holding prove) {clean : Bool}
    {releasedUtc updatedUtc : String} {item : Seat} (hstage : prove.stage = .releasing clean)
    (hresult : (setup.release prove holding clean releasedUtc updatedUtc).2 = .ok item) :
    ProveFacts setup holding (prove.settle
      (prove.world.giveBack setup.owner (setup.release prove holding clean releasedUtc updatedUtc))
      prove.world.pool.engine item) := by
  obtain ⟨hheld, hnil⟩ := h.leased (by rw [hstage]; rfl)
  have hserving := h.world.serving h.live hheld
  have hclean := h.clean clean hstage
  obtain ⟨seat, -, hitem⟩ := exists_seat_of_released hresult
  have hreleases : ∀ release ∈ prove.releases ++ [⟨prove.world.pool.engine, item⟩],
      release = ⟨prove.world.pool.engine, item⟩ := by
    rw [hnil]
    simp
  -- Apart from a fork basis the pool is ready.
  have hidle : prove.world.pool.engine ≠ .forkBasis → item.status = .idle → clean = true := by
    intro hengine hidle
    rw [hitem] at hidle
    exact clean_of_idle hengine (hserving.resolve_right fun hfork => hengine hfork.1) hidle
  refine ⟨?_, ?_, nofun, nofun, nofun, nofun, ⟨?_, ?_, ?_⟩, ?_, ?_⟩
  · exact (h.world.release h.live hheld clean releasedUtc updatedUtc _).1
  · show (prove.world.giveBack _ _).exited setup.owner = false
    rw [giveBack_exited]
    exact h.live
  · intro hbasis release hrelease hengine hstatus
    rw [hreleases release hrelease] at hengine hstatus
    rcases (hclean hbasis).reason (hidle hengine hstatus) with hevaluated | hverified | hchanged
    · exact .inl hevaluated
    · refine .inr (.inl ?_)
      simpa [WarmProve.verified, WarmProve.settle, Option.any_map] using hverified
    · exact .inr (.inr hchanged)
  · intro hbasis release hrelease hengine receipt hreceipt hreusable
    rw [hreleases release hrelease] at hengine
    obtain ⟨before, hbefore, rfl⟩ := Option.map_eq_some_iff.mp hreceipt
    have hstatus : item.status = .idle := by simpa using hreusable
    exact ((hclean hbasis).receipt before hbefore).symm.trans (hidle hengine hstatus)
  · intro release hrelease hengine
    rw [hreleases release hrelease] at hengine ⊢
    rw [hitem]
    exact idle_or_poisoned hengine (hserving.imp id And.right) clean releasedUtc _ seat
  · show (prove.releases ++ [_]).length ≤ 1
    rw [hnil]
    exact le_rfl
  · intro release hrelease
    rw [hreleases release hrelease, hitem]
    exact releaseSeat_lease hserving _ _ _ _

theorem ProveFacts.step {holding : Holding} (h : ProveFacts setup holding prove)
    (hstep : ProveStep setup prove event after) : ProveFacts setup holding after := by
  cases hstep with
  | own hstage | proceed hstage | enter hstage =>
      exact h.before (by rw [hstage]; rfl) rfl rfl (fun _ => h.early (by rw [hstage]; rfl)) nofun nofun
  | change hstage hsatisfaction =>
      have hreceipt := h.early (by rw [hstage]; rfl)
      refine h.before (by rw [hstage]; rfl) rfl rfl nofun
        (fun clean _ _ => ⟨fun _ => .inr (.inr rfl), ?_⟩) nofun
      intro receipt hsome
      rw [show prove.cleanupReceipt = none from hreceipt] at hsome
      cases hsome
  | respond response hstage =>
      exact h.before (by rw [hstage]; rfl) rfl rfl (fun _ => h.early (by rw [hstage]; rfl)) nofun nofun
  | finish hstage =>
      exact h.before (by rw [hstage]; rfl) rfl rfl (fun _ => h.early (by rw [hstage]; rfl)) nofun nofun
  | interrupt interrupted hstage =>
      refine h.before ?_ rfl rfl (fun _ => h.early ?_) nofun nofun <;>
        rcases hstage with hstage | hstage <;> rw [hstage] <;> rfl
  | record hstage | wait hstage =>
      exact h.before (by rw [hstage]; rfl) rfl rfl nofun nofun nofun
  | retire hstage hbasis =>
      exact h.before (by rw [hstage]; rfl) rfl rfl nofun nofun fun _ => hbasis
  | conclude hstage hbasis =>
      refine h.before (by rw [hstage]; rfl) rfl rfl nofun (fun clean hclean _ => ?_) nofun
      rw [← ProveStage.releasing.inj hclean]
      have hcomputed := cleanFor_clean prove
      exact ⟨hcomputed.reason, hcomputed.receipt⟩
  | keepBasis hstage hbasis hclean =>
      refine h.before (by rw [hstage]; rfl) rfl rfl nofun (fun _ _ hnone => ?_) nofun
      rw [hbasis] at hnone
      cases hnone
  | retired hstage =>
      refine h.before (by rw [hstage]; rfl) rfl rfl nofun (fun _ _ hnone => ?_) nofun
      rw [h.retiring hstage] at hnone
      cases hnone
  | @release clean other releasedUtc updatedUtc item hstage hheld hresult =>
      obtain ⟨hown, -⟩ := h.leased (by rw [hstage]; rfl)
      obtain rfl : other = holding := Option.some.inj (hheld.symm.trans hown)
      exact h.settle hstage hresult
  | report hstage | leave hstage => exact h.goTo rfl
  | escape => exact h.goTo rfl
  | @other op outcome world hactor hstep =>
      obtain ⟨hheld, hexited⟩ := Step.held_of_other hstep hactor
      refine ⟨(Step.preserves h.world hstep).1, hexited.trans h.live, fun hstage => ?_, h.early, ?_,
        h.retiring, ⟨h.truthful.idle, h.truthful.reusable, h.truthful.forkBasis⟩, h.few, h.gone⟩
      · obtain ⟨hown, hnil⟩ := h.leased hstage
        exact ⟨hheld.trans hown, hnil⟩
      · intro clean hstage hbasis
        have hclean := h.clean clean hstage hbasis
        exact ⟨hclean.reason, hclean.receipt⟩

/-! ## Guarded runs -/

/-- Behind the release the lease has been given back. -/
def GivenBack (prove : WarmProve Owner) : Prop :=
  prove.stage.leased = true ∨ prove.releases.length = 1

theorem GivenBack.step {holding : Holding} (h : GivenBack prove) (hfacts : ProveFacts setup holding prove)
    (hstep : GuardedStep setup prove event after) : GivenBack after := by
  -- Behind the release the stages come without a lease, and the releases stay.
  have hsettled : prove.stage.leased = false → prove.releases.length = 1 := by
    intro hstage
    refine h.resolve_left ?_
    rw [hstage]
    nofun
  obtain ⟨hstep, hguarded⟩ := hstep
  cases hstep with
  | own | proceed | change | enter | respond | finish | record | wait | conclude | keepBasis | retire
  | retired | interrupt => exact .inl rfl
  | @release clean holding' releasedUtc updatedUtc item hstage hheld hresult =>
      obtain ⟨-, hnil⟩ := hfacts.leased (by rw [hstage]; rfl)
      right
      show (prove.releases ++ [_]).length = 1
      rw [hnil]
      rfl
  | report hstage | leave hstage => exact .inr (hsettled (by rw [hstage]; rfl))
  | escape hrequesting hresponded =>
      rcases hguarded with hstage | hstage | hstage
      · exact absurd hstage hrequesting
      · exact absurd hstage hresponded
      · exact .inr (hsettled hstage)
  | other => exact h

variable {start : World Owner} {operations : List (Op Owner × Outcome)} {world : World Owner}
  {holding : Holding} {labels : List (ProveEvent Owner)}

/-- In every run the seat is settled truthfully and given back at most once; in a guarded run it
has been given back, once, when the admission slot is. -/
theorem warm_prove_settles (hfresh : start.Fresh setup.host)
    (hreached : Run (Step setup.host setup.pid) start operations world)
    (hlive : world.exited setup.owner = false) (hheld : world.held setup.owner = some holding)
    (hrun : Run (ProveStep setup) (.start world) labels prove) :
    SettledTruthfully setup prove ∧ prove.releases.length ≤ 1 ∧
      (Run (GuardedStep setup) (.start world) labels prove → prove.stage = .left → ReleasedOnce prove) := by
  have hstart : ProveFacts setup holding (.start world) :=
    ⟨Run.invariant hreached hfresh.invariant, hlive, fun _ => ⟨hheld, rfl⟩, fun _ => rfl, nofun, nofun,
      settledTruthfully_of_nil rfl, Nat.zero_le _, fun _ hrelease => absurd hrelease List.not_mem_nil⟩
  have hstep : ∀ one event two, ProveFacts setup holding one → ProveStep setup one event two →
      ProveFacts setup holding two := fun _ _ _ h hone => h.step hone
  have hfacts : ProveFacts setup holding prove := hrun.preserves hstep hstart
  refine ⟨hfacts.truthful, hfacts.few, fun hguarded hleft => ?_⟩
  have hbase : ∀ one event two, ProveFacts setup holding one → GuardedStep setup one event two →
      ProveFacts setup holding two := fun one event two h hone => hstep one event two h hone.step
  have hback : ∀ one event two, ProveFacts setup holding one → GivenBack one →
      GuardedStep setup one event two → GivenBack two := fun _ _ _ hfacts h hone => h.step hfacts hone
  have hsettles : GivenBack prove := hguarded.preserves_of hbase hback hstart (.inl rfl)
  have hlength : prove.releases.length = 1 := by
    refine hsettles.resolve_left ?_
    rw [hleft]
    nofun
  obtain ⟨release, hrelease⟩ := List.length_eq_one_iff.mp hlength
  exact ⟨release, hrelease, hfacts.gone release (by rw [hrelease]; exact .head _)⟩

end

/-! ## Three runs on a fork basis -/

/-- Owner 1 has the first seat of a fork basis. -/
def leasedWorld : World ℕ :=
  (aliasWorld .other).receive 1 "a"
    (checkoutPoolSeatLocked plainHost (aliasWorld .other).pool (manualRequest "a" 1) quietContext)

theorem leasedWorld_reached : ∃ operations, Run (Step plainHost Int.ofNat) (aliasWorld .other) operations
    leasedWorld :=
  ⟨_, .cons (@Step.checkout _ _ _ _ _ 1 (manualRequest "a" 1) quietContext rfl rfl rfl fun _ _ _ => rfl)
    (.nil _)⟩

def plainSetup : ProveSetup ℕ where
  host := plainHost
  pid := Int.ofNat
  owner := 1
  projectBasis := false
  profileSatisfaction := false
  repr _ := ""
  attemptId := "vanilla-1"

/-- Whatever the seat is called, a fork basis makes it idle. -/
theorem leasedWorld_release {prove : WarmProve ℕ} {clean : Bool} (hstage : prove.stage = .releasing clean)
    (hworld : prove.world = leasedWorld) :
    ∃ world item, item.status = .idle ∧
      ProveStep plainSetup prove .operation (prove.settle world .forkBasis item) := by
  have hheld : prove.world.held plainSetup.owner = some ⟨"/pool/seat-1", "a"⟩ := by
    rw [hworld]
    rfl
  have hresult : ∃ item, item.status = .idle ∧
      (plainSetup.release prove ⟨"/pool/seat-1", "a"⟩ clean "t1" "t1").2 = .ok item := by
    unfold ProveSetup.release
    rw [hworld]
    cases clean <;> exact ⟨_, rfl, rfl⟩
  obtain ⟨item, hidle, hresult⟩ := hresult
  have hengine : prove.world.pool.engine = .forkBasis := by
    rw [hworld]
    rfl
  refine ⟨prove.world.giveBack 1 (plainSetup.release prove ⟨"/pool/seat-1", "a"⟩ clean "t1" "t1"), item,
    hidle, ?_⟩
  rw [← hengine]
  exact .release hstage hheld hresult

/-- An answered proof gives its seat back once. -/
theorem answered_proof_settles : ∃ prove : WarmProve ℕ, prove.stage = .left ∧ ReleasedOnce prove := by
  have hbefore : ∃ prove : WarmProve ℕ, prove.stage = .releasing true ∧ prove.world = leasedWorld ∧
      Run (GuardedStep plainSetup) (.start leasedWorld)
        [.operation, .operation, .operation, .operation, .operation, .operation, .operation] prove :=
    ⟨_, rfl, rfl, .cons ⟨.own rfl, trivial⟩ (.cons ⟨.proceed rfl, trivial⟩ (.cons ⟨.enter rfl, trivial⟩
      (.cons ⟨.respond (.obj [("status", .str "ok")]) rfl, trivial⟩ (.cons ⟨.finish rfl, trivial⟩
        (.cons ⟨.record rfl rfl, trivial⟩ (.cons ⟨.conclude rfl rfl, trivial⟩ (.nil _)))))))⟩
  obtain ⟨prove, hstage, hworld, hbefore⟩ := hbefore
  obtain ⟨world, item, -, hrelease⟩ := leasedWorld_release hstage hworld
  have hguarded : Run (GuardedStep plainSetup) (.start leasedWorld) _ _ :=
    hbefore.append (.cons ⟨hrelease, trivial⟩ (.cons ⟨.report rfl, trivial⟩
      (.cons ⟨.leave rfl, trivial⟩ (.nil _))))
  obtain ⟨operations, hreached⟩ := leasedWorld_reached
  have hrun := hguarded.mono fun _ _ _ h => h.step
  exact ⟨_, rfl, (warm_prove_settles (aliasWorld_fresh .other) hreached rfl rfl hrun).2.2 hguarded rfl⟩

/-- An error of the worker leaves an idle seat; an interrupt whose cleanup nobody could verify is
reported with a seat that is reusable; and an exception of `update_shelf_owner` leaves the lease
where it is. -/
theorem unsettled_proofs :
    (∃ (labels : List (ProveEvent ℕ)) (prove : WarmProve ℕ), Run (ProveStep plainSetup) (.start leasedWorld) labels prove ∧
      (∃ release ∈ prove.releases, release.item.status = .idle) ∧ prove.evaluated = false ∧
        prove.cleanupReceipt = none) ∧
    (∃ (labels : List (ProveEvent ℕ)) (prove : WarmProve ℕ), Run (ProveStep plainSetup) (.start leasedWorld) labels prove ∧
      prove.cleanupReceipt = some ⟨.unverified, false, some true⟩) ∧
    ∃ prove : WarmProve ℕ, Run (ProveStep plainSetup) (.start leasedWorld) [.failure, .operation] prove ∧
      prove.stage = .left ∧ prove.releases = [] := by
  refine ⟨?_, ?_, ?_⟩
  · have hbefore : ∃ prove : WarmProve ℕ, prove.stage = .releasing false ∧ prove.world = leasedWorld ∧
        prove.evaluated = false ∧ prove.cleanupReceipt = none ∧
        Run (ProveStep plainSetup) (.start leasedWorld)
          [.operation, .operation, .operation, .operation, .operation, .operation, .operation] prove :=
      ⟨_, rfl, rfl, by rfl, rfl, .cons (.own rfl) (.cons (.proceed rfl) (.cons (.enter rfl)
        (.cons (.respond (.obj [("status", .str "error")]) rfl) (.cons (.finish rfl)
          (.cons (.record rfl rfl) (.cons (.conclude rfl rfl) (.nil _)))))))⟩
    obtain ⟨prove, hstage, hworld, hevaluated, hreceipt, hbefore⟩ := hbefore
    obtain ⟨world, item, hidle, hrelease⟩ := leasedWorld_release hstage hworld
    refine ⟨_, _, hbefore.append (.cons hrelease (.nil _)), ⟨⟨.forkBasis, item⟩, ?_, hidle⟩, hevaluated, ?_⟩
    · exact List.mem_append_right _ (.head _)
    · simp [WarmProve.settle, hreceipt]
  · have hbefore : ∃ prove : WarmProve ℕ, prove.stage = .releasing false ∧ prove.world = leasedWorld ∧
        prove.cleanupReceipt = some ⟨.unverified, false, none⟩ ∧
        Run (ProveStep plainSetup) (.start leasedWorld)
          [.operation, .operation, .operation, .failure, .operation, .operation] prove :=
      ⟨_, rfl, rfl, rfl, .cons (.own rfl) (.cons (.proceed rfl) (.cons (.enter rfl)
        (.cons (.interrupt true (.inl rfl)) (.cons (@ProveStep.wait _ _ _ _ .null [] ⟨.unreadable, ""⟩
          .unverified rfl rfl rfl) (.cons (.conclude rfl rfl) (.nil _))))))⟩
    obtain ⟨prove, hstage, hworld, hreceipt, hbefore⟩ := hbefore
    obtain ⟨world, item, hidle, hrelease⟩ := leasedWorld_release hstage hworld
    refine ⟨_, _, hbefore.append (.cons hrelease (.nil _)), ?_⟩
    simp [WarmProve.settle, hreceipt, hidle]
  · exact ⟨_, .cons (.escape nofun nofun nofun) (.cons (.leave rfl) (.nil _)), rfl, rfl⟩

end Hearth.Pools
