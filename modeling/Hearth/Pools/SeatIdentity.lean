import Hearth.Pools.LeaseRuns

/-!
# What no lease operation changes

Seats are neither added, removed nor moved, and they stay on their control sessions.
-/

namespace Hearth.Pools

open Hearth.Library

variable {Owner : Type} {host : Host} {pid : Owner → ℤ}

/-- What `before` and `after` have in common behind any lease operation. -/
structure SameSeats (before after : Pool) : Prop where
  engine : before.engine = .forkBasis → after.engine = .forkBasis
  dirs : after.sessions.map Seat.sessionDir = before.sessions.map Seat.sessionDir
  controls : after.sessions.map controlIdentity = before.sessions.map controlIdentity

theorem SameSeats.refl (pool : Pool) : SameSeats pool pool := ⟨id, rfl, rfl⟩

theorem SameSeats.of_clears {may : Seat → Prop} {before after : Pool} (hsame : SameGeneration before after)
    (h : List.Forall₂ (Clears may) before.sessions after.sessions) : SameSeats before after :=
  ⟨fun hengine => hsame.engine.trans hengine, map_eq_of_forall₂ (fun _ _ hclear => hclear.sessionDir) h,
    map_eq_of_forall₂ (fun _ _ hclear => hclear.controlIdentity_eq) h⟩

theorem SameSeats.of_takes {may : Seat → Prop} {suitable : List Seat → Seat → Prop} {lease : Lease}
    {before after : Pool} {item : Seat} (hsame : SameGeneration before after)
    (h : Takes may suitable lease before.sessions after.sessions item) : SameSeats before after := by
  obtain ⟨first, seat, last, hclears, -, -, hafter⟩ := h
  refine ⟨fun hengine => hsame.engine.trans hengine, ?_, ?_⟩
  · rw [← map_eq_of_forall₂ (fun _ _ hclear => hclear.sessionDir) hclears, hafter]
    simp [takeSeat]
  · rw [← map_eq_of_forall₂ (fun _ _ hclear => hclear.controlIdentity_eq) hclears, hafter]
    simp [takeSeat, controlIdentity]

theorem Quarantined.sameSeats {isReleased : Seat → Bool} {reason utc : String} {before after : Pool}
    (h : Quarantined isReleased reason utc before after) : SameSeats before after := by
  have hclears := map_quarantineSeat_clears isReleased reason utc before.sessions
  rw [← h.sessions] at hclears
  exact ⟨fun _ => h.engine, map_eq_of_forall₂ (fun _ _ hclear => hclear.sessionDir) hclears,
    map_eq_of_forall₂ (fun _ _ hclear => hclear.controlIdentity_eq) hclears⟩

variable [DecidableEq Owner] {world after : World Owner}

/-- Every step of the pool keeps its engine, its seats and their control sessions. -/
theorem Step.sameSeats {label : Op Owner × Outcome} (h : WorldInvariant host pid world)
    (hstep : Step host pid world label after) : SameSeats world.pool after.pool := by
  cases hstep with
  | @checkout owner request context hlive hheld hpid htruthful =>
      rw [receive_pool]
      obtain ⟨hsame, hspec⟩ := checkoutPoolSeatLocked_spec h.pool request context
      cases hresult : (checkoutPoolSeatLocked host world.pool request context).2 with
      | error error =>
          rw [hresult] at hspec
          exact .of_clears hsame hspec
      | ok item =>
          rw [hresult] at hspec
          exact .of_takes hsame hspec.2.2
  | @reclaim releasedUtc updatedUtc ownerAlive htruthful =>
      obtain ⟨hsame, hclears⟩ :=
        reclaimStaleLeases_spec world.pool releasedUtc ownerAlive h.pool.sessionDirs
      exact .of_clears (hsame.trans (sameGeneration_persist _ updatedUtc)) hclears
  | @release owner holding clean releasedUtc updatedUtc reason hlive hheld =>
      rw [giveBack_pool]
      cases hresult : (releasePoolSeatLocked host world.pool holding.sessionDir
          (returnedStatus clean) releasedUtc reason updatedUtc).2 with
      | ok item =>
          have hbusy : returnedStatus clean ≠ .busy := by cases clean <;> simp [returnedStatus]
          obtain ⟨hsame, hclears⟩ := releasePoolSeatLocked_ok hbusy hresult
          exact .of_clears hsame hclears
      | error error =>
          unfold releasePoolSeatLocked at hresult ⊢
          rw [persistUnlessRaised_error hresult]
          exact .refl _
  | @quarantine owner holding reason quarantinedUtc updatedUtc hlive hheld =>
      rw [giveBack_pool]
      cases hresult : (quarantineForkBasisLocked host world.pool holding.sessionDir reason
          quarantinedUtc updatedUtc).2 with
      | ok item => exact (quarantineForkBasisLocked_ok hresult).sameSeats
      | error error =>
          unfold quarantineForkBasisLocked at hresult ⊢
          rw [persistUnlessRaised_error hresult]
          exact .refl _
  | @quarantineLease owner holding reason quarantinedUtc updatedUtc hlive hheld =>
      rw [giveBack_pool]
      cases hresult : (quarantineForkBasisLeaseLocked world.pool holding.leaseId reason
          quarantinedUtc updatedUtc).2 with
      | ok item => exact (quarantineForkBasisLeaseLocked_ok hresult).sameSeats
      | error error =>
          unfold quarantineForkBasisLeaseLocked at hresult ⊢
          rw [persistUnlessRaised_error hresult]
          exact .refl _
  | exit => exact .refl _

end Hearth.Pools
