import Hearth.Criu.LazyPages
import Mathlib.Logic.Function.Basic

/-!
# The pieces of a lazy-pages launch

`prepare_launch` and `cleanup_failed_launch` of `criu_lazy_pages_lifecycle.py`: what a launch asks
before it starts anything, and what it does after it failed.  `launch_lazy_pages_internal` itself,
which releases a gated launcher between the two, is a machine in `LazyLaunchRuns`.

A cleanup after a failure touches files only where the daemon was bound and both the daemon and the
launcher were found gone.
-/

namespace Hearth.Criu

/-! ## Where a launch works -/

/-- An image directory and how paths resolve; `socket` is the text of its socket path. -/
structure LaunchPlace where
  root : String
  resolve : String → ImageFile
  socket : String
  resolve_socket : resolve socket = ⟨root, "lazy-pages.socket"⟩

/-- A name that starts with `lazy-pages-` and ends in the suffix. -/
def isLazyName (suffix name : String) : Bool :=
  "lazy-pages-".toList.isPrefixOf name.toList && suffix.toList.isSuffixOf name.toList

/-- The pidfile and the log of one launch, as `_validate_paths` accepts them. -/
structure LaunchPaths (place : LaunchPlace) where
  pidfile : String
  log : String
  pidfile_parent : (place.resolve pidfile).parent = place.root
  log_parent : (place.resolve log).parent = place.root
  pidfile_name : isLazyName ".pid" (place.resolve pidfile).name = true
  log_name : isLazyName ".log" (place.resolve log).name = true

namespace LaunchPlace

variable (place : LaunchPlace)

/-- The directory as its two records are read. -/
def image (pending : Option PendingRecord) (owner : Option OwnerRecord) : Image where
  root := place.root
  resolve := place.resolve
  pending := .ok pending
  owner := .ok owner

def pendingPath : ImageFile := ⟨place.root, "lazy-pages-launch.json"⟩

def ownerPath : ImageFile := ⟨place.root, "lazy-pages-owner.json"⟩

def socketPath : ImageFile := ⟨place.root, "lazy-pages.socket"⟩

/-- A file that `root.glob("lazy-pages-*.pid")` finds. -/
def isStalePidfile (file : ImageFile) : Bool :=
  file.parent = place.root && isLazyName ".pid" file.name

end LaunchPlace

/-! ## Before the launch -/

/-- The end of `prepare_launch`, behind what it did about a prior owner. -/
def LaunchPlace.checkPidfiles (place : LaunchPlace) (pidfile : String) (cleanup : Option Cleanup)
    (files : List ImageFile) : Except String (Option Cleanup) :=
  let stale := (files.filter place.isStalePidfile).mergeSort fun one other => one.name ≤ other.name
  if stale ≠ [] then
    .error ("lazy-pages pidfile exists without a current ready owner or pending recovery: " ++
      ", ".intercalate (stale.map fun file => file.parent ++ "/" ++ file.name))
  else if (place.resolve pidfile).parent ≠ place.root then
    .error "requested lazy-pages pidfile is outside the CRIU image directory"
  else .ok cleanup

namespace Environment

variable (env : Environment)

/-- `prepare_launch`, with `socket_reuse_preflight`. -/
def prepareLaunch (place : LaunchPlace) (owner : Option OwnerRecord) (pidfile : String) (progress : Progress) :
    Except String (Option Cleanup) × Progress :=
  if place.pendingPath ∈ progress.files then
    (.error "an incomplete lazy-pages launch intent requires recovery", progress)
  else
    match owner with
    | none =>
        if place.socketPath ∈ progress.files then
          (.error "lazy-pages socket exists without identity-bound owner metadata", progress)
        else (place.checkPidfiles pidfile none progress.files, progress)
    | some owner =>
        match env.retirePriorOwner (place.image none (some owner)) owner progress with
        | (.error error, after) => (.error error, after)
        | (.ok cleanup, after) => (place.checkPidfiles pidfile (some cleanup) after.files, after)

end Environment

section

variable {env : Environment} {place : LaunchPlace} {owner : Option OwnerRecord} {pidfile : String}
  {cleanup : Option Cleanup} {before after : Progress}

theorem checkPidfiles_ok {files : List ImageFile} {result : Option Cleanup}
    (h : place.checkPidfiles pidfile cleanup files = .ok result) :
    ∀ file ∈ files, place.isStalePidfile file = false := by
  unfold LaunchPlace.checkPidfiles at h
  dsimp only at h
  split at h
  · cases h
  · rename_i hstale
    intro file hmem
    by_contra hfile
    have hin : file ∈ (files.filter place.isStalePidfile).mergeSort fun one other => one.name ≤ other.name :=
      List.mem_mergeSort.mpr (List.mem_filter.mpr ⟨hmem, by simpa using hfile⟩)
    rw [not_not.mp hstale] at hin
    cases hin

/-- A preparation removes files only behind an owner whose daemon is settled. -/
theorem prepareLaunch_files :
    (env.prepareLaunch place owner pidfile before).2.files = before.files ∨
      ∃ record, owner = some record ∧
        env.Settled record.daemon (env.prepareLaunch place owner pidfile before).2 := by
  unfold Environment.prepareLaunch
  split
  · exact .inl rfl
  · cases owner with
    | none =>
        dsimp only
        split <;> exact .inl rfl
    | some record =>
        have hretires := (@retirePriorOwner_retires env (place.image none (some record)) before record).1
        dsimp only
        split
        · rename_i error after hafter
          rw [hafter] at hretires
          exact hretires.files.imp id fun hsettled => ⟨record, rfl, hsettled⟩
        · rename_i done after hafter
          rw [hafter] at hretires
          exact hretires.files.imp id fun hsettled => ⟨record, rfl, hsettled⟩

/-- A removal that succeeds leaves no such file. -/
theorem durableUnlink_ok {file : ImageFile} (h : (env.durableUnlink file before).1 = .ok ()) :
    file ∉ (env.durableUnlink file before).2.files := by
  unfold Environment.durableUnlink at h ⊢
  dsimp only at h ⊢
  by_cases hmem : file ∈ before.files
  · rw [if_pos hmem] at h ⊢
    cases houtcome : env.unlink before.unlinks with
    | removed =>
        intro hkept
        exact absurd rfl (of_decide_eq_true (List.mem_filter.mp hkept).2)
    | refused | unsynced =>
        rw [houtcome] at h
        cases h
  · rw [if_neg hmem]
    exact hmem

/-- A retired owner leaves no owner record. -/
theorem retirePriorOwner_ok {image : Image} {owner : OwnerRecord} {result : Cleanup} {after : Progress}
    (h : env.retirePriorOwner image owner before = (.ok result, after)) : image.ownerPath ∉ after.files := by
  unfold Environment.retirePriorOwner at h
  dsimp only at h
  split at h
  · split at h
    · rename_i removed hremoved
      have hgone := @durableUnlink_ok env removed image.ownerPath
      split at h
      · rename_i last hlast
        rw [hlast] at hgone
        obtain ⟨-, rfl⟩ := Prod.mk.inj h
        exact hgone rfl
      · cases h
    · cases h
  · cases h

/-- A launch goes on only where there is no pending record, no owner record is left, and no pidfile. -/
theorem prepareLaunch_ok {result : Option Cleanup}
    (h : (env.prepareLaunch place owner pidfile before).1 = .ok result) :
    place.pendingPath ∉ before.files ∧
      (owner = none ∨ place.ownerPath ∉ (env.prepareLaunch place owner pidfile before).2.files) ∧
      ∀ file ∈ (env.prepareLaunch place owner pidfile before).2.files, place.isStalePidfile file = false := by
  unfold Environment.prepareLaunch at h ⊢
  by_cases hpending : place.pendingPath ∈ before.files
  · rw [if_pos hpending] at h
    cases h
  · rw [if_neg hpending] at h ⊢
    refine ⟨hpending, ?_⟩
    cases owner with
    | none =>
        dsimp only at h ⊢
        split at h
        · cases h
        · rename_i hsocket
          rw [if_neg hsocket]
          exact ⟨.inl rfl, checkPidfiles_ok h⟩
    | some record =>
        dsimp only at h ⊢
        cases hretired : env.retirePriorOwner (place.image none (some record)) record before with
        | mk done after =>
            rw [hretired] at h
            cases done with
            | error error => cases h
            | ok cleanup => exact ⟨.inr (retirePriorOwner_ok hretired), checkPidfiles_ok h⟩

end

/-! ## After a failure -/

/-- What `abort_launcher` reports, and how it settled the launcher. -/
structure LauncherCleanup where
  status : String
  verifiedLauncherQuiescent : Bool
  reason : String
  survivingPids : List ℕ
  daemonIdentityUnavailable : Bool
  deriving DecidableEq, Repr

/-- What `cleanup_failed_launch` reports.  Where no daemon was bound, `verifiedDaemonQuiescent` is absent, and the
report on the launcher is the whole of it. -/
structure LaunchCleanup where
  cleanup : Cleanup
  verifiedDaemonQuiescent : Option Bool
  launcherCleanup : Option LauncherCleanup
  daemonIdentityUnavailable : Bool
  deriving DecidableEq, Repr

/-- `abort_launcher`, behind the bounded wait for the launcher. -/
def abortLauncher (launcher : Birth) (released daemonBound parentLive : Bool) : LauncherCleanup :=
  let surviving := if parentLive then [launcher.pid] else []
  if released && !daemonBound then
    { status := "unverified"
      verifiedLauncherQuiescent := !parentLive
      reason := "launcher was released but no daemon birth identity was bound"
      survivingPids := surviving
      daemonIdentityUnavailable := true }
  else
    { status := if parentLive then "survivors" else "quiescent"
      verifiedLauncherQuiescent := !parentLive
      reason :=
        if parentLive then "owned launcher parent survived the bounded settle wait"
        else "owned launcher parent settled"
      survivingPids := surviving
      daemonIdentityUnavailable := false }

/-- What the cleanup of a bound daemon makes of an exception. -/
def daemonCleanupRaised (daemon : Birth) (error : String) : Cleanup :=
  .unverified s!"daemon cleanup raised {error}" [daemon.pid]

/-- The report on a launcher whose settling raised. -/
def launcherSettleRaised (launcher : Birth) (error : String) : LauncherCleanup where
  status := "unverified"
  verifiedLauncherQuiescent := false
  reason := s!"launcher settle raised {error}"
  survivingPids := [launcher.pid]
  daemonIdentityUnavailable := false

/-- `cleanup_failed_launch`: `terminated` is what the termination of a bound daemon returned or raised, `parentLive`
what the wait for the launcher found or raised. -/
def cleanupFailedLaunch (launcher : Option Birth) (released pidfilePresent : Bool) (bound : Option Birth)
    (terminated : Except String Cleanup) (parentLive : Except String Bool) : Except String LaunchCleanup :=
  match launcher, bound with
  | some launcher, some daemon =>
      if released then
        let cleanup := match terminated with
          | .ok cleanup => cleanup
          | .error error => daemonCleanupRaised daemon error
        let settled := match parentLive with
          | .ok live => abortLauncher launcher released true live
          | .error error => launcherSettleRaised launcher error
        let verified := cleanup.verifiedQuiescent && settled.verifiedLauncherQuiescent
        .ok
          { cleanup :=
              { cleanup with
                status := if verified then cleanup.status else "unverified"
                verifiedQuiescent := verified
                survivingPids :=
                  if verified then cleanup.survivingPids
                  else ((cleanup.survivingPids ++ settled.survivingPids).dedup).mergeSort (· ≤ ·) }
            verifiedDaemonQuiescent := some cleanup.verifiedQuiescent
            launcherCleanup := some settled
            daemonIdentityUnavailable := false }
      else unbound (some launcher)
  | launcher, _ => unbound launcher
where
  /-- The branch without a bound daemon; what the wait raises leaves the handler. -/
  unbound : Option Birth → Except String LaunchCleanup
    | none =>
        .ok
          { cleanup := .unverified "lazy-pages launcher was not acquired" []
            verifiedDaemonQuiescent := none
            launcherCleanup := none
            daemonIdentityUnavailable := false }
    | some launcher => do
        let settled := abortLauncher launcher released false (← parentLive)
        if released && pidfilePresent then
          return {
            cleanup := .unverified
              "released launch has a pidfile but no persisted or in-memory daemon birth identity"
              settled.survivingPids
            verifiedDaemonQuiescent := none
            launcherCleanup := some settled
            daemonIdentityUnavailable := true }
        else
          return {
            cleanup := ⟨settled.status, false, some settled.reason, settled.survivingPids⟩
            verifiedDaemonQuiescent := none
            launcherCleanup := some settled
            daemonIdentityUnavailable := settled.daemonIdentityUnavailable }

/-- Whether the handler goes on to `clear_verified_daemon_artifacts`. -/
def LaunchCleanup.clears (report : LaunchCleanup) : Bool :=
  report.verifiedDaemonQuiescent = some true && report.cleanup.verifiedQuiescent

section

variable {launcher bound : Option Birth} {released pidfilePresent : Bool} {terminated : Except String Cleanup}
  {parentLive : Except String Bool} {report : LaunchCleanup}

theorem not_clears_unbound
    (h : cleanupFailedLaunch.unbound released pidfilePresent parentLive launcher = .ok report) :
    report.clears = false := by
  unfold cleanupFailedLaunch.unbound at h
  split at h
  · cases h
    rfl
  · cases parentLive with
    | error error => cases h
    | ok live =>
        dsimp only [bind, Except.bind, pure, Except.pure] at h
        split at h <;> cases h <;> rfl

/-- The artifacts go only behind a bound daemon, when its termination and the wait for the launcher verified both. -/
theorem clears_cleanupFailedLaunch
    (h : cleanupFailedLaunch launcher released pidfilePresent bound terminated parentLive = .ok report)
    (hclears : report.clears = true) :
    ∃ birth daemon cleanup, launcher = some birth ∧ bound = some daemon ∧ released = true ∧
      terminated = .ok cleanup ∧ cleanup.verifiedQuiescent = true ∧ parentLive = .ok false := by
  have hbound : ∀ {launcher}, cleanupFailedLaunch.unbound released pidfilePresent parentLive launcher ≠ .ok report := by
    intro launcher hunbound
    rw [not_clears_unbound hunbound] at hclears
    cases hclears
  unfold cleanupFailedLaunch at h
  split at h
  · rename_i birth daemon
    split at h
    · rename_i hreleased
      cases h
      refine ⟨birth, daemon, ?_⟩
      cases terminated with
      | error error => simp [LaunchCleanup.clears, daemonCleanupRaised, Cleanup.unverified] at hclears
      | ok cleanup =>
          cases parentLive with
          | error error => simp [LaunchCleanup.clears, launcherSettleRaised] at hclears
          | ok live =>
              cases live with
              | true => simp [LaunchCleanup.clears, abortLauncher] at hclears
              | false =>
                  simp only [LaunchCleanup.clears, Bool.and_eq_true, decide_eq_true_eq, Option.some.injEq] at hclears
                  exact ⟨cleanup, rfl, rfl, hreleased, rfl, hclears.1, rfl⟩
    · exact absurd h hbound
  · exact absurd h hbound

end

namespace Environment

variable (env : Environment)

/-- `clear_verified_daemon_artifacts`; the pending record is the last, where the launch has its path. -/
def clearLaunchArtifacts (place : LaunchPlace) (pidfile : String) (pending : Bool) :
    Progress → Except String Unit × Progress :=
  env.unlinkAll ([place.socketPath, place.ownerPath, place.resolve pidfile] ++
    if pending then [place.pendingPath] else [])

end Environment

end Hearth.Criu
