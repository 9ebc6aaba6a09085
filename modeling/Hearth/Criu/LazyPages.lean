import Hearth.Criu.Daemon
import Mathlib.Data.List.Dedup

/-!
# Recovery of a lazy-pages launch

`recover_lazy_pages_launch` of `criu_lazy_pages_lifecycle.py`.  A launch leaves a pending
record until its owner record is published, and the launcher is reaped before that; so the
recovery that finds an owner record goes by the owner alone, and the one that finds none
looks at the launcher and at the daemon.

A record is what its reader accepts.  Paths are kept as they are written and resolved where
the source resolves them.
-/

namespace Hearth.Criu

/-! ## The records -/

/-- The state of a pending record; only a bound one names a daemon. -/
inductive PendingState
  | releaseAuthorized
  | daemonBound (daemon : Birth)

/-- `lazy-pages-launch.json`. -/
structure PendingRecord where
  socket : String
  pidfile : String
  log : String
  launcher : Birth
  state : PendingState

/-- `lazy-pages-owner.json`. -/
structure OwnerRecord where
  socket : String
  pidfile : String
  log : String
  daemon : Birth

/-- An image directory: its root, how paths resolve, and what its two records are read as. -/
structure Image where
  root : String
  resolve : String → ImageFile
  pending : Except String (Option PendingRecord)
  owner : Except String (Option OwnerRecord)

namespace Image

variable (image : Image)

def pendingPath : ImageFile := ⟨image.root, "lazy-pages-launch.json"⟩

def ownerPath : ImageFile := ⟨image.root, "lazy-pages-owner.json"⟩

def socketPath : ImageFile := ⟨image.root, "lazy-pages.socket"⟩

/-- `matching_owner`. -/
def matchingOwner (owner : OwnerRecord) (pending : PendingRecord) : Bool :=
  image.resolve owner.socket = image.resolve pending.socket &&
    image.resolve owner.pidfile = image.resolve pending.pidfile &&
    image.resolve owner.log = image.resolve pending.log

/-- A record of the directory names the daemon. -/
def Records (daemon : Birth) : Prop :=
  (∃ owner, image.owner = .ok (some owner) ∧ owner.daemon = daemon) ∨
    ∃ pending, image.pending = .ok (some pending) ∧ pending.state = .daemonBound daemon

end Image

/-! ## Removing files -/

namespace Environment

variable (env : Environment)

/-- `durable_unlink`. -/
def durableUnlink (file : ImageFile) (progress : Progress) : Except String Unit × Progress :=
  let after := { progress with unlinks := progress.unlinks + 1 }
  let removed := { after with files := progress.files.filter (· ≠ file) }
  if file ∈ progress.files then
    match env.unlink progress.unlinks with
    | .removed => (.ok (), removed)
    | .refused => (.error "OSError", after)
    | .unsynced => (.error "OSError", removed)
  else (.ok (), after)

/-- `durable_unlink` of one file after the other. -/
def unlinkAll : List ImageFile → Progress → Except String Unit × Progress
  | [], progress => (.ok (), progress)
  | file :: files, progress =>
      match env.durableUnlink file progress with
      | (.ok (), after) => unlinkAll files after
      | (.error error, after) => (.error error, after)

/-- The loop of `retire_prior_owner` over the fields of an owner record. -/
def unlinkFields (image : Image) :
    List (String × String) → Progress → Except String Unit × Progress
  | [], progress => (.ok (), progress)
  | (field, path) :: fields, progress =>
      if (image.resolve path).parent ≠ image.root then
        (.error s!"prior lazy-pages {field} escapes the CRIU image directory", progress)
      else
        match env.durableUnlink (image.resolve path) progress with
        | (.ok (), after) => unlinkFields image fields after
        | (.error error, after) => (.error error, after)

/-- `retire_prior_owner`. -/
def retirePriorOwner (image : Image) (owner : OwnerRecord) (progress : Progress) :
    Except String Cleanup × Progress :=
  match env.terminateOwnedDaemon owner.daemon progress with
  | (cleanup, ended) =>
      if cleanup.verifiedQuiescent then
        match env.unlinkFields image
            [("socket", owner.socket), ("pidfile", owner.pidfile), ("log", owner.log)] ended with
        | (.ok (), after) =>
            match env.durableUnlink image.ownerPath after with
            | (.ok (), last) => (.ok cleanup, last)
            | (.error error, last) => (.error error, last)
        | (.error error, after) => (.error error, after)
      else (.error "prior lazy-pages daemon cleanup is not verified quiescent", ended)

/-- `clear_verified_daemon_artifacts`. -/
def clearVerifiedDaemonArtifacts (image : Image) (pidfile : ImageFile) :
    Progress → Except String Unit × Progress :=
  env.unlinkAll [image.socketPath, image.ownerPath, pidfile, image.pendingPath]

end Environment

/-! ## The recovery -/

/-- What a recovery returns: its cleanup, and the status of its receipt, if it writes one. -/
structure Recovery where
  status : Option String
  cleanup : Cleanup
  deriving DecidableEq, Repr

namespace Environment

variable (env : Environment)

/-- `write_recovery_receipt`, and the result of the recovery. -/
def conclude (status : String) (cleanup : Cleanup) (progress : Progress) :
    Except String Recovery × Progress :=
  if env.receipt then (.ok ⟨some status, cleanup⟩, progress) else (.error "OSError", progress)

/-- `_recover_with_owner`. -/
def recoverWithOwner (image : Image) (pending : PendingRecord) (owner : OwnerRecord)
    (progress : Progress) : Except String Recovery × Progress :=
  if image.matchingOwner owner pending then
    match env.check owner.daemon progress with
    | (.exact, checked) =>
        let cleanup : Cleanup := ⟨"owner_ready", false,
          some "published owner is live; only stale pending intent was removed", []⟩
        match env.durableUnlink image.pendingPath checked with
        | (.ok (), after) => env.conclude "owner_ready_pending_cleared" cleanup after
        | (.error _, after) => env.conclude "owner_ready_pending_retained" cleanup after
    | (.unavailable, checked) =>
        env.conclude "blocked_owner_unavailable"
          (.unverified "published owner daemon identity is unavailable during recovery"
            [owner.daemon.pid]) checked
    | (_, checked) =>
        match env.retirePriorOwner image owner checked with
        | (.error error, after) => (.error error, after)
        | (.ok cleanup, retired) =>
            match env.durableUnlink image.pendingPath retired with
            | (.ok (), after) => env.conclude "stale_owner_cleared" cleanup after
            | (.error _, after) => env.conclude "stale_owner_clean_pending_retained" cleanup after
  else
    env.conclude "blocked_owner_mismatch"
      (.unverified "pending intent does not match the published owner artifacts"
        [owner.daemon.pid]) progress

/-- What is known of the daemon of a pending record before the launcher is taken into account. -/
def settleDaemon (daemon : Birth) (progress : Progress) : Cleanup × Progress :=
  match env.check daemon progress with
  | (.exact, checked) => env.terminateOwnedDaemon daemon checked
  | (.unavailable, checked) =>
      (.unverified "persisted daemon birth identity is unavailable" [daemon.pid], checked)
  | (liveness, checked) =>
      (.quiescent (some s!"persisted daemon birth identity is {liveness.text}"), checked)

/-- `_recover_without_owner`. -/
def recoverWithoutOwner (image : Image) (pending : PendingRecord) (progress : Progress) :
    Except String Recovery × Progress :=
  match env.check pending.launcher progress with
  | (launcher, looked) =>
      match pending.state with
      | .releaseAuthorized =>
          env.conclude "blocked_missing_daemon_identity"
            (.unverified
              "pending launch has no persisted daemon birth identity; pidfile PID is not kill authority"
              (if launcher.settled then [] else [pending.launcher.pid])) looked
      | .daemonBound daemon =>
          match env.settleDaemon daemon looked with
          | (cleanup, settled) =>
              let joint : Cleanup :=
                { cleanup with
                  verifiedQuiescent := cleanup.verifiedQuiescent && launcher.settled
                  survivingPids :=
                    if launcher.settled then cleanup.survivingPids
                    else ((pending.launcher.pid :: cleanup.survivingPids).dedup).mergeSort (· ≤ ·) }
              if joint.verifiedQuiescent then
                match env.clearVerifiedDaemonArtifacts image (image.resolve pending.pidfile) settled with
                | (.ok (), after) => env.conclude "recovered" joint after
                | (.error _, after) => env.conclude "cleanup_verified_artifacts_retained" joint after
              else env.conclude "blocked_survivors" joint settled

/-- `recover_lazy_pages_launch`. -/
def recoverLazyPagesLaunch (image : Image) (progress : Progress) :
    Except String Recovery × Progress :=
  match image.pending with
  | .error error => (.error error, progress)
  | .ok none => (.ok ⟨none, ⟨"clear", false, none, []⟩⟩, progress)
  | .ok (some pending) =>
      match image.owner with
      | .error error => (.error error, progress)
      | .ok none => env.recoverWithoutOwner image pending progress
      | .ok (some owner) => env.recoverWithOwner image pending owner progress

end Environment

/-! ## What a removal leaves alone -/

/-- Files are removed, and nothing else is done. -/
structure Unlinks (before after : Progress) : Prop where
  checks : after.checks = before.checks
  signalled : after.signalled = before.signalled

/-- The recovery may remove the file: it is the pending record of a live owner, or the recorded
daemon was found gone or replaced at the last check, by the route that goes by it. -/
inductive Cleared (env : Environment) (image : Image) (before after : Progress) (file : ImageFile) :
    Prop
  | ownerLive {pending : PendingRecord} {owner : OwnerRecord}
      (hpending : image.pending = .ok (some pending)) (howner : image.owner = .ok (some owner))
      (hmatch : image.matchingOwner owner pending = true)
      (hlive : (env.check owner.daemon before).1 = .exact) (hfile : file = image.pendingPath) :
      Cleared env image before after file
  | ownerSettled {pending : PendingRecord} {owner : OwnerRecord}
      (hpending : image.pending = .ok (some pending)) (howner : image.owner = .ok (some owner))
      (hmatch : image.matchingOwner owner pending = true)
      (hfirst : (env.check owner.daemon before).1.settled = true)
      (hsettled : env.Settled owner.daemon after) : Cleared env image before after file
  | daemonSettled {pending : PendingRecord} {daemon : Birth}
      (hpending : image.pending = .ok (some pending)) (howner : image.owner = .ok none)
      (hstate : pending.state = .daemonBound daemon)
      (hlauncher : (env.check pending.launcher before).1.settled = true)
      (hsettled : env.Settled daemon after) : Cleared env image before after file

section

variable {env : Environment} {image : Image} {before middle after progress : Progress}
  {daemon : Birth} {file : ImageFile}

theorem Unlinks.refl : Unlinks before before :=
  ⟨rfl, rfl⟩

theorem Unlinks.trans (h : Unlinks before middle) (h' : Unlinks middle after) :
    Unlinks before after :=
  ⟨h'.checks.trans h.checks, h'.signalled.trans h.signalled⟩

theorem Unlinks.settled (h : Unlinks before after) (hsettled : env.Settled daemon before) :
    env.Settled daemon after := by
  obtain ⟨last, hlast, hanswer⟩ := hsettled
  exact ⟨last, h.checks.trans hlast, hanswer⟩

theorem durableUnlink_unlinks : Unlinks progress (env.durableUnlink file progress).2 := by
  unfold Environment.durableUnlink
  dsimp only
  split
  · split <;> exact ⟨rfl, rfl⟩
  · exact ⟨rfl, rfl⟩

/-- A removal takes no other file. -/
theorem durableUnlink_other {other : ImageFile} (hmem : other ∈ progress.files)
    (hgone : other ∉ (env.durableUnlink file progress).2.files) : other = file := by
  by_contra hne
  have hkept : other ∈ progress.files.filter (· ≠ file) :=
    List.mem_filter.mpr ⟨hmem, decide_eq_true hne⟩
  apply hgone
  unfold Environment.durableUnlink
  dsimp only
  split
  · split
    · exact hkept
    · exact hmem
    · exact hkept
  · exact hmem

theorem unlinkAll_unlinks {files : List ImageFile} :
    Unlinks progress (env.unlinkAll files progress).2 := by
  induction files generalizing progress with
  | nil => exact .refl
  | cons file files ih =>
      unfold Environment.unlinkAll
      have hone := @durableUnlink_unlinks env progress file
      split
      · rename_i removed hremoved
        rw [hremoved] at hone
        exact hone.trans ih
      · rename_i error removed hremoved
        rw [hremoved] at hone
        exact hone

theorem unlinkFields_unlinks {fields : List (String × String)} :
    Unlinks progress (env.unlinkFields image fields progress).2 := by
  induction fields generalizing progress with
  | nil => exact .refl
  | cons field fields ih =>
      unfold Environment.unlinkFields
      split
      · exact .refl
      · have hone := @durableUnlink_unlinks env progress (image.resolve field.2)
        split
        · rename_i removed hremoved
          rw [hremoved] at hone
          exact hone.trans ih
        · rename_i error removed hremoved
          rw [hremoved] at hone
          exact hone

/-! ## The two routes -/

/-- Signals go to the daemon, and files go only when it is settled. -/
structure Retires (env : Environment) (daemon : Birth) (before after : Progress) : Prop where
  signalled : ∀ signal ∈ after.signalled, signal ∈ before.signalled ∨
    signal.1 = daemon.pid ∧ signal.2.startTicks = daemon.startTicks
  files : after.files = before.files ∨ env.Settled daemon after

theorem Attends.retires (h : Attends daemon before after) : Retires env daemon before after :=
  ⟨h.signalled, .inl h.files⟩

/-- Files are removed after the daemon was settled. -/
theorem Attends.unlinks (h : Attends daemon before middle) (hsettled : env.Settled daemon middle)
    (h' : Unlinks middle after) : Retires env daemon before after := by
  refine ⟨?_, .inr (h'.settled hsettled)⟩
  intro signal hsignal
  rw [h'.signalled] at hsignal
  exact h.signalled signal hsignal

theorem retirePriorOwner_retires {owner : OwnerRecord} :
    Retires env owner.daemon progress (env.retirePriorOwner image owner progress).2 ∧
      ∀ cleanup, (env.retirePriorOwner image owner progress).1 = .ok cleanup →
        cleanup.verifiedQuiescent = true ∧
          env.Settled owner.daemon (env.retirePriorOwner image owner progress).2 := by
  have hterminates := @terminateOwnedDaemon_terminates env owner.daemon progress
  unfold Environment.retirePriorOwner
  split
  rename_i cleanup ended hended
  rw [hended] at hterminates
  split
  · rename_i hverified
    have hsettled := hterminates.settled hverified
    have hfields := @unlinkFields_unlinks env image ended
      [("socket", owner.socket), ("pidfile", owner.pidfile), ("log", owner.log)]
    split
    · rename_i removed hremoved
      rw [hremoved] at hfields
      have hone := @durableUnlink_unlinks env removed image.ownerPath
      split
      · rename_i last hlast
        rw [hlast] at hone
        have hall := hfields.trans hone
        refine ⟨hterminates.attends.unlinks hsettled hall, ?_⟩
        rintro _ ⟨⟩
        exact ⟨hverified, hall.settled hsettled⟩
      · rename_i error last hlast
        rw [hlast] at hone
        exact ⟨hterminates.attends.unlinks hsettled (hfields.trans hone), nofun⟩
    · rename_i error removed hremoved
      rw [hremoved] at hfields
      exact ⟨hterminates.attends.unlinks hsettled hfields, nofun⟩
  · exact ⟨hterminates.attends.retires, nofun⟩

theorem settleDaemon_terminates : Terminates env daemon progress (env.settleDaemon daemon progress) := by
  have hattends := check_attends env daemon progress
  have hsettled := @check_settled env daemon progress
  unfold Environment.settleDaemon
  split
  · rename_i checked hcheck
    rw [hcheck] at hattends
    exact terminateOwnedDaemon_terminates.later hattends
  · rename_i checked hcheck
    rw [hcheck] at hattends
    exact ⟨hattends, nofun⟩
  · rename_i liveness checked hexact hunavailable hcheck
    rw [hcheck] at hattends hsettled
    refine ⟨hattends, fun _ => hsettled ?_⟩
    cases liveness with
    | gone | replaced => rfl
    | exact => exact absurd rfl hexact
    | unavailable => exact absurd rfl hunavailable

theorem conclude_progress {status : String} {cleanup : Cleanup} :
    (env.conclude status cleanup progress).2 = progress := by
  unfold Environment.conclude
  split <;> rfl

theorem conclude_cleanup {status : String} {cleanup : Cleanup} {recovery : Recovery}
    (h : (env.conclude status cleanup progress).1 = .ok recovery) : recovery.cleanup = cleanup := by
  unfold Environment.conclude at h
  split at h
  · cases h
    rfl
  · cases h

/-- What a recovery keeps to: removals are cleared, signals are bound to a record, and files stay
where it reports anything unverified but a live owner. -/
structure Recovers (env : Environment) (image : Image) (before : Progress)
    (result : Except String Recovery × Progress) : Prop where
  cleared : ∀ file ∈ before.files, file ∉ result.2.files → Cleared env image before result.2 file
  signalled : ∀ signal ∈ result.2.signalled, signal ∈ before.signalled ∨
    ∃ daemon, image.Records daemon ∧ signal.1 = daemon.pid ∧ signal.2.startTicks = daemon.startTicks
  kept : ∀ recovery, result.1 = .ok recovery → recovery.cleanup.verifiedQuiescent = false →
    recovery.cleanup.status ≠ "owner_ready" → result.2.files = before.files

/-- No file was touched. -/
theorem Attends.recovers (h : Attends daemon before after) (hrecords : image.Records daemon)
    {status : String} {cleanup : Cleanup} :
    Recovers env image before (env.conclude status cleanup after) := by
  refine ⟨?_, ?_, ?_⟩
  · rw [conclude_progress, h.files]
    exact fun file hmem hgone => absurd hmem hgone
  · rw [conclude_progress]
    intro signal hsignal
    exact (h.signalled signal hsignal).imp id fun hbound => ⟨daemon, hrecords, hbound⟩
  · rw [conclude_progress]
    exact fun _ _ _ _ => h.files

/-- A live owner: only the pending record goes. -/
theorem recovers_live {pending : PendingRecord} {owner : OwnerRecord}
    (hpending : image.pending = .ok (some pending)) (howner : image.owner = .ok (some owner))
    (hmatch : image.matchingOwner owner pending = true)
    (hlive : (env.check owner.daemon before).1 = .exact) {status : String} {cleanup : Cleanup}
    (hcleanup : cleanup.status = "owner_ready")
    (hafter : after = (env.durableUnlink image.pendingPath (env.check owner.daemon before).2).2) :
    Recovers env image before (env.conclude status cleanup after) := by
  have hunlinks := @durableUnlink_unlinks env (env.check owner.daemon before).2 image.pendingPath
  refine ⟨?_, ?_, ?_⟩
  · rw [conclude_progress]
    intro file hmem hgone
    rw [hafter] at hgone
    have hchecked : file ∈ (env.check owner.daemon before).2.files := hmem
    exact .ownerLive hpending howner hmatch hlive (durableUnlink_other hchecked hgone)
  · rw [conclude_progress, hafter, hunlinks.signalled]
    exact fun _ => .inl
  · intro recovery hrecovery _ hstatus
    rw [conclude_cleanup hrecovery] at hstatus
    exact absurd hcleanup hstatus

/-- A settled owner: whatever goes, the daemon was found gone or replaced before. -/
theorem recovers_settled {pending : PendingRecord} {owner : OwnerRecord}
    (hpending : image.pending = .ok (some pending)) (howner : image.owner = .ok (some owner))
    (hmatch : image.matchingOwner owner pending = true)
    (hfirst : (env.check owner.daemon before).1.settled = true)
    (hretires : Retires env owner.daemon (env.check owner.daemon before).2 after)
    {result : Except String Recovery} (hverified : ∀ recovery, result = .ok recovery →
      recovery.cleanup.verifiedQuiescent = true) : Recovers env image before (result, after) := by
  refine ⟨?_, ?_, ?_⟩
  · intro file hmem hgone
    rcases hretires.files with hsame | hsettled
    · exact absurd (show file ∈ after.files from hsame ▸ hmem) hgone
    · exact .ownerSettled hpending howner hmatch hfirst hsettled
  · intro signal hsignal
    exact (hretires.signalled signal hsignal).imp id fun hbound =>
      ⟨owner.daemon, .inl ⟨owner, howner, rfl⟩, hbound⟩
  · intro recovery hrecovery hunverified
    rw [hverified recovery hrecovery] at hunverified
    cases hunverified

/-- The pending record goes after the owner. -/
theorem Retires.unlink (h : Retires env daemon before middle) (hsettled : env.Settled daemon middle)
    (h' : Unlinks middle after) : Retires env daemon before after := by
  refine ⟨?_, .inr (h'.settled hsettled)⟩
  rw [h'.signalled]
  exact h.signalled

theorem recoverWithOwner_recovers {pending : PendingRecord} {owner : OwnerRecord}
    (hpending : image.pending = .ok (some pending)) (howner : image.owner = .ok (some owner)) :
    Recovers env image progress (env.recoverWithOwner image pending owner progress) := by
  have hrecords : image.Records owner.daemon := .inl ⟨owner, howner, rfl⟩
  have hlooked := check_attends env owner.daemon progress
  unfold Environment.recoverWithOwner
  split
  · rename_i hmatch
    split
    · rename_i checked hcheck
      have hlive : (env.check owner.daemon progress).1 = .exact := by rw [hcheck]
      have hchecked : checked = (env.check owner.daemon progress).2 := by rw [hcheck]
      subst hchecked
      dsimp only
      split
      · rename_i after hafter
        exact recovers_live hpending howner hmatch hlive rfl (by rw [hafter])
      · rename_i after hafter
        exact recovers_live hpending howner hmatch hlive rfl (by rw [hafter])
    · rename_i checked hcheck
      rw [hcheck] at hlooked
      exact hlooked.recovers hrecords
    · rename_i liveness checked hexact hunavailable hcheck
      have hfirst : (env.check owner.daemon progress).1.settled = true := by
        rw [hcheck]
        cases liveness with
        | gone | replaced => rfl
        | exact => exact absurd rfl hexact
        | unavailable => exact absurd rfl hunavailable
      have hchecked : checked = (env.check owner.daemon progress).2 := by rw [hcheck]
      subst hchecked
      obtain ⟨hretires, hok⟩ := @retirePriorOwner_retires env image
        (env.check owner.daemon progress).2 owner
      split
      · rename_i error after hafter
        rw [hafter] at hretires
        exact recovers_settled hpending howner hmatch hfirst hretires nofun
      · rename_i cleanup retired hretired
        rw [hretired] at hretires hok
        obtain ⟨hverified, hsettled⟩ := hok cleanup rfl
        have hunlinks := @durableUnlink_unlinks env retired image.pendingPath
        -- Whatever the removal of the pending record meets, the owner is settled.
        have hconclude : ∀ {status : String} {last : Progress}, Unlinks retired last →
            Recovers env image progress (env.conclude status cleanup last) := by
          intro status last hlast
          have hpair : env.conclude status cleanup last = ((env.conclude status cleanup last).1, last) :=
            Prod.ext rfl conclude_progress
          rw [hpair]
          refine recovers_settled hpending howner hmatch hfirst (hretires.unlink hsettled hlast) ?_
          intro recovery hrecovery
          rw [conclude_cleanup hrecovery]
          exact hverified
        split
        · rename_i last hlast
          rw [hlast] at hunlinks
          exact hconclude hunlinks
        · rename_i error last hlast
          rw [hlast] at hunlinks
          exact hconclude hunlinks
  · exact Attends.refl.recovers hrecords

theorem recoverWithoutOwner_recovers {pending : PendingRecord}
    (hpending : image.pending = .ok (some pending)) (howner : image.owner = .ok none) :
    Recovers env image progress (env.recoverWithoutOwner image pending progress) := by
  have hlooked : ∀ daemon, Attends daemon progress (env.check pending.launcher progress).2 :=
    fun _ => ⟨rfl, Nat.le_succ _, fun _ => .inl⟩
  unfold Environment.recoverWithoutOwner
  split
  rename_i launcher looked hlaunched
  have hlauncher : (env.check pending.launcher progress).1 = launcher := by rw [hlaunched]
  rw [hlaunched] at hlooked
  split
  · refine ⟨?_, ?_, ?_⟩
    · rw [conclude_progress]
      intro file hmem hgone
      exact absurd (show file ∈ looked.files from (hlooked pending.launcher).files ▸ hmem) hgone
    · rw [conclude_progress]
      intro signal hsignal
      have hsame : looked.signalled = progress.signalled := by
        have := congrArg (fun result => result.2.signalled) hlaunched
        exact this.symm
      rw [hsame] at hsignal
      exact .inl hsignal
    · rw [conclude_progress]
      exact fun _ _ _ _ => (hlooked pending.launcher).files
  · rename_i daemon hstate
    have hrecords : image.Records daemon := .inr ⟨pending, hpending, hstate⟩
    have hterminates := (@settleDaemon_terminates env looked daemon).later (hlooked daemon)
    split
    rename_i cleanup settled hsettle
    rw [hsettle] at hterminates
    dsimp only
    split
    · rename_i hjoint
      obtain ⟨hverified, hgone⟩ := Bool.and_eq_true_iff.mp hjoint
      have hdaemon := hterminates.settled hverified
      have hfirst : (env.check pending.launcher progress).1.settled = true := by
        rw [hlauncher]
        exact hgone
      have hunlinks : Unlinks settled
          (env.clearVerifiedDaemonArtifacts image (image.resolve pending.pidfile) settled).2 :=
        unlinkAll_unlinks
      have hconclude : ∀ {status : String} {joint : Cleanup} {last : Progress},
          joint.verifiedQuiescent = true → Unlinks settled last →
            Recovers env image progress (env.conclude status joint last) := by
        intro status joint last hjointVerified hlast
        have hretires := hterminates.attends.unlinks hdaemon hlast
        refine ⟨?_, ?_, ?_⟩
        · rw [conclude_progress]
          exact fun file _ _ =>
            .daemonSettled hpending howner hstate hfirst (hlast.settled hdaemon)
        · rw [conclude_progress]
          intro signal hsignal
          exact (hretires.signalled signal hsignal).imp id fun hbound => ⟨daemon, hrecords, hbound⟩
        · intro recovery hrecovery hunverified
          rw [conclude_cleanup hrecovery, hjointVerified] at hunverified
          cases hunverified
      split
      · rename_i last hlast
        rw [hlast] at hunlinks
        exact hconclude hjoint hunlinks
      · rename_i error last hlast
        rw [hlast] at hunlinks
        exact hconclude hjoint hunlinks
    · exact hterminates.attends.recovers hrecords

theorem recoverLazyPagesLaunch_recovers :
    Recovers env image progress (env.recoverLazyPagesLaunch image progress) := by
  have hnothing : ∀ {result : Except String Recovery}, Recovers env image progress (result, progress) :=
    ⟨fun file hmem hgone => absurd hmem hgone, fun _ => .inl, fun _ _ _ _ => rfl⟩
  unfold Environment.recoverLazyPagesLaunch
  split
  · exact hnothing
  · exact hnothing
  · rename_i pending hpending
    split
    · exact hnothing
    · rename_i howner
      exact recoverWithoutOwner_recovers hpending howner
    · rename_i owner howner
      exact recoverWithOwner_recovers hpending howner

end

/-- **A recovery clears only what is settled.**  For all records and all answers: a file goes only
if it is the pending record of a matching owner that is live, or a matching owner was found gone
or replaced at the first check and at the last, or there is no owner, the launcher was found gone
or replaced and so was, at the last check, the daemon of the pending record; a process is signalled
only with the pid and the start ticks of a daemon of a record; and where the cleanup that is
reported is neither verified nor that of a live owner, every file stays. -/
theorem lazy_pages_recovery_clears_settled (env : Environment) (image : Image) (before : Progress) :
    (∀ file ∈ before.files, file ∉ (env.recoverLazyPagesLaunch image before).2.files →
      Cleared env image before (env.recoverLazyPagesLaunch image before).2 file) ∧
    (∀ signal ∈ (env.recoverLazyPagesLaunch image before).2.signalled,
      signal ∈ before.signalled ∨ ∃ daemon, image.Records daemon ∧ signal.1 = daemon.pid ∧
        signal.2.startTicks = daemon.startTicks) ∧
    ∀ recovery, (env.recoverLazyPagesLaunch image before).1 = .ok recovery →
      recovery.cleanup.verifiedQuiescent = false → recovery.cleanup.status ≠ "owner_ready" →
        (env.recoverLazyPagesLaunch image before).2.files = before.files := by
  have hrecovers := @recoverLazyPagesLaunch_recovers env image before
  exact ⟨hrecovers.cleared, hrecovers.signalled, hrecovers.kept⟩

/-! ### A launch whose daemon was bound, and one with a live owner -/

def sampleLauncher : Birth := ⟨700, 41, by decide, by decide⟩

def sampleDaemon : Birth := ⟨703, 44, by decide, by decide⟩

def samplePending (state : PendingState) : PendingRecord where
  socket := "lazy-pages.socket"
  pidfile := "lazy-pages-1.pid"
  log := "lazy-pages-1.log"
  launcher := sampleLauncher
  state := state

def sampleOwner : OwnerRecord where
  socket := "lazy-pages.socket"
  pidfile := "lazy-pages-1.pid"
  log := "lazy-pages-1.log"
  daemon := sampleDaemon

def sampleImage (state : PendingState) (owner : Option OwnerRecord) : Image where
  root := "/criu/a"
  resolve := fun name => ⟨"/criu/a", name⟩
  pending := .ok (some (samplePending state))
  owner := .ok owner

/-- Every look at the launcher and at the daemon finds the recorded process, or nobody. -/
def sampleEnvironment (alive : Bool) : Environment where
  probe := fun _ pid =>
    let ticks := if pid = 700 then 41 else 44
    ⟨alive, some ticks, some (linuxProc ticks)⟩
  helper := fun _ =>
    { history := ⟨fun _ => none, nofun⟩
      opened := 0
      read := 0
      sent := 0
      read_ge := Nat.le_refl 0
      sent_ge := Nat.le_refl 0
      unstarted := false
      unreadable := false
      lost := false }
  looks := fun _ => 0
  unlink := fun _ => .removed
  receipt := true

def sampleProgress : Progress where
  checks := 0
  helpers := 0
  waits := 0
  unlinks := 0
  signalled := []
  files := [⟨"/criu/a", "lazy-pages-launch.json"⟩]

theorem lazy_pages_recovery_clears_settled_bound :
    Cleared (sampleEnvironment false) (sampleImage (.daemonBound sampleDaemon) none) sampleProgress
      ((sampleEnvironment false).recoverLazyPagesLaunch
        (sampleImage (.daemonBound sampleDaemon) none) sampleProgress).2
      ⟨"/criu/a", "lazy-pages-launch.json"⟩ :=
  (lazy_pages_recovery_clears_settled (sampleEnvironment false)
    (sampleImage (.daemonBound sampleDaemon) none) sampleProgress).1 _ (.head _) (by decide +kernel)

/-- The owner is live, and so is the launcher: the pending record goes. -/
theorem lazy_pages_recovery_passes_launcher :
    (sampleImage .releaseAuthorized (some sampleOwner)).pendingPath ∈ sampleProgress.files ∧
    (sampleImage .releaseAuthorized (some sampleOwner)).pendingPath ∉
      ((sampleEnvironment true).recoverLazyPagesLaunch
        (sampleImage .releaseAuthorized (some sampleOwner)) sampleProgress).2.files ∧
    ∀ check, daemonLiveness sampleLauncher
      ((sampleEnvironment true).probe check sampleLauncher.pid) = .exact := by
  refine ⟨.head _, by decide +kernel, ?_⟩
  intro check
  simp [daemonLiveness, sampleEnvironment, sampleLauncher]

end Hearth.Criu
