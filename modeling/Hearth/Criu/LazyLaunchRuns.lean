import Hearth.Criu.LazyLaunch
import Hearth.Library.Transition

/-!
# Runs of lazy-pages launches

`launch_lazy_pages_internal` of `criu_lazy_pages_launcher.py` as a machine: between any two of its
effects it can be interrupted, and the processes it started go on meanwhile.  The image lock keeps
launches and recoveries of one directory apart, so a run is any number of them, one after the other,
each cut short anywhere.

A released launcher forks at most one daemon, and a daemon names itself in the pidfile of its launch;
this is what `criu lazy-pages -d` does.
-/

namespace Hearth.Criu

open Hearth.Library

deriving instance DecidableEq for Birth

/-! ## The directory and its processes -/

/-- What a running process is to the image directory. -/
inductive LaunchRole (place : LaunchPlace)
  /-- A launcher in front of its gate. -/
  | gated
  /-- A launcher that was released, and whether it has forked its daemon. -/
  | released (paths : LaunchPaths place) (forked : Bool)
  | daemon (paths : LaunchPaths place)
  | foreign

/-- The two records, the other files, what the pidfiles say, and the processes that run; `used` are the births so
far. -/
structure LaunchWorld (place : LaunchPlace) where
  pending : Option PendingRecord
  owner : Option OwnerRecord
  artifacts : List ImageFile
  pidfiles : List (ImageFile × ℕ)
  running : Birth → Option (LaunchRole place)
  used : List Birth

namespace LaunchWorld

variable {place : LaunchPlace} (world : LaunchWorld place)

/-- The files of the directory. -/
def files : List ImageFile :=
  world.artifacts ++ world.pidfiles.map Prod.fst ++ (if world.pending.isSome then [place.pendingPath] else []) ++
    if world.owner.isSome then [place.ownerPath] else []

/-- The directory with these of its files left. -/
def restrict (files : List ImageFile) : LaunchWorld place :=
  { world with
    pending := if place.pendingPath ∈ files then world.pending else none
    owner := if place.ownerPath ∈ files then world.owner else none
    artifacts := world.artifacts.filter (· ∈ files)
    pidfiles := world.pidfiles.filter fun entry => entry.1 ∈ files }

/-- The process has this role from now on. -/
def become (birth : Birth) (role : Option (LaunchRole place)) : LaunchWorld place :=
  { world with running := Function.update world.running birth role }

/-- A new process. -/
def start (birth : Birth) (role : LaunchRole place) : LaunchWorld place :=
  { world.become birth (some role) with used := birth :: world.used }

/-- A birth that was not seen before, with a pid that nobody has. -/
def Fresh (birth : Birth) : Prop :=
  birth ∉ world.used ∧ ∀ other, world.running other ≠ none → other.pid ≠ birth.pid

/-- The process was released and is still there. -/
def Launching (birth : Birth) : Prop :=
  ∃ paths forked, world.running birth = some (.released paths forked)

/-- The process was released and can still fork a daemon. -/
def Forking (birth : Birth) : Prop :=
  ∃ paths, world.running birth = some (.released paths false)

/-- The process is a daemon. -/
def Serving (birth : Birth) : Prop :=
  ∃ paths, world.running birth = some (.daemon paths)

/-- There is no released launcher and no daemon. -/
def Quiet : Prop :=
  ∀ birth, ¬ world.Launching birth ∧ ¬ world.Serving birth

/-- There is no released launcher, and no other daemon. -/
def Only (daemon : Birth) : Prop :=
  ∀ birth, ¬ world.Launching birth ∧ (world.Serving birth → birth = daemon)

/-- A pidfile names the one daemon there can be. -/
def Named : Prop :=
  ∀ entry ∈ world.pidfiles, ∀ birth, ¬ world.Forking birth ∧ (world.Serving birth → birth.pid = entry.2)

/-- Who is found gone by a check is not running any more. -/
def Truthful (env : Environment) : Prop :=
  ∀ check birth, (daemonLiveness birth (env.probe check birth.pid)).settled = true → world.running birth = none

end LaunchWorld

/-! ## The transaction -/

/-- Where `launch_lazy_pages_internal` is: the next thing it does, or the handler of its failure. -/
inductive LaunchPoint
  /-- Nobody holds the image lock. -/
  | idle
  | preflight
  | spawn
  /-- In `start`, with the child. -/
  | spawned (child : Birth)
  | publication
  /-- The pending record is written; `pending` is not assigned. -/
  | authorized
  | gateRelease
  /-- The byte is written; `released` is not set. -/
  | opened
  | statusWait | parentReap | daemonBind | daemonHandoff | ownerPublication
  /-- The owner record is written, still under the handler. -/
  | published
  /-- Behind the handler, in front of the removal of the pending record. -/
  | committed
  | failed
  /-- Behind `cleanup_failed_launch`, with what it makes of the artifacts. -/
  | receipt (clears : Bool)
  | clearing
  deriving DecidableEq

/-- The points under the handler. -/
def LaunchPoint.guarded : LaunchPoint → Bool
  | .idle | .committed | .failed | .receipt _ | .clearing => false
  | _ => true

/-- The local variables of the launch, and the directory; `released` is the field of the launcher, `pendingKnown`
whether `pending` was assigned. -/
structure LaunchState (place : LaunchPlace) where
  point : LaunchPoint
  paths : LaunchPaths place
  launcher : Option Birth
  released : Bool
  pendingKnown : Bool
  daemon : Option Birth
  world : LaunchWorld place

/-- Whose step it is. -/
inductive LaunchAct
  | launch | world | recovery
  deriving DecidableEq

variable {place : LaunchPlace}

/-- The pending record of a launch. -/
def LaunchPaths.pendingRecord (paths : LaunchPaths place) (launcher : Birth) : PendingRecord where
  socket := place.socket
  pidfile := paths.pidfile
  log := paths.log
  launcher := launcher
  state := .releaseAuthorized

/-- The owner record of a launch. -/
def LaunchPaths.ownerRecord (paths : LaunchPaths place) (daemon : Birth) : OwnerRecord where
  socket := place.socket
  pidfile := paths.pidfile
  log := paths.log
  daemon := daemon

/-- What the processes do by themselves. -/
inductive WorldStep : LaunchWorld place → LaunchWorld place → Prop
  | exit {world : LaunchWorld place} (birth : Birth) : WorldStep world (world.become birth none)
  | birth {world : LaunchWorld place} {birth : Birth} (hfresh : world.Fresh birth) :
      WorldStep world (world.start birth .foreign)
  | fork {world : LaunchWorld place} {launcher daemon : Birth} {paths : LaunchPaths place}
      (hlauncher : world.running launcher = some (.released paths false)) (hfresh : world.Fresh daemon) :
      WorldStep world ((world.become launcher (some (.released paths true))).start daemon (.daemon paths))
  /-- CRIU makes its socket and its log. -/
  | write {world : LaunchWorld place} {birth : Birth} {paths : LaunchPaths place} {file : ImageFile}
      (hbirth : world.running birth = some (.daemon paths) ∨
        ∃ forked, world.running birth = some (.released paths forked))
      (hfile : file = place.socketPath ∨ file = place.resolve paths.log) :
      WorldStep world { world with artifacts := file :: world.artifacts }
  | name {world : LaunchWorld place} {daemon : Birth} {paths : LaunchPaths place}
      (hdaemon : world.running daemon = some (.daemon paths)) :
      WorldStep world { world with
        pidfiles := (place.resolve paths.pidfile, daemon.pid) ::
          world.pidfiles.filter fun entry => entry.1 ≠ place.resolve paths.pidfile }

/-- One effect of a launch, a step of the processes, or a recovery.  A recovery is one step: what the processes do
meanwhile comes before it or after it, and who it finds gone stays gone. -/
inductive LaunchStep : LaunchState place → LaunchAct → LaunchState place → Prop
  | begin {s : LaunchState place} (paths : LaunchPaths place) (hpoint : s.point = .idle) :
      LaunchStep s .launch { s with
        point := .preflight, paths := paths, launcher := none, released := false, pendingKnown := false, daemon := none }
  | prepared {s : LaunchState place} {env : Environment} {before after : Progress} {result : Option Cleanup}
      (hpoint : s.point = .preflight) (htruthful : s.world.Truthful env) (hfiles : before.files = s.world.files)
      (hprepare : env.prepareLaunch place s.world.owner s.paths.pidfile before = (.ok result, after)) :
      LaunchStep s .launch { s with point := .spawn, world := s.world.restrict after.files }
  | refused {s : LaunchState place} {env : Environment} {before after : Progress} {error : String}
      (hpoint : s.point = .preflight) (htruthful : s.world.Truthful env) (hfiles : before.files = s.world.files)
      (hprepare : env.prepareLaunch place s.world.owner s.paths.pidfile before = (.error error, after)) :
      LaunchStep s .launch { s with point := .failed, world := s.world.restrict after.files }
  | popen {s : LaunchState place} {child : Birth} (hpoint : s.point = .spawn) (hfresh : s.world.Fresh child) :
      LaunchStep s .launch { s with point := .spawned child, world := s.world.start child .gated }
  | started {s : LaunchState place} {child : Birth} (hpoint : s.point = .spawned child) :
      LaunchStep s .launch { s with point := .publication, launcher := some child }
  | authorize {s : LaunchState place} {launcher : Birth} (hpoint : s.point = .publication)
      (hlauncher : s.launcher = some launcher) :
      LaunchStep s .launch { s with
        point := .authorized, world := { s.world with pending := some (s.paths.pendingRecord launcher) } }
  | acknowledge {s : LaunchState place} (hpoint : s.point = .authorized) :
      LaunchStep s .launch { s with point := .gateRelease, pendingKnown := true }
  /-- The byte goes through only while the launcher reads the gate. -/
  | openGate {s : LaunchState place} {launcher : Birth} (hpoint : s.point = .gateRelease)
      (hlauncher : s.launcher = some launcher) (hgated : s.world.running launcher = some .gated) :
      LaunchStep s .launch { s with
        point := .opened, world := s.world.become launcher (some (.released s.paths false)) }
  | release {s : LaunchState place} (hpoint : s.point = .opened) :
      LaunchStep s .launch { s with point := .statusWait, released := true }
  | observe {s : LaunchState place} (hpoint : s.point = .statusWait) :
      LaunchStep s .launch { s with point := .parentReap }
  | reap {s : LaunchState place} {launcher : Birth} (hpoint : s.point = .parentReap)
      (hlauncher : s.launcher = some launcher) (hgone : s.world.running launcher = none) :
      LaunchStep s .launch { s with point := .daemonBind }
  /-- Whoever has the pid of the pidfile is bound. -/
  | bind {s : LaunchState place} {daemon : Birth} (hpoint : s.point = .daemonBind)
      (hpid : (place.resolve s.paths.pidfile, daemon.pid) ∈ s.world.pidfiles)
      (hlive : s.world.running daemon ≠ none) :
      LaunchStep s .launch { s with point := .daemonHandoff, daemon := some daemon }
  | handOff {s : LaunchState place} {daemon : Birth} {record : PendingRecord} (hpoint : s.point = .daemonHandoff)
      (hdaemon : s.daemon = some daemon) (hpending : s.world.pending = some record)
      (hstate : record.state = .releaseAuthorized) :
      LaunchStep s .launch { s with
        point := .ownerPublication
        world := { s.world with pending := some { record with state := .daemonBound daemon } } }
  | publish {s : LaunchState place} {daemon : Birth} (hpoint : s.point = .ownerPublication)
      (hdaemon : s.daemon = some daemon) :
      LaunchStep s .launch { s with
        point := .published, world := { s.world with owner := some (s.paths.ownerRecord daemon) } }
  | leave {s : LaunchState place} (hpoint : s.point = .published) :
      LaunchStep s .launch { s with point := .committed }
  | settle {s : LaunchState place} {env : Environment} {before : Progress} (hpoint : s.point = .committed)
      (hfiles : before.files = s.world.files) :
      LaunchStep s .launch { s with
        point := .idle, world := s.world.restrict (env.durableUnlink place.pendingPath before).2.files }
  | raised {s : LaunchState place} (hpoint : s.point.guarded = true) :
      LaunchStep s .launch { s with point := .failed }
  | cleanUp {s : LaunchState place} {env : Environment} {before : Progress} {terminated : Except String Cleanup}
      {parentLive : Except String Bool} {report : LaunchCleanup} (hpoint : s.point = .failed)
      (htruthful : s.world.Truthful env)
      (hterminated : ∀ cleanup, terminated = .ok cleanup → ∀ daemon, s.daemon = some daemon →
        cleanup = (env.terminateOwnedDaemon daemon before).1)
      (hparent : parentLive = .ok false → ∀ launcher, s.launcher = some launcher → s.world.running launcher = none)
      (hreport : cleanupFailedLaunch s.launcher s.released (place.resolve s.paths.pidfile ∈ s.world.files) s.daemon
        terminated parentLive = .ok report) :
      LaunchStep s .launch { s with point := .receipt report.clears }
  | record {s : LaunchState place} (hpoint : s.point = .receipt true) :
      LaunchStep s .launch { s with point := .clearing }
  | sweep {s : LaunchState place} {env : Environment} {before : Progress} (hpoint : s.point = .clearing)
      (hfiles : before.files = s.world.files) :
      LaunchStep s .launch { s with
        point := .idle
        world := s.world.restrict (env.clearLaunchArtifacts place s.paths.pidfile s.pendingKnown before).2.files }
  /-- The exception leaves the call: the one that the handler raises again, one from outside the `try` or from the
  handler itself, or the end of the process. -/
  | abandon {s : LaunchState place} : LaunchStep s .launch { s with point := .idle }
  | world {s : LaunchState place} {world : LaunchWorld place} (hworld : WorldStep s.world world) :
      LaunchStep s .world { s with world := world }
  | recover {s : LaunchState place} {env : Environment} {before : Progress} (hpoint : s.point = .idle)
      (htruthful : s.world.Truthful env) (hfiles : before.files = s.world.files) :
      LaunchStep s .recovery { s with
        world := s.world.restrict
          (env.recoverLazyPagesLaunch (place.image s.world.pending s.world.owner) before).2.files }

/-! ## What holds of the directory -/

/-- Who runs was born, and pids are not shared. -/
structure LaunchWorld.Identified (world : LaunchWorld place) : Prop where
  known : ∀ birth, world.running birth ≠ none → birth ∈ world.used
  pids : ∀ one other, world.running one ≠ none → world.running other ≠ none → one.pid = other.pid → one = other

/-- At most one process is a daemon or can fork one.  An owner record names the only daemon, a pending record the only
launcher, and a bound one the only daemon; without either there is neither. -/
structure WorldInvariant (world : LaunchWorld place) : Prop where
  identified : world.Identified
  forking : ∀ one other, world.Forking one → world.Forking other → one = other
  serving : ∀ one other, world.Serving one → world.Serving other → one = other
  apart : ∀ one other, world.Forking one → ¬ world.Serving other
  owned : ∀ record, world.owner = some record → world.Only record.daemon
  unowned : world.owner = none → world.pending = none → world.Quiet
  pendingLauncher : ∀ record, world.pending = some record → ∀ birth, world.Launching birth → birth = record.launcher
  pendingDaemon : ∀ record daemon, world.pending = some record → record.state = .daemonBound daemon → world.Only daemon
  pidfileNames : ∀ entry ∈ world.pidfiles, place.isStalePidfile entry.1 = true

namespace LaunchWorld

variable {world after : LaunchWorld place}

theorem Forking.launching {birth : Birth} (h : world.Forking birth) : world.Launching birth := by
  obtain ⟨paths, hrunning⟩ := h
  exact ⟨paths, false, hrunning⟩

theorem Quiet.only (h : world.Quiet) (daemon : Birth) : world.Only daemon :=
  fun birth => ⟨(h birth).1, fun hserving => absurd hserving (h birth).2⟩

/-- Where the only daemon is gone, there is none. -/
theorem Only.quiet {daemon : Birth} (h : world.Only daemon) (hgone : world.running daemon = none) : world.Quiet := by
  intro birth
  refine ⟨(h birth).1, ?_⟩
  rintro ⟨paths, hrunning⟩
  rw [(h birth).2 ⟨paths, hrunning⟩, hgone] at hrunning
  cases hrunning

namespace Identified

/-- A process that is there changes its role, or exits. -/
theorem become (h : world.Identified) {birth : Birth} {role : Option (LaunchRole place)}
    (hrunning : role = none ∨ world.running birth ≠ none) : (world.become birth role).Identified := by
  have hold : ∀ other, (world.become birth role).running other ≠ none → world.running other ≠ none := by
    intro other hother
    by_cases heq : other = birth
    · subst heq
      rcases hrunning with rfl | hrunning
      · exact absurd (by simp [LaunchWorld.become]) hother
      · exact hrunning
    · simpa [LaunchWorld.become, heq] using hother
  exact ⟨fun other hother => h.known other (hold other hother),
    fun one other hone hother => h.pids one other (hold one hone) (hold other hother)⟩

/-- A fresh process starts. -/
theorem start (h : world.Identified) {birth : Birth} {role : LaunchRole place} (hfresh : world.Fresh birth) :
    (world.start birth role).Identified := by
  have hold : ∀ other, (world.start birth role).running other ≠ none → other = birth ∨ world.running other ≠ none := by
    intro other hother
    by_cases heq : other = birth
    · exact .inl heq
    · exact .inr (by simpa [LaunchWorld.start, LaunchWorld.become, heq] using hother)
  refine ⟨?_, ?_⟩
  · intro other hother
    rcases hold other hother with rfl | hrunning
    · exact .head _
    · exact .tail _ (h.known other hrunning)
  · intro one other hone hother hpid
    rcases hold one hone with heq | hone
    · rcases hold other hother with heq' | hother
      · exact heq.trans heq'.symm
      · exact absurd (heq ▸ hpid.symm) (hfresh.2 other hother)
    · rcases hold other hother with heq' | hother
      · exact absurd (heq' ▸ hpid) (hfresh.2 one hone)
      · exact h.pids one other hone hother hpid

end Identified

/-- Nobody is released or a daemon who was not before. -/
structure Shrinks (world after : LaunchWorld place) : Prop where
  launching : ∀ birth, after.Launching birth → world.Launching birth
  forking : ∀ birth, after.Forking birth → world.Forking birth
  serving : ∀ birth, after.Serving birth → world.Serving birth

theorem Shrinks.quiet (h : Shrinks world after) (hquiet : world.Quiet) : after.Quiet :=
  fun birth => ⟨fun hlaunching => (hquiet birth).1 (h.launching birth hlaunching),
    fun hserving => (hquiet birth).2 (h.serving birth hserving)⟩

theorem Shrinks.only {daemon : Birth} (h : Shrinks world after) (honly : world.Only daemon) : after.Only daemon :=
  fun birth => ⟨fun hlaunching => (honly birth).1 (h.launching birth hlaunching),
    fun hserving => (honly birth).2 (h.serving birth hserving)⟩

theorem Shrinks.named (h : Shrinks world after) (hpidfiles : after.pidfiles = world.pidfiles) (hnamed : world.Named) :
    after.Named := by
  intro entry hentry birth
  rw [hpidfiles] at hentry
  obtain ⟨hforking, hserving⟩ := hnamed entry hentry birth
  exact ⟨fun hnew => hforking (h.forking birth hnew), fun hnew => hserving (h.serving birth hnew)⟩

/-- A role that is neither a released launcher nor a daemon takes nothing up. -/
theorem shrinks_become {birth : Birth} {role : Option (LaunchRole place)}
    (hreleased : ∀ paths forked, role ≠ some (.released paths forked)) (hdaemon : ∀ paths, role ≠ some (.daemon paths)) :
    Shrinks world (world.become birth role) := by
  have hold : ∀ other taken, (world.become birth role).running other = some taken →
      (∀ paths forked, taken = .released paths forked → world.running other = some taken) ∧
        ∀ paths, taken = .daemon paths → world.running other = some taken := by
    intro other taken hrunning
    by_cases hother : other = birth
    · subst hother
      have hrole : role = some taken := by simpa [become] using hrunning
      exact ⟨fun paths forked htaken => absurd (htaken ▸ hrole) (hreleased paths forked),
        fun paths htaken => absurd (htaken ▸ hrole) (hdaemon paths)⟩
    · have hsame : world.running other = some taken := by simpa [become, hother] using hrunning
      exact ⟨fun _ _ _ => hsame, fun _ _ => hsame⟩
  refine ⟨?_, ?_, ?_⟩
  · rintro other ⟨paths, forked, hrunning⟩
    exact ⟨paths, forked, (hold other _ hrunning).1 paths forked rfl⟩
  · rintro other ⟨paths, hrunning⟩
    exact ⟨paths, (hold other _ hrunning).1 paths false rfl⟩
  · rintro other ⟨paths, hrunning⟩
    exact ⟨paths, (hold other _ hrunning).2 paths rfl⟩

theorem shrinks_start {birth : Birth} {role : LaunchRole place} (hreleased : ∀ paths forked, role ≠ .released paths forked)
    (hdaemon : ∀ paths, role ≠ .daemon paths) : Shrinks world (world.start birth role) := by
  have hshrinks : Shrinks world (world.become birth (some role)) :=
    shrinks_become (fun paths forked hrole => hreleased paths forked (Option.some.inj hrole))
      (fun paths hrole => hdaemon paths (Option.some.inj hrole))
  exact ⟨hshrinks.launching, hshrinks.forking, hshrinks.serving⟩

end LaunchWorld

namespace WorldInvariant

variable {world : LaunchWorld place}

/-- A process that is there or fresh takes a role, and nobody else is released or a daemon. -/
theorem of_shrinks (h : WorldInvariant world) {after : LaunchWorld place} (hshrinks : world.Shrinks after)
    (hidentified : after.Identified) (hpending : after.pending = world.pending) (howner : after.owner = world.owner)
    (hpidfiles : after.pidfiles = world.pidfiles) : WorldInvariant after where
  identified := hidentified
  forking := fun one other hone hother => h.forking one other (hshrinks.forking one hone) (hshrinks.forking other hother)
  serving := fun one other hone hother => h.serving one other (hshrinks.serving one hone) (hshrinks.serving other hother)
  apart := fun one other hone hother => h.apart one other (hshrinks.forking one hone) (hshrinks.serving other hother)
  owned := fun record hrecord => hshrinks.only (h.owned record (howner ▸ hrecord))
  unowned := fun hnone hnothing => hshrinks.quiet (h.unowned (howner ▸ hnone) (hpending ▸ hnothing))
  pendingLauncher := fun record hrecord birth hlaunching =>
    h.pendingLauncher record (hpending ▸ hrecord) birth (hshrinks.launching birth hlaunching)
  pendingDaemon := fun record daemon hrecord hstate =>
    hshrinks.only (h.pendingDaemon record daemon (hpending ▸ hrecord) hstate)
  pidfileNames := fun entry hentry => h.pidfileNames entry (hpidfiles ▸ hentry)

/-- The process exits. -/
theorem exit (h : WorldInvariant world) (birth : Birth) : WorldInvariant (world.become birth none) :=
  h.of_shrinks (LaunchWorld.shrinks_become (by simp) (by simp)) (h.identified.become (.inl rfl)) rfl rfl rfl

/-- A process starts that is neither a released launcher nor a daemon. -/
theorem start (h : WorldInvariant world) {birth : Birth} {role : LaunchRole place} (hfresh : world.Fresh birth)
    (hreleased : ∀ paths forked, role ≠ .released paths forked) (hdaemon : ∀ paths, role ≠ .daemon paths) :
    WorldInvariant (world.start birth role) :=
  h.of_shrinks (LaunchWorld.shrinks_start hreleased hdaemon) (h.identified.start hfresh) rfl rfl rfl

end WorldInvariant

/-! ## What the processes do -/

namespace WorldInvariant

variable {world : LaunchWorld place}

section

variable {launcher daemon : Birth} {paths : LaunchPaths place}

/-- Who is what after a fork. -/
theorem fork_running (hlauncher : world.running launcher = some (.released paths false)) (hfresh : world.Fresh daemon)
    {birth : Birth} {role : LaunchRole place}
    (h : ((world.become launcher (some (.released paths true))).start daemon (.daemon paths)).running birth = some role) :
    birth = daemon ∧ role = .daemon paths ∨ birth ≠ daemon ∧ birth = launcher ∧ role = .released paths true ∨
      birth ≠ daemon ∧ birth ≠ launcher ∧ world.running birth = some role := by
  by_cases hdaemon : birth = daemon
  · subst hdaemon
    exact .inl ⟨rfl, by simpa [LaunchWorld.start, LaunchWorld.become] using h.symm⟩
  · by_cases hbirth : birth = launcher
    · subst hbirth
      exact .inr (.inl ⟨hdaemon, rfl, by simpa [LaunchWorld.start, LaunchWorld.become, hdaemon] using h.symm⟩)
    · exact .inr (.inr ⟨hdaemon, hbirth, by simpa [LaunchWorld.start, LaunchWorld.become, hdaemon, hbirth] using h⟩)

/-- A fork takes the one process that can fork, and makes it the one daemon. -/
theorem fork (h : WorldInvariant world) (hlauncher : world.running launcher = some (.released paths false))
    (hfresh : world.Fresh daemon) :
    WorldInvariant ((world.become launcher (some (.released paths true))).start daemon (.daemon paths)) := by
  have hforks : world.Forking launcher := ⟨paths, hlauncher⟩
  have hnotOnly : ∀ birth, ¬ world.Only birth := fun birth honly => (honly launcher).1 hforks.launching
  have hforking : ∀ birth,
      ¬ ((world.become launcher (some (.released paths true))).start daemon (.daemon paths)).Forking birth := by
    rintro birth ⟨other, hrunning⟩
    rcases fork_running hlauncher hfresh hrunning with ⟨-, hrole⟩ | ⟨-, -, hrole⟩ | ⟨-, hne, hold⟩
    · cases hrole
    · cases hrole
    · exact hne (h.forking birth launcher ⟨other, hold⟩ hforks)
  have hserving : ∀ birth,
      ((world.become launcher (some (.released paths true))).start daemon (.daemon paths)).Serving birth →
        birth = daemon := by
    rintro birth ⟨other, hrunning⟩
    rcases fork_running hlauncher hfresh hrunning with ⟨heq, -⟩ | ⟨-, -, hrole⟩ | ⟨-, -, hold⟩
    · exact heq
    · cases hrole
    · exact absurd ⟨other, hold⟩ (h.apart launcher birth hforks)
  have hlaunching : ∀ birth,
      ((world.become launcher (some (.released paths true))).start daemon (.daemon paths)).Launching birth →
        world.Launching birth := by
    rintro birth ⟨other, forked, hrunning⟩
    rcases fork_running hlauncher hfresh hrunning with ⟨-, hrole⟩ | ⟨-, rfl, -⟩ | ⟨-, -, hold⟩
    · cases hrole
    · exact hforks.launching
    · exact ⟨other, forked, hold⟩
  have hrunning : world.running launcher ≠ none := by
    rw [hlauncher]
    exact Option.some_ne_none _
  have hbecome : (world.become launcher (some (.released paths true))).Fresh daemon := by
    refine ⟨hfresh.1, ?_⟩
    intro other hother
    by_cases heq : other = launcher
    · exact heq ▸ hfresh.2 launcher hrunning
    · exact hfresh.2 other (by simpa [LaunchWorld.become, heq] using hother)
  constructor
  case identified => exact (h.identified.become (.inr hrunning)).start hbecome
  case forking => exact fun one _ hone => absurd hone (hforking one)
  case serving => exact fun one other hone hother => (hserving one hone).trans (hserving other hother).symm
  case apart => exact fun one _ hone => absurd hone (hforking one)
  case owned => exact fun record hrecord => absurd (h.owned record hrecord) (hnotOnly _)
  case unowned => exact fun hnone hnothing => absurd ((h.unowned hnone hnothing).only daemon) (hnotOnly _)
  case pendingLauncher =>
    intro record hrecord birth hbirth
    exact h.pendingLauncher record hrecord birth (hlaunching birth hbirth)
  case pendingDaemon =>
    intro record bound hrecord hstate
    exact absurd (h.pendingDaemon record bound hrecord hstate) (hnotOnly _)
  case pidfileNames => exact h.pidfileNames

end

/-- What the processes do keeps the invariant. -/
theorem worldStep (h : WorldInvariant world) {after : LaunchWorld place} (hstep : WorldStep world after) :
    WorldInvariant after := by
  cases hstep with
  | exit birth => exact h.exit birth
  | birth hfresh => exact h.start hfresh (by simp) (by simp)
  | fork hlauncher hfresh => exact h.fork hlauncher hfresh
  | write hbirth hfile => exact ⟨⟨h.identified.known, h.identified.pids⟩, h.forking, h.serving, h.apart, h.owned, h.unowned,
      h.pendingLauncher, h.pendingDaemon, h.pidfileNames⟩
  | @name daemon paths hdaemon =>
      refine ⟨⟨h.identified.known, h.identified.pids⟩, h.forking, h.serving, h.apart, h.owned, h.unowned,
        h.pendingLauncher, h.pendingDaemon, ?_⟩
      intro entry hentry
      rcases List.mem_cons.mp hentry with rfl | hold
      · exact Bool.and_eq_true_iff.mpr ⟨decide_eq_true paths.pidfile_parent, paths.pidfile_name⟩
      · exact h.pidfileNames entry (List.mem_filter.mp hold).1

end WorldInvariant

namespace LaunchWorld

variable {world after : LaunchWorld place}

/-- Unless somebody could fork, nobody is released or a daemon who was not before. -/
theorem worldStep_shrinks (h : WorldStep world after) : Shrinks world after ∨ ∃ launcher, world.Forking launcher := by
  cases h with
  | exit birth => exact .inl (shrinks_become (by simp) (by simp))
  | birth hfresh => exact .inl (shrinks_start (by simp) (by simp))
  | fork hlauncher hfresh => exact .inr ⟨_, _, hlauncher⟩
  | write hbirth hfile => exact .inl ⟨fun _ => id, fun _ => id, fun _ => id⟩
  | name hdaemon => exact .inl ⟨fun _ => id, fun _ => id, fun _ => id⟩

theorem worldStep_records (h : WorldStep world after) : after.pending = world.pending ∧ after.owner = world.owner := by
  cases h <;> exact ⟨Eq.refl _, Eq.refl _⟩

theorem Quiet.worldStep (h : world.Quiet) (hstep : WorldStep world after) : after.Quiet := by
  rcases worldStep_shrinks hstep with hshrinks | ⟨launcher, hforking⟩
  · exact hshrinks.quiet h
  · exact absurd hforking.launching (h launcher).1

theorem Only.worldStep {daemon : Birth} (h : world.Only daemon) (hstep : WorldStep world after) :
    after.Only daemon := by
  rcases worldStep_shrinks hstep with hshrinks | ⟨launcher, hforking⟩
  · exact hshrinks.only h
  · exact absurd hforking.launching (h launcher).1

/-- The launchers are gone for good. -/
theorem reaped_worldStep (h : ∀ birth, ¬ world.Launching birth) (hstep : WorldStep world after) :
    ∀ birth, ¬ after.Launching birth := by
  rcases worldStep_shrinks hstep with hshrinks | ⟨launcher, hforking⟩
  · exact fun birth hlaunching => h birth (hshrinks.launching birth hlaunching)
  · exact absurd hforking.launching (h launcher)

/-- Only a daemon writes a pidfile. -/
theorem Quiet.pidfiles (h : world.Quiet) (hstep : WorldStep world after) : after.pidfiles = world.pidfiles := by
  cases hstep with
  | exit | birth | fork | write => exact Eq.refl _
  | @name daemon paths hdaemon => exact absurd ⟨paths, hdaemon⟩ (h daemon).2

end LaunchWorld

namespace WorldInvariant

variable {world after : LaunchWorld place}

/-- A pidfile is written by the one daemon, and behind the fork. -/
theorem named (h : WorldInvariant world) (hnamed : world.Named) (hstep : WorldStep world after) : after.Named := by
  cases hstep with
  | exit birth => exact (LaunchWorld.shrinks_become (by simp) (by simp)).named rfl hnamed
  | birth hfresh => exact (LaunchWorld.shrinks_start (by simp) (by simp)).named rfl hnamed
  | fork hlauncher hfresh =>
      intro entry hentry birth
      exact absurd ⟨_, hlauncher⟩ (hnamed entry hentry _).1
  | write hbirth hfile => exact hnamed
  | @name daemon paths hdaemon =>
      have hserves : world.Serving daemon := ⟨paths, hdaemon⟩
      intro entry hentry birth
      refine ⟨fun hforking => h.apart birth daemon hforking hserves, ?_⟩
      intro hserving
      rcases List.mem_cons.mp hentry with rfl | hold
      · rw [h.serving birth daemon hserving hserves]
      · exact (hnamed entry (List.mem_filter.mp hold).1 birth).2 hserving

/-! ## Removing files -/

/-- Where nothing was released and nothing serves, the records do not matter. -/
theorem of_quiet (hidentified : world.Identified) (hquiet : world.Quiet)
    (hnames : ∀ entry ∈ world.pidfiles, place.isStalePidfile entry.1 = true) : WorldInvariant world where
  identified := hidentified
  forking := fun one _ hone => absurd hone.launching (hquiet one).1
  serving := fun one _ hone => absurd hone (hquiet one).2
  apart := fun one _ hone => absurd hone.launching (hquiet one).1
  owned := fun record _ => hquiet.only record.daemon
  unowned := fun _ _ => hquiet
  pendingLauncher := fun _ _ birth hlaunching => absurd hlaunching (hquiet birth).1
  pendingDaemon := fun _ daemon _ _ => hquiet.only daemon
  pidfileNames := hnames

/-- Files may go where the owner record stays, or where nothing was released and nothing serves. -/
theorem restrict (h : WorldInvariant world) {files : List ImageFile}
    (hpending : world.pending ≠ none → place.pendingPath ∉ files → world.owner ≠ none ∨ world.Quiet)
    (howner : world.owner ≠ none → place.ownerPath ∉ files → world.Quiet) : WorldInvariant (world.restrict files) := by
  have hidentified : (world.restrict files).Identified := ⟨h.identified.known, h.identified.pids⟩
  have hnames : ∀ entry ∈ (world.restrict files).pidfiles, place.isStalePidfile entry.1 = true :=
    fun entry hentry => h.pidfileNames entry (List.mem_filter.mp hentry).1
  by_cases hquiet : world.Quiet
  · exact of_quiet hidentified hquiet hnames
  · have hkept : (world.restrict files).owner = world.owner := by
      cases hrecord : world.owner with
      | none => simp [LaunchWorld.restrict, hrecord]
      | some record =>
          have hmem : place.ownerPath ∈ files := by
            by_contra hgone
            exact hquiet (howner (by rw [hrecord]; exact Option.some_ne_none _) hgone)
          simp [LaunchWorld.restrict, hrecord, hmem]
    have hsub : ∀ record, (world.restrict files).pending = some record → world.pending = some record := by
      intro record hrecord
      unfold LaunchWorld.restrict at hrecord
      dsimp only at hrecord
      split at hrecord
      · exact hrecord
      · cases hrecord
    constructor
    case identified => exact hidentified
    case forking => exact h.forking
    case serving => exact h.serving
    case apart => exact h.apart
    case owned =>
      intro record hrecord
      exact h.owned record (hkept ▸ hrecord)
    case unowned =>
      intro hnone hnothing
      rw [hkept] at hnone
      by_cases hmem : place.pendingPath ∈ files
      · have hsame : (world.restrict files).pending = world.pending := if_pos hmem
        exact h.unowned hnone (hsame ▸ hnothing)
      · by_cases hpresent : world.pending = none
        · exact h.unowned hnone hpresent
        · rcases hpending hpresent hmem with hsome | hquiet
          · exact absurd hnone hsome
          · exact hquiet
    case pendingLauncher =>
      intro record hrecord
      exact h.pendingLauncher record (hsub record hrecord)
    case pendingDaemon =>
      intro record daemon hrecord
      exact h.pendingDaemon record daemon (hsub record hrecord)
    case pidfileNames => exact hnames

end WorldInvariant

/-! ## Where a launch is -/

/-- The points at which no daemon is bound yet. -/
def LaunchPoint.unbound : LaunchPoint → Bool
  | .idle | .daemonHandoff | .ownerPublication | .published | .committed | .failed | .receipt _ | .clearing => false
  | _ => true

namespace LaunchState

variable (s : LaunchState place)

/-- The directory has no record and no pidfile. -/
def Untouched : Prop :=
  s.world.pending = none ∧ s.world.owner = none ∧ s.world.pidfiles = []

/-- The pending record names the launcher of this launch and no daemon, and there is no owner record. -/
def Authorized : Prop :=
  s.world.owner = none ∧ ∃ record, s.world.pending = some record ∧ record.state = .releaseAuthorized ∧
    s.launcher = some record.launcher

/-- What holds at a point of the launch. -/
def At : Prop :=
  match s.point with
  | .idle | .preflight | .failed | .receipt false | .ownerPublication => True
  | .spawn | .spawned _ | .publication => s.Untouched
  | .authorized | .gateRelease => s.Authorized ∧ s.world.Quiet ∧ s.world.pidfiles = []
  | .opened | .statusWait | .parentReap => s.Authorized ∧ s.world.Named
  | .daemonBind => s.Authorized ∧ s.world.Named ∧ ∀ birth, ¬ s.world.Launching birth
  | .daemonHandoff => s.Authorized
  | .published | .committed => s.world.owner ≠ none
  | .receipt true | .clearing => s.world.Quiet

end LaunchState

/-- The invariant of the machine: a daemon that a launch has bound is the only one. -/
structure LaunchInvariant (s : LaunchState place) : Prop where
  world : WorldInvariant s.world
  unbound : s.point.unbound = true → s.daemon = none
  bound : s.point ≠ .idle → ∀ daemon, s.daemon = some daemon → s.world.Only daemon
  here : s.At

section

variable {s t : LaunchState place} {act : LaunchAct}

theorem mem_files_pending (h : s.world.pending ≠ none) : place.pendingPath ∈ s.world.files := by
  have hsome : s.world.pending.isSome = true := Option.isSome_iff_ne_none.mpr h
  unfold LaunchWorld.files
  rw [if_pos hsome]
  simp

theorem mem_files_owner (h : s.world.owner ≠ none) : place.ownerPath ∈ s.world.files := by
  have hsome : s.world.owner.isSome = true := Option.isSome_iff_ne_none.mpr h
  unfold LaunchWorld.files
  rw [if_pos hsome]
  simp

/-- A daemon that was settled behind a truthful check is not there. -/
theorem not_running_of_settled {env : Environment} {daemon : Birth} {progress : Progress}
    (htruthful : s.world.Truthful env) (h : env.Settled daemon progress) : s.world.running daemon = none := by
  obtain ⟨last, -, hsettled⟩ := h
  exact htruthful last daemon hsettled

/-- A preparation removes files only where nothing serves any more. -/
theorem prepareLaunch_quiet {env : Environment} {before after : Progress} {result : Except String (Option Cleanup)}
    (h : LaunchInvariant s) (htruthful : s.world.Truthful env) (hfiles : before.files = s.world.files)
    (hprepare : env.prepareLaunch place s.world.owner s.paths.pidfile before = (result, after)) :
    after.files = s.world.files ∨ s.world.Quiet := by
  have hcases := @prepareLaunch_files env place s.world.owner s.paths.pidfile before
  rw [hprepare, hfiles] at hcases
  rcases hcases with hsame | ⟨record, hrecord, hsettled⟩
  · exact .inl hsame
  · exact .inr ((h.world.owned record hrecord).quiet (not_running_of_settled htruthful hsettled))

/-- Removing files where all of them stay, or where nothing serves. -/
theorem restrict_invariant (h : WorldInvariant s.world) {files : List ImageFile}
    (hfiles : files = s.world.files ∨ s.world.Quiet) : WorldInvariant (s.world.restrict files) := by
  rcases hfiles with rfl | hquiet
  · exact h.restrict (fun hpending hgone => absurd (mem_files_pending hpending) hgone)
      (fun howner hgone => absurd (mem_files_owner howner) hgone)
  · exact h.restrict (fun _ _ => .inr hquiet) (fun _ _ => hquiet)

/-- Behind a preparation that succeeds there is no record and no pidfile. -/
theorem prepareLaunch_untouched {env : Environment} {before after : Progress} {result : Option Cleanup}
    (h : LaunchInvariant s) (hfiles : before.files = s.world.files)
    (hprepare : env.prepareLaunch place s.world.owner s.paths.pidfile before = (.ok result, after)) :
    (s.world.restrict after.files).pending = none ∧ (s.world.restrict after.files).owner = none ∧
      (s.world.restrict after.files).pidfiles = [] := by
  have hok := @prepareLaunch_ok env place s.world.owner s.paths.pidfile before result (by rw [hprepare])
  rw [hprepare, hfiles] at hok
  obtain ⟨hpending, howner, hstale⟩ := hok
  refine ⟨?_, ?_, ?_⟩
  · have hnone : s.world.pending = none := by
      by_contra hsome
      exact hpending (mem_files_pending hsome)
    simp [LaunchWorld.restrict, hnone]
  · rcases howner with hnone | hgone
    · simp [LaunchWorld.restrict, hnone]
    · exact if_neg hgone
  · refine List.filter_eq_nil_iff.mpr ?_
    intro entry hentry hmem
    have hfresh := hstale entry.1 (of_decide_eq_true hmem)
    rw [h.world.pidfileNames entry hentry] at hfresh
    cases hfresh

/-- Releasing the launcher of a quiet directory. -/
theorem openGate_invariant {launcher : Birth} (h : WorldInvariant s.world) (hquiet : s.world.Quiet)
    (hauthorized : s.Authorized) (hlauncher : s.launcher = some launcher)
    (hgated : s.world.running launcher = some .gated) :
    WorldInvariant (s.world.become launcher (some (.released s.paths false))) := by
  obtain ⟨howner, record, hpending, hstate, hname⟩ := hauthorized
  have hrunning : s.world.running launcher ≠ none := by
    rw [hgated]
    exact Option.some_ne_none _
  have hlaunching : ∀ birth, (s.world.become launcher (some (.released s.paths false))).Launching birth →
      birth = launcher := by
    rintro birth ⟨paths, forked, hbirth⟩
    by_contra hne
    exact (hquiet birth).1 ⟨paths, forked, by simpa [LaunchWorld.become, hne] using hbirth⟩
  have hserving : ∀ birth, ¬ (s.world.become launcher (some (.released s.paths false))).Serving birth := by
    rintro birth ⟨paths, hbirth⟩
    by_cases heq : birth = launcher
    · subst heq
      simp [LaunchWorld.become] at hbirth
    · exact (hquiet birth).2 ⟨paths, by simpa [LaunchWorld.become, heq] using hbirth⟩
  constructor
  case identified => exact h.identified.become (.inr hrunning)
  case forking =>
    intro one other hone hother
    exact (hlaunching one hone.launching).trans (hlaunching other hother.launching).symm
  case serving => exact fun one _ hone => absurd hone (hserving one)
  case apart => exact fun _ other _ => hserving other
  case owned =>
    intro record hrecord
    exact absurd (hrecord.symm.trans howner) (Option.some_ne_none _)
  case unowned =>
    intro _ hnothing
    exact absurd (hpending.symm.trans hnothing) (Option.some_ne_none _)
  case pendingLauncher =>
    intro other hother birth hbirth
    obtain rfl := Option.some.inj (hpending.symm.trans hother)
    rw [hlaunching birth hbirth]
    exact Option.some.inj (hlauncher.symm.trans hname)
  case pendingDaemon =>
    intro other daemon hother hbound
    obtain rfl := Option.some.inj (hpending.symm.trans hother)
    rw [hstate] at hbound
    cases hbound
  case pidfileNames => exact h.pidfileNames

theorem ownerPath_ne_pendingPath : place.ownerPath ≠ place.pendingPath := by
  simp [LaunchPlace.ownerPath, LaunchPlace.pendingPath]

/-- Why a recovery removes a file: the pending record of a directory with an owner record, or nothing serves. -/
theorem recover_cleared {env : Environment} {before : Progress} {file : ImageFile} (h : WorldInvariant s.world)
    (htruthful : s.world.Truthful env) (hfiles : before.files = s.world.files) (hmem : file ∈ s.world.files)
    (hgone : file ∉ (env.recoverLazyPagesLaunch (place.image s.world.pending s.world.owner) before).2.files) :
    file = place.pendingPath ∧ s.world.owner ≠ none ∨ s.world.Quiet := by
  have hcleared := (@recoverLazyPagesLaunch_recovers env (place.image s.world.pending s.world.owner) before).cleared
    file (hfiles ▸ hmem) hgone
  cases hcleared with
  | ownerLive hpending howner hmatch hlive hfile =>
      refine .inl ⟨hfile, ?_⟩
      rw [Except.ok.inj howner]
      exact Option.some_ne_none _
  | @ownerSettled _ record hpending howner hmatch hfirst hsettled =>
      exact .inr ((h.owned record (Except.ok.inj howner)).quiet (not_running_of_settled htruthful hsettled))
  | @daemonSettled record daemon hpending howner hstate hlauncher hsettled =>
      exact .inr ((h.pendingDaemon record daemon (Except.ok.inj hpending) hstate).quiet
        (not_running_of_settled htruthful hsettled))

theorem recover_invariant {env : Environment} {before : Progress} (h : WorldInvariant s.world)
    (htruthful : s.world.Truthful env) (hfiles : before.files = s.world.files) :
    WorldInvariant (s.world.restrict
      (env.recoverLazyPagesLaunch (place.image s.world.pending s.world.owner) before).2.files) := by
  refine h.restrict ?_ ?_
  · intro hpending hgone
    exact (recover_cleared h htruthful hfiles (mem_files_pending hpending) hgone).imp And.right id
  · intro howner hgone
    rcases recover_cleared h htruthful hfiles (mem_files_owner howner) hgone with ⟨hfile, -⟩ | hquiet
    · exact absurd hfile ownerPath_ne_pendingPath
    · exact hquiet

/-- A report that clears the artifacts was made in a directory where nothing serves any more. -/
theorem cleanUp_quiet {env : Environment} {before : Progress} {terminated : Except String Cleanup}
    {parentLive : Except String Bool} {report : LaunchCleanup} {pidfilePresent : Bool}
    (h : LaunchInvariant s) (hpoint : s.point = .failed) (htruthful : s.world.Truthful env)
    (hterminated : ∀ cleanup, terminated = .ok cleanup → ∀ daemon, s.daemon = some daemon →
      cleanup = (env.terminateOwnedDaemon daemon before).1)
    (hreport : cleanupFailedLaunch s.launcher s.released pidfilePresent s.daemon terminated parentLive = .ok report)
    (hclears : report.clears = true) : s.world.Quiet := by
  obtain ⟨launcher, daemon, cleanup, -, hdaemon, -, hok, hverified, -⟩ := clears_cleanupFailedLaunch hreport hclears
  have hcleanup := hterminated cleanup hok daemon hdaemon
  have hsettled := (@terminateOwnedDaemon_terminates env daemon before).settled (hcleanup ▸ hverified)
  have honly : s.world.Only daemon := h.bound (by rw [hpoint]; exact LaunchPoint.noConfusion) daemon hdaemon
  exact honly.quiet (not_running_of_settled htruthful hsettled)

/-- The steps of a launch that change nothing in the directory and bind nothing. -/
theorem LaunchInvariant.go (h : LaunchInvariant s) (hpoint : s.point ≠ .idle) (hdaemon : t.daemon = s.daemon)
    (hworld : t.world = s.world) (hunbound : t.point.unbound = true → s.point.unbound = true) (hhere : t.At) :
    LaunchInvariant t where
  world := hworld ▸ h.world
  unbound := fun htarget => hdaemon.trans (h.unbound (hunbound htarget))
  bound := fun _ daemon hbound => hworld ▸ h.bound hpoint daemon (hdaemon ▸ hbound)
  here := hhere

/-- The steps of the processes. -/
theorem LaunchInvariant.worldStep {world : LaunchWorld place} (h : LaunchInvariant s)
    (hworld : WorldStep s.world world) : LaunchInvariant { s with world := world } := by
  obtain ⟨hpending, howner⟩ := LaunchWorld.worldStep_records hworld
  refine ⟨h.world.worldStep hworld, h.unbound,
    fun hpoint daemon hdaemon => (h.bound hpoint daemon hdaemon).worldStep hworld, ?_⟩
  have hhere := h.here
  have huntouched : s.Untouched → LaunchState.Untouched { s with world := world } := by
    rintro ⟨hnothing, hnone, hempty⟩
    have hquiet := h.world.unowned hnone hnothing
    exact ⟨hpending.trans hnothing, howner.trans hnone, (hquiet.pidfiles hworld).trans hempty⟩
  have hauthorized : s.Authorized → LaunchState.Authorized { s with world := world } := by
    rintro ⟨hnone, record, hrecord, hstate, hlauncher⟩
    exact ⟨howner.trans hnone, record, hpending.trans hrecord, hstate, hlauncher⟩
  unfold LaunchState.At at hhere ⊢
  dsimp only
  cases hpoint : s.point with
  | idle | preflight | failed | ownerPublication => trivial
  | spawn | spawned | publication =>
      rw [hpoint] at hhere
      exact huntouched hhere
  | authorized | gateRelease =>
      rw [hpoint] at hhere
      obtain ⟨hauth, hquiet, hempty⟩ := hhere
      exact ⟨hauthorized hauth, hquiet.worldStep hworld, (hquiet.pidfiles hworld).trans hempty⟩
  | opened | statusWait | parentReap =>
      rw [hpoint] at hhere
      exact ⟨hauthorized hhere.1, h.world.named hhere.2 hworld⟩
  | daemonBind =>
      rw [hpoint] at hhere
      exact ⟨hauthorized hhere.1, h.world.named hhere.2.1 hworld, LaunchWorld.reaped_worldStep hhere.2.2 hworld⟩
  | daemonHandoff =>
      rw [hpoint] at hhere
      exact hauthorized hhere
  | published | committed =>
      rw [hpoint] at hhere
      exact howner ▸ hhere
  | receipt clears =>
      cases clears with
      | false => trivial
      | true =>
          rw [hpoint] at hhere
          exact LaunchWorld.Quiet.worldStep hhere hworld
  | clearing =>
      rw [hpoint] at hhere
      exact LaunchWorld.Quiet.worldStep hhere hworld

/-- The records that a launch writes. -/
theorem LaunchInvariant.authorize {launcher : Birth} (h : LaunchInvariant s) (hpoint : s.point = .publication)
    (hlauncher : s.launcher = some launcher) :
    LaunchInvariant { s with
      point := .authorized, world := { s.world with pending := some (s.paths.pendingRecord launcher) } } := by
  have hhere := h.here
  unfold LaunchState.At at hhere
  rw [hpoint] at hhere
  obtain ⟨hnothing, hnone, hempty⟩ := hhere
  have hquiet := h.world.unowned hnone hnothing
  have hdaemon : s.daemon = none := h.unbound (by rw [hpoint]; rfl)
  refine ⟨.of_quiet ⟨h.world.identified.known, h.world.identified.pids⟩ hquiet h.world.pidfileNames, fun _ => hdaemon,
    fun _ daemon hbound => absurd (hdaemon.symm.trans hbound) (Option.some_ne_none _).symm, ?_⟩
  exact ⟨⟨hnone, _, rfl, rfl, hlauncher⟩, hquiet, hempty⟩

theorem LaunchInvariant.bind {daemon : Birth} (h : LaunchInvariant s) (hpoint : s.point = .daemonBind)
    (hpid : (place.resolve s.paths.pidfile, daemon.pid) ∈ s.world.pidfiles) (hlive : s.world.running daemon ≠ none) :
    LaunchInvariant { s with point := .daemonHandoff, daemon := some daemon } := by
  have hhere := h.here
  unfold LaunchState.At at hhere
  rw [hpoint] at hhere
  obtain ⟨hauthorized, hnamed, hreaped⟩ := hhere
  refine ⟨h.world, fun hunbound => Bool.noConfusion hunbound, ?_, hauthorized⟩
  intro _ bound hbound birth
  obtain rfl := Option.some.inj hbound
  refine ⟨hreaped birth, ?_⟩
  intro hserving
  -- Both have the pid of the pidfile, and both run.
  have hrunning : s.world.running birth ≠ none := by
    obtain ⟨paths, hdaemon⟩ := hserving
    rw [hdaemon]
    exact Option.some_ne_none _
  exact h.world.identified.pids birth daemon hrunning hlive ((hnamed _ hpid birth).2 hserving)

theorem LaunchInvariant.handOff {daemon : Birth} {record : PendingRecord} (h : LaunchInvariant s)
    (hpoint : s.point = .daemonHandoff) (hdaemon : s.daemon = some daemon) :
    LaunchInvariant { s with
      point := .ownerPublication
      world := { s.world with pending := some { record with state := .daemonBound daemon } } } := by
  have honly : s.world.Only daemon := h.bound (by rw [hpoint]; exact LaunchPoint.noConfusion) daemon hdaemon
  refine ⟨?_, fun hunbound => Bool.noConfusion hunbound, fun _ bound hbound => ?_, trivial⟩
  · constructor
    case identified => exact ⟨h.world.identified.known, h.world.identified.pids⟩
    case forking => exact h.world.forking
    case serving => exact h.world.serving
    case apart => exact h.world.apart
    case owned => exact h.world.owned
    case unowned => exact fun _ hnothing => absurd hnothing (Option.some_ne_none _)
    case pendingLauncher =>
      intro other _ birth hbirth
      exact absurd hbirth (honly birth).1
    case pendingDaemon =>
      intro other bound hother hbound
      obtain rfl := Option.some.inj hother
      cases hbound
      exact honly
    case pidfileNames => exact h.world.pidfileNames
  · obtain rfl := Option.some.inj (hdaemon.symm.trans hbound)
    exact honly

theorem LaunchInvariant.publish {daemon : Birth} (h : LaunchInvariant s) (hpoint : s.point = .ownerPublication)
    (hdaemon : s.daemon = some daemon) :
    LaunchInvariant { s with
      point := .published, world := { s.world with owner := some (s.paths.ownerRecord daemon) } } := by
  have honly : s.world.Only daemon := h.bound (by rw [hpoint]; exact LaunchPoint.noConfusion) daemon hdaemon
  refine ⟨?_, fun hunbound => Bool.noConfusion hunbound, fun _ bound hbound => ?_, Option.some_ne_none _⟩
  · constructor
    case identified => exact ⟨h.world.identified.known, h.world.identified.pids⟩
    case forking => exact h.world.forking
    case serving => exact h.world.serving
    case apart => exact h.world.apart
    case owned =>
      intro record hrecord
      obtain rfl := Option.some.inj hrecord
      exact honly
    case unowned => exact fun hnone => absurd hnone (Option.some_ne_none _)
    case pendingLauncher => exact h.world.pendingLauncher
    case pendingDaemon => exact h.world.pendingDaemon
    case pidfileNames => exact h.world.pidfileNames
  · obtain rfl := Option.some.inj (hdaemon.symm.trans hbound)
    exact honly

/-- The removal of the pending record beside an owner record. -/
theorem settle_invariant {env : Environment} {before : Progress} (h : WorldInvariant s.world)
    (howner : s.world.owner ≠ none) (hfiles : before.files = s.world.files) :
    WorldInvariant (s.world.restrict (env.durableUnlink place.pendingPath before).2.files) := by
  refine h.restrict (fun _ _ => .inl howner) ?_
  intro _ hgone
  exact absurd (durableUnlink_other (hfiles ▸ mem_files_owner howner) hgone) ownerPath_ne_pendingPath

/-- **The step lemma.** -/
theorem LaunchInvariant.step (h : LaunchInvariant s) (hstep : LaunchStep s act t) : LaunchInvariant t := by
  have hhere := h.here
  unfold LaunchState.At at hhere
  cases hstep with
  | begin paths hpoint => exact ⟨h.world, fun _ => rfl, fun _ _ hbound => absurd hbound (by simp), trivial⟩
  | prepared hpoint htruthful hfiles hprepare =>
      have hdaemon : s.daemon = none := h.unbound (by rw [hpoint]; rfl)
      exact ⟨restrict_invariant h.world (prepareLaunch_quiet h htruthful hfiles hprepare), fun _ => hdaemon,
        fun _ daemon hbound => absurd (hdaemon.symm.trans hbound) (Option.some_ne_none _).symm,
        prepareLaunch_untouched h hfiles hprepare⟩
  | refused hpoint htruthful hfiles hprepare =>
      exact ⟨restrict_invariant h.world (prepareLaunch_quiet h htruthful hfiles hprepare),
        fun hunbound => Bool.noConfusion hunbound, fun _ => h.bound (by rw [hpoint]; exact LaunchPoint.noConfusion),
        trivial⟩
  | popen hpoint hfresh =>
      rw [hpoint] at hhere
      have hdaemon : s.daemon = none := h.unbound (by rw [hpoint]; rfl)
      exact ⟨h.world.start hfresh (by simp) (by simp), fun _ => hdaemon,
        fun _ daemon hbound => absurd (hdaemon.symm.trans hbound) (Option.some_ne_none _).symm, hhere⟩
  | started hpoint =>
      rw [hpoint] at hhere
      exact h.go (by rw [hpoint]; exact LaunchPoint.noConfusion) rfl rfl (fun _ => by rw [hpoint]; rfl) hhere
  | authorize hpoint hlauncher => exact h.authorize hpoint hlauncher
  | acknowledge hpoint =>
      rw [hpoint] at hhere
      exact h.go (by rw [hpoint]; exact LaunchPoint.noConfusion) rfl rfl (fun _ => by rw [hpoint]; rfl) hhere
  | openGate hpoint hlauncher hgated =>
      rw [hpoint] at hhere
      obtain ⟨hauthorized, hquiet, hempty⟩ := hhere
      have hdaemon : s.daemon = none := h.unbound (by rw [hpoint]; rfl)
      refine ⟨openGate_invariant h.world hquiet hauthorized hlauncher hgated, fun _ => hdaemon,
        fun _ daemon hbound => absurd (hdaemon.symm.trans hbound) (Option.some_ne_none _).symm, hauthorized, ?_⟩
      intro entry hentry
      rw [show (s.world.become _ _).pidfiles = [] from hempty] at hentry
      cases hentry
  | release hpoint =>
      rw [hpoint] at hhere
      exact h.go (by rw [hpoint]; exact LaunchPoint.noConfusion) rfl rfl (fun _ => by rw [hpoint]; rfl) hhere
  | observe hpoint =>
      rw [hpoint] at hhere
      exact h.go (by rw [hpoint]; exact LaunchPoint.noConfusion) rfl rfl (fun _ => by rw [hpoint]; rfl) hhere
  | reap hpoint hlauncher hgone =>
      rw [hpoint] at hhere
      obtain ⟨hauthorized, hnamed⟩ := hhere
      refine h.go (by rw [hpoint]; exact LaunchPoint.noConfusion) rfl rfl (fun _ => by rw [hpoint]; rfl)
        ⟨hauthorized, hnamed, ?_⟩
      obtain ⟨-, record, hpending, -, hname⟩ := hauthorized
      rintro birth ⟨paths, forked, hrunning⟩
      rw [h.world.pendingLauncher record hpending birth ⟨paths, forked, hrunning⟩,
        ← Option.some.inj (hlauncher.symm.trans hname), hgone] at hrunning
      cases hrunning
  | bind hpoint hpid hlive => exact h.bind hpoint hpid hlive
  | handOff hpoint hdaemon hpending hstate => exact h.handOff hpoint hdaemon
  | publish hpoint hdaemon => exact h.publish hpoint hdaemon
  | leave hpoint =>
      rw [hpoint] at hhere
      exact h.go (by rw [hpoint]; exact LaunchPoint.noConfusion) rfl rfl (fun hunbound => Bool.noConfusion hunbound)
        hhere
  | settle hpoint hfiles =>
      rw [hpoint] at hhere
      exact ⟨settle_invariant h.world hhere hfiles, fun hunbound => Bool.noConfusion hunbound,
        fun hpoint => absurd rfl hpoint, trivial⟩
  | raised hpoint =>
      refine h.go ?_ rfl rfl (fun hunbound => Bool.noConfusion hunbound) trivial
      intro hidle
      rw [hidle] at hpoint
      cases hpoint
  | @cleanUp env before terminated parentLive report hpoint htruthful hterminated hparent hreport =>
      refine h.go (by rw [hpoint]; exact LaunchPoint.noConfusion) rfl rfl (fun hunbound => Bool.noConfusion hunbound) ?_
      unfold LaunchState.At
      cases hclears : report.clears with
      | false => trivial
      | true =>
          have hquiet := cleanUp_quiet h hpoint htruthful hterminated hreport hclears
          exact hquiet
  | record hpoint =>
      rw [hpoint] at hhere
      exact h.go (by rw [hpoint]; exact LaunchPoint.noConfusion) rfl rfl (fun hunbound => Bool.noConfusion hunbound)
        hhere
  | sweep hpoint hfiles =>
      rw [hpoint] at hhere
      exact ⟨restrict_invariant h.world (.inr hhere), fun hunbound => Bool.noConfusion hunbound,
        fun hpoint => absurd rfl hpoint, trivial⟩
  | abandon =>
      exact ⟨h.world, fun hunbound => Bool.noConfusion hunbound, fun hpoint => absurd rfl hpoint, trivial⟩
  | world hworld => exact h.worldStep hworld
  | recover hpoint htruthful hfiles =>
      refine ⟨recover_invariant h.world htruthful hfiles, ?_, fun hne => absurd hpoint hne, ?_⟩
      · intro hunbound
        rw [show s.point = .idle from hpoint] at hunbound
        cases hunbound
      · unfold LaunchState.At
        rw [show s.point = .idle from hpoint]
        trivial

end

/-! ## Whole runs -/

/-- An image directory before its first launch. -/
structure LaunchState.Initial (s : LaunchState place) : Prop where
  idle : s.point = .idle
  pending : s.world.pending = none
  owner : s.world.owner = none
  pidfiles : s.world.pidfiles = []
  quiet : s.world.Quiet
  identified : s.world.Identified

theorem LaunchState.Initial.invariant {s : LaunchState place} (h : s.Initial) : LaunchInvariant s := by
  refine ⟨.of_quiet h.identified h.quiet ?_, ?_, fun hne => absurd h.idle hne, ?_⟩
  · intro entry hentry
    rw [h.pidfiles] at hentry
    cases hentry
  · intro hunbound
    rw [h.idle] at hunbound
    cases hunbound
  · unfold LaunchState.At
    rw [h.idle]
    trivial

/-- A process that is a daemon or can still fork one. -/
def LaunchWorld.Capable (world : LaunchWorld place) (birth : Birth) : Prop :=
  world.Forking birth ∨ world.Serving birth

theorem WorldInvariant.capable {world : LaunchWorld place} (h : WorldInvariant world) {one other : Birth}
    (hone : world.Capable one) (hother : world.Capable other) : one = other := by
  rcases hone with hone | hone
  · rcases hother with hother | hother
    · exact h.forking one other hone hother
    · exact absurd hother (h.apart one other hone)
  · rcases hother with hother | hother
    · exact absurd hone (h.apart other one hother)
    · exact h.serving one other hone hother

section

variable {s t : LaunchState place} {act : LaunchAct}

/-- A file that a restriction leaves out. -/
theorem mem_files_restrict {files : List ImageFile} {file : ImageFile} (hmem : file ∈ s.world.files)
    (hkept : file ∈ files) : file ∈ (s.world.restrict files).files := by
  unfold LaunchWorld.files at hmem ⊢
  rcases List.mem_append.mp hmem with hmem | howner
  · rcases List.mem_append.mp hmem with hmem | hpending
    · rcases List.mem_append.mp hmem with hartifact | hpidfile
      · refine List.mem_append_left _ (List.mem_append_left _ (List.mem_append_left _ ?_))
        exact List.mem_filter.mpr ⟨hartifact, decide_eq_true hkept⟩
      · obtain ⟨entry, hentry, rfl⟩ := List.mem_map.mp hpidfile
        refine List.mem_append_left _ (List.mem_append_left _ (List.mem_append_right _ ?_))
        exact List.mem_map_of_mem (List.mem_filter.mpr ⟨hentry, decide_eq_true hkept⟩)
    · refine List.mem_append_left _ (List.mem_append_right _ ?_)
      split at hpending
      · rename_i hsome
        obtain rfl := List.mem_singleton.mp hpending
        have hsame : (s.world.restrict files).pending = s.world.pending := if_pos hkept
        rw [hsame, if_pos hsome]
        exact hpending
      · cases hpending
  · refine List.mem_append_right _ ?_
    split at howner
    · rename_i hsome
      obtain rfl := List.mem_singleton.mp howner
      have hsame : (s.world.restrict files).owner = s.world.owner := if_pos hkept
      rw [hsame, if_pos hsome]
      exact howner
    · cases howner

/-- The processes remove no file. -/
theorem worldStep_files {world : LaunchWorld place} {file : ImageFile} (hstep : WorldStep s.world world)
    (hmem : file ∈ s.world.files) : file ∈ world.files := by
  cases hstep with
  | exit | birth | fork => exact hmem
  | write hbirth hfile =>
      unfold LaunchWorld.files at hmem ⊢
      simp only [List.mem_append] at hmem ⊢
      exact hmem.imp (Or.imp (Or.imp (List.mem_cons_of_mem _) id) id) id
  | @name daemon paths hdaemon =>
      unfold LaunchWorld.files at hmem ⊢
      simp only [List.mem_append, List.map_cons, List.mem_cons] at hmem ⊢
      refine hmem.imp (Or.imp (Or.imp id ?_) id) id
      intro hpidfile
      by_cases hfile : file = place.resolve paths.pidfile
      · exact .inl hfile
      · obtain ⟨entry, hentry, rfl⟩ := List.mem_map.mp hpidfile
        exact .inr (List.mem_map_of_mem (List.mem_filter.mpr ⟨hentry, decide_eq_true hfile⟩))

/-- Why a step removes a file: the pending record of a directory with an owner record, or nothing serves. -/
theorem LaunchInvariant.removes (h : LaunchInvariant s) (hstep : LaunchStep s act t) {file : ImageFile}
    (hmem : file ∈ s.world.files) (hgone : file ∉ t.world.files) :
    file = place.pendingPath ∧ s.world.owner ≠ none ∨ s.world.Quiet := by
  have hsame : ∀ {files : List ImageFile}, file ∉ (s.world.restrict files).files →
      files = s.world.files ∨ s.world.Quiet → s.world.Quiet := by
    intro files hgone hfiles
    rcases hfiles with rfl | hquiet
    · exact absurd (mem_files_restrict hmem hmem) hgone
    · exact hquiet
  have hhere := h.here
  unfold LaunchState.At at hhere
  cases hstep with
  | begin | popen | started | acknowledge | openGate | release | observe | reap | bind | leave | raised | cleanUp
    | record | abandon => exact absurd hmem hgone
  | prepared hpoint htruthful hfiles hprepare | refused hpoint htruthful hfiles hprepare =>
      exact .inr (hsame hgone (prepareLaunch_quiet h htruthful hfiles hprepare))
  | authorize hpoint hlauncher =>
      rw [hpoint] at hhere
      exact .inr (h.world.unowned hhere.2.1 hhere.1)
  | handOff hpoint hdaemon hpending hstate =>
      refine absurd ?_ hgone
      unfold LaunchWorld.files at hmem ⊢
      rw [hpending] at hmem
      exact hmem
  | publish hpoint hdaemon =>
      refine absurd ?_ hgone
      unfold LaunchWorld.files at hmem ⊢
      rcases List.mem_append.mp hmem with hmem | howner
      · exact List.mem_append_left _ hmem
      · refine List.mem_append_right _ ?_
        split at howner
        · exact howner
        · cases howner
  | @settle env before hpoint hfiles =>
      rw [hpoint] at hhere
      by_cases hkept : file ∈ (env.durableUnlink place.pendingPath before).2.files
      · exact absurd (mem_files_restrict hmem hkept) hgone
      · exact .inl ⟨durableUnlink_other (hfiles ▸ hmem) hkept, hhere⟩
  | sweep hpoint hfiles =>
      rw [hpoint] at hhere
      exact .inr hhere
  | world hworld => exact absurd (worldStep_files hworld hmem) hgone
  | @recover env before hpoint htruthful hfiles =>
      by_cases hkept :
          file ∈ (env.recoverLazyPagesLaunch (place.image s.world.pending s.world.owner) before).2.files
      · exact absurd (mem_files_restrict hmem hkept) hgone
      · exact recover_cleared h.world htruthful hfiles hmem hkept

end

/-- **No daemon of an image directory is lost.**  For every run of launches and recoveries, each cut short at any of
its effects, with the processes going on between any two: at most one process is a daemon or can still fork one; either
the owner record names the only daemon there can be, or the pending record is there, or no released launcher and no
daemon is left; and a step removes a file of the directory only where none is left, or where it is the pending record
beside an owner record. -/
theorem lazy_pages_launches_accounted {s t : LaunchState place} {acts : List LaunchAct} (hinitial : s.Initial)
    (hrun : Run LaunchStep s acts t) :
    (∀ one other, t.world.Capable one → t.world.Capable other → one = other) ∧
      ((∃ record, t.world.owner = some record ∧ t.world.Only record.daemon) ∨ t.world.pending ≠ none ∨ t.world.Quiet) ∧
      ∀ act u, LaunchStep t act u → ∀ file ∈ t.world.files, file ∉ u.world.files →
        file = place.pendingPath ∧ t.world.owner ≠ none ∨ t.world.Quiet := by
  have hinvariant : LaunchInvariant t :=
    hrun.preserves (fun _ _ _ h hstep => h.step hstep) hinitial.invariant
  refine ⟨fun one other => hinvariant.world.capable, ?_, ?_⟩
  · cases howner : t.world.owner with
    | some record => exact .inl ⟨record, rfl, hinvariant.world.owned record howner⟩
    | none =>
        by_cases hpending : t.world.pending = none
        · exact .inr (.inr (hinvariant.world.unowned howner hpending))
        · exact .inr (.inl hpending)
  · exact fun act u hstep file hmem hgone => hinvariant.removes hstep hmem hgone

/-! ### A launch cut short behind its gate -/

def launchPlace : LaunchPlace where
  root := "/criu/a"
  resolve := fun name => ⟨"/criu/a", name⟩
  socket := "lazy-pages.socket"
  resolve_socket := rfl

def launchPaths : LaunchPaths launchPlace where
  pidfile := "lazy-pages-1.pid"
  log := "lazy-pages-1.log"
  pidfile_parent := rfl
  log_parent := rfl
  pidfile_name := by decide
  log_name := by decide

/-- An image directory with nothing in it. -/
def emptyImage : LaunchState launchPlace where
  point := .idle
  paths := launchPaths
  launcher := none
  released := false
  pendingKnown := false
  daemon := none
  world := ⟨none, none, [], [], fun _ => none, []⟩

theorem initial_emptyImage : emptyImage.Initial where
  idle := rfl
  pending := rfl
  owner := rfl
  pidfiles := rfl
  quiet := fun _ => ⟨fun ⟨_, _, h⟩ => absurd h (Option.some_ne_none _).symm,
    fun ⟨_, h⟩ => absurd h (Option.some_ne_none _).symm⟩
  identified := ⟨fun _ h => absurd rfl h, fun _ _ h => absurd rfl h⟩

/-- The directory behind the gate of its first launch. -/
def releasedWorld : LaunchWorld launchPlace where
  pending := some (launchPaths.pendingRecord sampleLauncher)
  owner := none
  artifacts := []
  pidfiles := []
  running := Function.update (Function.update (fun _ => none) sampleLauncher (some .gated)) sampleLauncher
    (some (.released launchPaths false))
  used := [sampleLauncher]

theorem fresh_releasedWorld : releasedWorld.Fresh sampleDaemon := by
  refine ⟨by decide, ?_⟩
  intro other hother hpid
  have hlauncher : other = sampleLauncher := by
    by_contra hne
    exact hother (by simp [releasedWorld, hne])
  rw [hlauncher] at hpid
  exact absurd hpid (by decide)

/-- The launcher was released, the launch was interrupted, and then the launcher forked its daemon. -/
def interruptedImage : LaunchState launchPlace where
  point := .idle
  paths := launchPaths
  launcher := some sampleLauncher
  released := false
  pendingKnown := true
  daemon := none
  world := (releasedWorld.become sampleLauncher (some (.released launchPaths true))).start sampleDaemon
    (.daemon launchPaths)

theorem run_interruptedImage : Run LaunchStep emptyImage (List.replicate 8 .launch ++ [.world]) interruptedImage := by
  have htruthful : emptyImage.world.Truthful (sampleEnvironment true) := fun _ _ _ => rfl
  have hprepare : (sampleEnvironment true).prepareLaunch launchPlace none "lazy-pages-1.pid"
      { sampleProgress with files := [] } = (.ok none, { sampleProgress with files := [] }) := by
    simp [Environment.prepareLaunch, LaunchPlace.checkPidfiles, launchPlace]
  refine .cons (.begin launchPaths rfl) ?_
  refine .cons (@LaunchStep.prepared _ _ (sampleEnvironment true) { sampleProgress with files := [] }
    { sampleProgress with files := [] } none rfl htruthful rfl hprepare) ?_
  refine .cons (@LaunchStep.popen _ _ sampleLauncher rfl ⟨by decide, fun _ h => absurd rfl h⟩) ?_
  refine .cons (.started rfl) ?_
  refine .cons (.authorize rfl rfl) ?_
  refine .cons (.acknowledge rfl) ?_
  refine .cons (@LaunchStep.openGate _ _ sampleLauncher rfl rfl rfl) ?_
  refine .cons .abandon ?_
  exact .cons (.world (@WorldStep.fork _ _ sampleLauncher sampleDaemon launchPaths rfl fresh_releasedWorld)) (.nil _)

theorem lazy_pages_launches_accounted_interrupted :
    interruptedImage.world.Serving sampleDaemon ∧ interruptedImage.world.owner = none ∧
      (∀ one other, interruptedImage.world.Capable one → interruptedImage.world.Capable other → one = other) ∧
      ((∃ record, interruptedImage.world.owner = some record ∧ interruptedImage.world.Only record.daemon) ∨
        interruptedImage.world.pending ≠ none ∨ interruptedImage.world.Quiet) ∧
      ∀ act u, LaunchStep interruptedImage act u → ∀ file ∈ interruptedImage.world.files, file ∉ u.world.files →
        file = launchPlace.pendingPath ∧ interruptedImage.world.owner ≠ none ∨ interruptedImage.world.Quiet :=
  ⟨⟨launchPaths, rfl⟩, rfl, lazy_pages_launches_accounted initial_emptyImage run_interruptedImage⟩

/-! ## What a pending record does -/

section

variable {place : LaunchPlace} {s t : LaunchState place} {act : LaunchAct}

theorem prepareLaunch_blocked {env : Environment} {owner : Option OwnerRecord} {pidfile : String} {before : Progress}
    (h : place.pendingPath ∈ before.files) :
    env.prepareLaunch place owner pidfile before =
      (.error "an incomplete lazy-pages launch intent requires recovery", before) :=
  if_pos h

/-- A restriction to the files that are there keeps both records. -/
theorem restrict_files : (s.world.restrict s.world.files).pending = s.world.pending ∧
    (s.world.restrict s.world.files).owner = s.world.owner := by
  refine ⟨?_, ?_⟩
  · cases hpending : s.world.pending with
    | none => simp [LaunchWorld.restrict, hpending]
    | some record =>
        have hmem : place.pendingPath ∈ s.world.files :=
          mem_files_pending (by rw [hpending]; exact Option.some_ne_none _)
        exact (if_pos hmem).trans hpending
  · cases howner : s.world.owner with
    | none => simp [LaunchWorld.restrict, howner]
    | some record =>
        have hmem : place.ownerPath ∈ s.world.files :=
          mem_files_owner (by rw [howner]; exact Option.some_ne_none _)
        exact (if_pos hmem).trans howner

/-- A launch beside a pending record got no further than its preparation. -/
structure Blocked (before : LaunchWorld place) (record : PendingRecord) (s : LaunchState place) : Prop where
  pending : s.world.pending = some record
  owner : s.world.owner = before.owner
  launching : ∀ birth, s.world.Launching birth → before.Launching birth
  point : s.point = .idle ∨ (s.point = .preflight ∨ s.point = .failed) ∧ s.launcher = none ∨ s.point = .receipt false

/-- The points that a blocked launch does not reach. -/
theorem Blocked.point_ne {before : LaunchWorld place} {record : PendingRecord} (h : Blocked before record s)
    {point : LaunchPoint} (hpoint : s.point = point)
    (hne : point ≠ .idle ∧ point ≠ .preflight ∧ point ≠ .failed ∧ point ≠ .receipt false) : False := by
  obtain ⟨hidle, hpreflight, hfailed, hreceipt⟩ := hne
  rcases h.point with hat | ⟨hat | hat, -⟩ | hat
  · exact hidle (hpoint.symm.trans hat)
  · exact hpreflight (hpoint.symm.trans hat)
  · exact hfailed (hpoint.symm.trans hat)
  · exact hreceipt (hpoint.symm.trans hat)

theorem launching_worldStep {world after : LaunchWorld place} (hstep : WorldStep world after) {birth : Birth}
    (h : after.Launching birth) : world.Launching birth := by
  cases hstep with
  | exit other => exact (LaunchWorld.shrinks_become (by simp) (by simp)).launching birth h
  | birth hfresh => exact (LaunchWorld.shrinks_start (by simp) (by simp)).launching birth h
  | fork hlauncher hfresh =>
      obtain ⟨paths, forked, hrunning⟩ := h
      rcases WorldInvariant.fork_running hlauncher hfresh hrunning with ⟨-, hrole⟩ | ⟨-, rfl, -⟩ | ⟨-, -, hold⟩
      · cases hrole
      · exact ⟨_, _, hlauncher⟩
      · exact ⟨paths, forked, hold⟩
  | write hbirth hfile => exact h
  | name hdaemon => exact h

/-- What a launch beside a pending record can do. -/
theorem Blocked.step {before : LaunchWorld place} {record : PendingRecord} (h : Blocked before record s)
    (hstep : LaunchStep s act t) (hact : act ≠ .recovery) : Blocked before record t := by
  cases hstep with
  | begin paths hpoint => exact ⟨h.pending, h.owner, h.launching, .inr (.inl ⟨.inl rfl, rfl⟩)⟩
  | @prepared env progress after result hpoint htruthful hfiles hprepare =>
      have hmem := mem_files_pending (s := s) (by rw [h.pending]; exact Option.some_ne_none _)
      rw [prepareLaunch_blocked (hfiles ▸ hmem)] at hprepare
      cases hprepare
  | @refused env progress after error hpoint htruthful hfiles hprepare =>
      have hmem := mem_files_pending (s := s) (by rw [h.pending]; exact Option.some_ne_none _)
      rw [prepareLaunch_blocked (hfiles ▸ hmem)] at hprepare
      obtain ⟨-, rfl⟩ := Prod.mk.inj hprepare
      have hlauncher : s.launcher = none := by
        rcases h.point with hat | ⟨-, hlauncher⟩ | hat
        · exact absurd (hpoint.symm.trans hat) LaunchPoint.noConfusion
        · exact hlauncher
        · exact absurd (hpoint.symm.trans hat) LaunchPoint.noConfusion
      rw [hfiles]
      exact ⟨restrict_files.1.trans h.pending, restrict_files.2.trans h.owner, h.launching,
        .inr (.inl ⟨.inr rfl, hlauncher⟩)⟩
  | popen hpoint | started hpoint | authorize hpoint | acknowledge hpoint | openGate hpoint | release hpoint
    | observe hpoint | reap hpoint | bind hpoint | handOff hpoint | publish hpoint | leave hpoint | settle hpoint
    | record hpoint | sweep hpoint => exact (h.point_ne hpoint (by simp)).elim
  | raised hpoint =>
      refine ⟨h.pending, h.owner, h.launching, ?_⟩
      rcases h.point with hat | ⟨-, hlauncher⟩ | hat
      · rw [hat] at hpoint
        cases hpoint
      · exact .inr (.inl ⟨.inr rfl, hlauncher⟩)
      · rw [hat] at hpoint
        cases hpoint
  | @cleanUp env progress terminated parentLive report hpoint htruthful hterminated hparent hreport =>
      refine ⟨h.pending, h.owner, h.launching, .inr (.inr ?_)⟩
      have hlauncher : s.launcher = none := by
        rcases h.point with hat | ⟨-, hlauncher⟩ | hat
        · exact absurd (hpoint.symm.trans hat) LaunchPoint.noConfusion
        · exact hlauncher
        · exact absurd (hpoint.symm.trans hat) LaunchPoint.noConfusion
      cases hclears : report.clears with
      | false => rfl
      | true =>
          obtain ⟨launcher, -, -, hsome, -⟩ := clears_cleanupFailedLaunch hreport hclears
          exact absurd (hlauncher.symm.trans hsome) (Option.some_ne_none _).symm
  | abandon => exact ⟨h.pending, h.owner, h.launching, .inl rfl⟩
  | world hworld =>
      obtain ⟨hpending, howner⟩ := LaunchWorld.worldStep_records hworld
      exact ⟨hpending.trans h.pending, howner.trans h.owner,
        fun birth hbirth => h.launching birth (launching_worldStep hworld hbirth), h.point⟩
  | recover => exact absurd rfl hact

end

/-- **A pending record stops every launch.**  However many launches begin beside it, and wherever they are cut short:
until a recovery, the pending record stays as it is, the owner record too, and no launcher is released. -/
theorem pending_launch_blocks {s t : LaunchState place} {acts : List LaunchAct} {record : PendingRecord}
    (hidle : s.point = .idle) (hpending : s.world.pending = some record) (hrun : Run LaunchStep s acts t)
    (hacts : LaunchAct.recovery ∉ acts) :
    t.world.pending = some record ∧ t.world.owner = s.world.owner ∧
      ∀ birth, t.world.Launching birth → s.world.Launching birth := by
  have hstart : Blocked s.world record s := ⟨hpending, rfl, fun _ => id, .inl hidle⟩
  have hblocked : ∀ {s t : LaunchState place} {before : LaunchWorld place} {acts : List LaunchAct},
      Run LaunchStep s acts t → LaunchAct.recovery ∉ acts → Blocked before record s → Blocked before record t := by
    intro s t before acts hrun hacts hblocked
    induction hrun with
    | nil => exact hblocked
    | cons hstep _ ih =>
        simp only [List.mem_cons, not_or] at hacts
        exact ih hacts.2 (hblocked.step hstep (Ne.symm hacts.1))
  have hend := hblocked hrun hacts hstart
  exact ⟨hend.pending, hend.owner, hend.launching⟩

/-- The next launch, behind its refusal. -/
def refusedImage : LaunchState launchPlace where
  point := .failed
  paths := launchPaths
  launcher := none
  released := false
  pendingKnown := false
  daemon := none
  world := interruptedImage.world.restrict interruptedImage.world.files

theorem run_refusedImage : Run LaunchStep interruptedImage [.launch, .launch] refusedImage := by
  have hfiles : launchPlace.pendingPath ∈ interruptedImage.world.files := by decide
  have hrunning : ∀ birth, interruptedImage.world.running birth ≠ none → birth = sampleLauncher ∨ birth = sampleDaemon := by
    intro birth hbirth
    by_contra hne
    simp only [not_or] at hne
    refine hbirth ?_
    simp [interruptedImage, releasedWorld, LaunchWorld.start, LaunchWorld.become, hne.1, hne.2]
  have htruthful : interruptedImage.world.Truthful (sampleEnvironment true) := by
    intro check birth hsettled
    by_contra hbirth
    rcases hrunning birth hbirth with rfl | rfl <;>
      simp [daemonLiveness, sampleEnvironment, sampleLauncher, sampleDaemon, Liveness.settled] at hsettled
  refine .cons (.begin launchPaths rfl) ?_
  exact .cons (@LaunchStep.refused _ _ (sampleEnvironment true)
    { sampleProgress with files := interruptedImage.world.files } _ _ rfl htruthful rfl
    (prepareLaunch_blocked hfiles)) (.nil _)

theorem pending_launch_blocks_next : interruptedImage.world.Serving sampleDaemon ∧
    refusedImage.world.pending = some (launchPaths.pendingRecord sampleLauncher) ∧
      refusedImage.world.owner = interruptedImage.world.owner ∧
      ∀ birth, refusedImage.world.Launching birth → interruptedImage.world.Launching birth :=
  ⟨⟨launchPaths, rfl⟩, pending_launch_blocks rfl rfl run_refusedImage (by decide)⟩

end Hearth.Criu
