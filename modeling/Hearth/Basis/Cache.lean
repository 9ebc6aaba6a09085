import Hearth.Library.Transition
import Mathlib.Data.Set.Card
import Mathlib.Data.String.Basic

/-!
# The cache of project bases

The index of prepared bases of `project_basis.py`, one row a key, and what the holder of
`project_basis_lock` does to it in `cli/project_basis_replay.py` and `cli/prove_basis.py`:
look a basis up, make room, adopt, retire.  Processes may die and evaluations may end
between any two steps, and the holder itself may be gone at any point; a process identity
is not taken twice.

The clock is that of `time.time`, and never goes back.
-/

namespace Hearth.Basis

open Hearth.Library

/-- `MAX_LIVE_BASES`. -/
def maxLiveBases : ℕ := 3

/-! ## The index -/

/-- The status of a row, with the `retirement_reason` of a retired one. -/
inductive RowStatus
  | ready
  | retired (reason : String)
  deriving DecidableEq, Repr

/-- What is read of a `basis.json`: the identities of the two processes are numbers, and
`inside` says whether the session resolves to a path in the cache. -/
structure BasisRow where
  status : RowStatus
  identity : String
  broker : ℕ
  basis : ℕ
  inside : Bool
  lastUsed : ℕ
  deriving DecidableEq, Repr

/-- What the lock's holder has planned to use. -/
structure CachePlan where
  key : String
  identity : String
  deriving DecidableEq, Repr

/-- A live row in the hands of `_make_room`. -/
structure LiveEntry where
  key : String
  row : BasisRow
  deriving DecidableEq, Repr

/-- The order of `sorted(live)`; two rows never have one path. -/
def LiveEntry.le (a b : LiveEntry) : Bool :=
  a.row.lastUsed < b.row.lastUsed || (a.row.lastUsed = b.row.lastUsed && a.key ≤ b.key)

/-! ## Asking a broker -/

/-- The answer to a `status` request. -/
structure StatusReply where
  status : String
  activeChildren : List ℕ
  deriving DecidableEq, Repr

/-- How `assert_live_basis` ends: it returns, raises `ProjectBasisBusy`, or raises anything
else. -/
inductive LiveCheck
  | idle | evaluating | refused
  deriving DecidableEq, Repr

/-- `assert_live_basis`, from whether the backend of the row is the current one, whether both
processes are live, whether the basis has one thread, and the answer of the broker, if any. -/
def assertLiveBasis (backend live singleThreaded : Bool) (reply : Option StatusReply) : LiveCheck :=
  if backend && live && singleThreaded then
    match reply with
    | none => .refused
    | some reply =>
        if reply.status = "ready" ∧ reply.activeChildren ≠ [] then .evaluating
        else if reply.status ≠ "ready" ∨ reply.activeChildren ≠ [] then .refused
        else .idle
  else .refused

/-! ## The cache -/

/-- Where the holder of the lock is. -/
inductive CachePhase
  /-- Nobody holds the lock. -/
  | idle
  | looking (plan : CachePlan)
  /-- `lookup_basis` returned `None`. -/
  | missed (plan : CachePlan)
  | superseded (plan : CachePlan)
  | sweeping (plan : CachePlan) (paths : List String) (live : List LiveEntry)
  /-- The rows to evict, and the rest of the sorted list. -/
  | evicting (plan : CachePlan) (victims kept : List LiveEntry)
  | stopping (plan : CachePlan) (victim : LiveEntry) (victims kept : List LiveEntry)
  /-- `_make_room` returned. -/
  | preparing (plan : CachePlan)
  | serving (key : String)
  | retiring
  deriving DecidableEq, Repr

/-- The index, the processes, and the holder of the lock. -/
structure Cache where
  rows : String → Option BasisRow
  alive : ℕ → Bool
  /-- The active children of the broker with this identity. -/
  children : ℕ → List ℕ
  clock : ℕ
  /-- When a key was last adopted or found. -/
  used : String → ℕ
  phase : CachePhase

/-- Who takes a step of the cache. -/
inductive CacheActor
  | world | holder
  deriving DecidableEq, Repr

namespace Cache

def empty : Cache where
  rows := fun _ => none
  alive := fun _ => false
  children := fun _ => []
  clock := 0
  used := fun _ => 0
  phase := .idle

variable (cache : Cache)

/-- `_live` of both processes. -/
def live (row : BasisRow) : Bool :=
  cache.alive row.broker && cache.alive row.basis

/-- The key has a row that is ready and live. -/
def ReadyLive (key : String) : Prop :=
  ∃ row, cache.rows key = some row ∧ row.status = .ready ∧ cache.live row = true

/-- The key has a live basis with an active child. -/
def Evaluating (key : String) : Prop :=
  ∃ row, cache.rows key = some row ∧ row.status = .ready ∧ cache.live row = true ∧
    cache.children row.broker ≠ []

/-- No ready row has the key. -/
def Vacant (key : String) : Prop :=
  ∀ row, cache.rows key = some row → row.status ≠ .ready

/-- What a broker says of its children is so. -/
def Truthful (row : BasisRow) (reply : Option StatusReply) : Prop :=
  ∀ answer, reply = some answer → answer.activeChildren = cache.children row.broker

/-- The processes of a row are told to end; whether they do is theirs. -/
def Terminated (row : BasisRow) (alive : ℕ → Bool) : Prop :=
  (∀ process, alive process = true → cache.alive process = true) ∧
    ∀ process, process ≠ row.broker → process ≠ row.basis → alive process = cache.alive process

/-- `row.update(status="retired", retirement_reason=…)`, written to the index. -/
def retire (key : String) (row : BasisRow) (reason : String) (alive : ℕ → Bool) : Cache :=
  { cache with
    rows := Function.update cache.rows key (some { row with status := .retired reason })
    alive }

/-- The key's ready row is retired for this reason on the way to another cache. -/
def Retires (after : Cache) (key reason : String) : Prop :=
  ∃ row, cache.rows key = some row ∧ row.status = .ready ∧
    after.rows key = some { row with status := .retired reason }

/-- `last_used_epoch_seconds` is now. -/
def touch (key : String) (row : BasisRow) : Cache :=
  { cache with
    rows := Function.update cache.rows key (some { row with lastUsed := cache.clock })
    used := Function.update cache.used key cache.clock }

/-- The row that `adopt_basis` publishes, with two processes that are new. -/
def adopt (plan : CachePlan) (broker basis : ℕ) (inside brokerAlive basisAlive : Bool) : Cache :=
  { cache with
    rows := Function.update cache.rows plan.key
      (some ⟨.ready, plan.identity, broker, basis, inside, cache.clock⟩)
    alive := Function.update (Function.update cache.alive broker brokerAlive) basis basisAlive
    children := Function.update cache.children broker []
    used := Function.update cache.used plan.key cache.clock }

/-- No row names the process. -/
def Fresh (process : ℕ) : Prop :=
  ∀ key row, cache.rows key = some row → row.broker ≠ process ∧ row.basis ≠ process

end Cache

/-- The steps of the cache. -/
inductive CacheStep (cache : Cache) : CacheActor → Cache → Prop
  | crash (process : ℕ) :
      CacheStep cache .world { cache with alive := Function.update cache.alive process false }
  /-- Attempts of a broker end. -/
  | settle (broker : ℕ) (remaining : List ℕ) (hsub : remaining ⊆ cache.children broker) :
      CacheStep cache .world
        { cache with children := Function.update cache.children broker remaining }
  | tick (later : ℕ) (hle : cache.clock ≤ later) : CacheStep cache .world { cache with clock := later }
  | acquire (plan : CachePlan) (hphase : cache.phase = .idle) :
      CacheStep cache .holder { cache with phase := .looking plan }
  | acquireRetirement (hphase : cache.phase = .idle) :
      CacheStep cache .holder { cache with phase := .retiring }
  /-- The holder returns, raises or is gone. -/
  | leave : CacheStep cache .holder { cache with phase := .idle }
  /-- No row, or not a ready one of this identity. -/
  | miss {plan : CachePlan} (hphase : cache.phase = .looking plan)
      (hother : ∀ row, cache.rows plan.key = some row →
        row.status ≠ .ready ∨ row.identity ≠ plan.identity) :
      CacheStep cache .holder { cache with phase := .missed plan }
  | disappeared {plan : CachePlan} {row : BasisRow} (alive : ℕ → Bool)
      (hphase : cache.phase = .looking plan) (hrow : cache.rows plan.key = some row)
      (hready : row.status = .ready) (hidentity : row.identity = plan.identity)
      (hdead : cache.live row = false) (hterminated : cache.Terminated row alive) :
      CacheStep cache .holder
        { cache.retire plan.key row "owned_generation_disappeared" alive with phase := .missed plan }
  /-- The revalidation passes. -/
  | hit {plan : CachePlan} {row : BasisRow} {backend singleThreaded : Bool}
      {reply : Option StatusReply} (hphase : cache.phase = .looking plan)
      (hrow : cache.rows plan.key = some row) (hready : row.status = .ready)
      (hidentity : row.identity = plan.identity) (hlive : cache.live row = true)
      (hinside : row.inside = true) (hreply : cache.Truthful row reply)
      (hcheck : assertLiveBasis backend true singleThreaded reply = .idle) :
      CacheStep cache .holder { cache.touch plan.key row with phase := .serving plan.key }
  /-- The revalidation fails with anything but `ProjectBasisBusy`: the session is not in the
  cache, the check is refused, or the receipt is not the admitted one. -/
  | stale {plan : CachePlan} {row : BasisRow} {backend singleThreaded receipt : Bool}
      {reply : Option StatusReply} (alive : ℕ → Bool) (hphase : cache.phase = .looking plan)
      (hrow : cache.rows plan.key = some row) (hready : row.status = .ready)
      (hidentity : row.identity = plan.identity) (hreply : cache.Truthful row reply)
      (hfailed : row.inside = false ∨
        assertLiveBasis backend (cache.live row) singleThreaded reply = .refused ∨
        assertLiveBasis backend (cache.live row) singleThreaded reply = .idle ∧ receipt = false)
      (hterminated : cache.Terminated row alive) :
      CacheStep cache .holder
        { cache.retire plan.key row "cached_generation_failed_revalidation" alive with
          phase := .missed plan }
  /-- There is no previous generation. -/
  | unoccupied {plan : CachePlan} (hphase : cache.phase = .missed plan)
      (hvacant : cache.Vacant plan.key) :
      CacheStep cache .holder { cache with phase := .superseded plan }
  /-- The previous generation is retired; a live one only after `assert_live_basis`. -/
  | supersede {plan : CachePlan} {row : BasisRow} {backend singleThreaded : Bool}
      {reply : Option StatusReply} (alive : ℕ → Bool) (hphase : cache.phase = .missed plan)
      (hrow : cache.rows plan.key = some row) (hready : row.status = .ready)
      (hreply : cache.Truthful row reply)
      (hcheck : cache.live row = true →
        assertLiveBasis backend true singleThreaded reply = .idle)
      (hterminated : cache.Terminated row alive) :
      CacheStep cache .holder
        { cache.retire plan.key row "superseded_owned_generation" alive with
          phase := .superseded plan }
  /-- `plan.cache_root.glob("*/basis.json")`. -/
  | glob {plan : CachePlan} (paths : List String) (hphase : cache.phase = .superseded plan)
      (hnodup : paths.Nodup) (hpaths : ∀ key, (cache.rows key).isSome = true → key ∈ paths) :
      CacheStep cache .holder { cache with phase := .sweeping plan paths [] }
  | pass {plan : CachePlan} {key : String} {paths : List String} {live : List LiveEntry}
      (hphase : cache.phase = .sweeping plan (key :: paths) live) (hvacant : cache.Vacant key) :
      CacheStep cache .holder { cache with phase := .sweeping plan paths live }
  | keep {plan : CachePlan} {key : String} {paths : List String} {live : List LiveEntry}
      {row : BasisRow} (hphase : cache.phase = .sweeping plan (key :: paths) live)
      (hrow : cache.rows key = some row) (hready : row.status = .ready)
      (hlive : cache.live row = true) :
      CacheStep cache .holder { cache with phase := .sweeping plan paths (live ++ [⟨key, row⟩]) }
  | sweep {plan : CachePlan} {key : String} {paths : List String} {live : List LiveEntry}
      {row : BasisRow} (alive : ℕ → Bool) (hphase : cache.phase = .sweeping plan (key :: paths) live)
      (hrow : cache.rows key = some row) (hready : row.status = .ready)
      (hdead : cache.live row = false) (hterminated : cache.Terminated row alive) :
      CacheStep cache .holder
        { cache.retire key row "owned_generation_disappeared" alive with
          phase := .sweeping plan paths live }
  /-- `sorted(live)[:max(0, len(live) - MAX_LIVE_BASES + 1)]`. -/
  | select {plan : CachePlan} {live : List LiveEntry} (hphase : cache.phase = .sweeping plan [] live) :
      CacheStep cache .holder
        { cache with
          phase := .evicting plan
            ((live.mergeSort LiveEntry.le).take (live.length + 1 - maxLiveBases))
            ((live.mergeSort LiveEntry.le).drop (live.length + 1 - maxLiveBases)) }
  /-- The broker is ready without children, and is asked to stop. -/
  | request {plan : CachePlan} {victim : LiveEntry} {victims kept : List LiveEntry}
      {reply : StatusReply} (hphase : cache.phase = .evicting plan (victim :: victims) kept)
      (hinside : victim.row.inside = true) (hreply : cache.Truthful victim.row (some reply))
      (hstatus : reply.status = "ready") (hidle : reply.activeChildren = []) :
      CacheStep cache .holder { cache with phase := .stopping plan victim victims kept }
  /-- The broker is gone in time. -/
  | evict {plan : CachePlan} {victim : LiveEntry} {victims kept : List LiveEntry}
      (hphase : cache.phase = .stopping plan victim victims kept)
      (hgone : cache.alive victim.row.broker = false) :
      CacheStep cache .holder
        { cache.retire victim.key victim.row "live_basis_limit" cache.alive with
          phase := .evicting plan victims kept }
  | roomy {plan : CachePlan} {kept : List LiveEntry} (hphase : cache.phase = .evicting plan [] kept) :
      CacheStep cache .holder { cache with phase := .preparing plan }
  | adopt {plan : CachePlan} (broker basis : ℕ) (inside brokerAlive basisAlive : Bool)
      (hphase : cache.phase = .preparing plan) (hbroker : cache.Fresh broker)
      (hbasis : cache.Fresh basis) :
      CacheStep cache .holder
        { cache.adopt plan broker basis inside brokerAlive basisAlive with phase := .serving plan.key }
  /-- The leaf is evaluated in a child of the basis. -/
  | evaluate {key : String} {row : BasisRow} (child : ℕ) (hphase : cache.phase = .serving key)
      (hrow : cache.rows key = some row) :
      CacheStep cache .holder
        { cache with
          children :=
            Function.update cache.children row.broker (child :: cache.children row.broker) }
  /-- The evaluation did not end cleanly. -/
  | unclean {key : String} {row : BasisRow} (alive : ℕ → Bool) (hphase : cache.phase = .serving key)
      (hrow : cache.rows key = some row) (hterminated : cache.Terminated row alive) :
      CacheStep cache .holder (cache.retire key row "owned_basis_lifecycle_failure" alive)
  /-- `retire_listed_basis`. -/
  | retireListed {key : String} {row : BasisRow} (alive : ℕ → Bool) (hphase : cache.phase = .retiring)
      (hrow : cache.rows key = some row) (hterminated : cache.Terminated row alive) :
      CacheStep cache .holder (cache.retire key row "retired_by_hearth_basis" alive)

/-! ## What a step does to the ready rows -/

section

variable {cache after : Cache} {key other reason : String} {row : BasisRow} {alive : ℕ → Bool}

/-- A row that is live after its processes were told to end was live before. -/
theorem Cache.Terminated.live (h : cache.Terminated row alive) {another : BasisRow}
    (hlive : (alive another.broker && alive another.basis) = true) : cache.live another = true := by
  obtain ⟨hbroker, hbasis⟩ := Bool.and_eq_true_iff.mp hlive
  exact Bool.and_eq_true_iff.mpr ⟨h.1 _ hbroker, h.1 _ hbasis⟩

theorem Cache.Terminated.refl : cache.Terminated row cache.alive :=
  ⟨fun _ => id, fun _ _ _ => rfl⟩

/-- The rows after a retirement. -/
theorem Cache.retire_rows :
    (cache.retire key row reason alive).rows other =
      if other = key then some { row with status := .retired reason } else cache.rows other := by
  by_cases heq : other = key
  · rw [if_pos heq, heq]
    exact Function.update_self ..
  · rw [if_neg heq]
    exact Function.update_of_ne heq ..

theorem Cache.vacant_retire (hvacant : other = key ∨ cache.Vacant other) :
    (cache.retire key row reason alive).Vacant other := by
  intro found hfound hready
  rw [Cache.retire_rows] at hfound
  by_cases heq : other = key
  · rw [if_pos heq] at hfound
    cases hfound
    cases hready
  · rw [if_neg heq] at hfound
    exact hvacant.resolve_left heq found hfound hready

theorem Cache.readyLive_retire (hterminated : cache.Terminated row alive)
    (h : (cache.retire key row reason alive).ReadyLive other) :
    other ≠ key ∧ cache.ReadyLive other := by
  obtain ⟨found, hfound, hready, hlive⟩ := h
  rw [Cache.retire_rows] at hfound
  by_cases heq : other = key
  · rw [if_pos heq] at hfound
    cases hfound
    cases hready
  · rw [if_neg heq] at hfound
    exact ⟨heq, found, hfound, hready, hterminated.live hlive⟩

theorem Cache.readyLive_touch (hrow : cache.rows key = some row) (hready : row.status = .ready)
    (h : (cache.touch key row).ReadyLive other) : cache.ReadyLive other := by
  obtain ⟨found, hfound, hfoundReady, hlive⟩ := h
  change Function.update cache.rows key _ other = some found at hfound
  by_cases heq : other = key
  · rw [heq, Function.update_self] at hfound
    cases hfound
    exact heq ▸ ⟨row, hrow, hready, hlive⟩
  · rw [Function.update_of_ne heq] at hfound
    exact ⟨found, hfound, hfoundReady, hlive⟩

/-- An adoption makes no other row live: its processes are new. -/
theorem Cache.readyLive_adopt {plan : CachePlan} {broker basis : ℕ} {inside first second : Bool}
    (hbroker : cache.Fresh broker) (hbasis : cache.Fresh basis)
    (h : (cache.adopt plan broker basis inside first second).ReadyLive other) :
    other = plan.key ∨ cache.ReadyLive other := by
  obtain ⟨found, hfound, hready, hlive⟩ := h
  change Function.update cache.rows plan.key _ other = some found at hfound
  by_cases heq : other = plan.key
  · exact .inl heq
  · rw [Function.update_of_ne heq] at hfound
    obtain ⟨hb, hb'⟩ := hbroker other found hfound
    obtain ⟨ha, ha'⟩ := hbasis other found hfound
    change (Function.update (Function.update cache.alive broker first) basis second found.broker &&
      Function.update (Function.update cache.alive broker first) basis second found.basis) = true
      at hlive
    rw [Function.update_of_ne ha, Function.update_of_ne hb, Function.update_of_ne ha',
      Function.update_of_ne hb'] at hlive
    exact .inr ⟨found, hfound, hready, hlive⟩

/-! ## The invariant -/

/-- The entries are ready rows of the index, one a key. -/
def Cache.Listed (cache : Cache) (entries : List LiveEntry) : Prop :=
  (entries.map LiveEntry.key).Nodup ∧
    ∀ entry ∈ entries, cache.rows entry.key = some entry.row ∧ entry.row.status = .ready

/-- No basis is live outside these keys. -/
def Cache.Covered (cache : Cache) (keys : List String) : Prop :=
  ∀ key, cache.ReadyLive key → key ∈ keys

/-- What is so while rows are evicted: the victims are the first of a sorted list that covers
the live rows, and few are kept. -/
structure Cache.RoomFacts (cache : Cache) (victims kept : List LiveEntry) : Prop where
  listed : cache.Listed (victims ++ kept)
  covered : cache.Covered ((victims ++ kept).map LiveEntry.key)
  sorted : (victims ++ kept).Pairwise fun a b => LiveEntry.le a b = true
  few : kept.length ≤ maxLiveBases - 1

/-- What is so where the holder is. -/
def Cache.PhaseFacts (cache : Cache) : CachePhase → Prop
  | .idle | .looking _ | .missed _ | .serving _ | .retiring => True
  | .superseded plan => cache.Vacant plan.key
  | .sweeping plan paths live =>
      cache.Vacant plan.key ∧ cache.Listed live ∧ (paths ++ live.map LiveEntry.key).Nodup ∧
        cache.Covered (paths ++ live.map LiveEntry.key)
  | .evicting plan victims kept => cache.Vacant plan.key ∧ cache.RoomFacts victims kept
  | .stopping plan victim victims kept =>
      cache.Vacant plan.key ∧ cache.RoomFacts (victim :: victims) kept ∧
        cache.children victim.row.broker = []
  | .preparing plan =>
      cache.Vacant plan.key ∧ ∃ kept : List LiveEntry,
        cache.Covered (kept.map LiveEntry.key) ∧ kept.length ≤ maxLiveBases - 1

/-- The invariant of the cache. -/
structure CacheFacts (cache : Cache) : Prop where
  bound : {key | cache.ReadyLive key}.encard ≤ maxLiveBases
  used : ∀ key row, cache.rows key = some row → row.status = .ready → row.lastUsed = cache.used key
  phase : cache.PhaseFacts cache.phase

theorem cacheFacts_empty : CacheFacts .empty := by
  refine ⟨?_, nofun, trivial⟩
  have hnone : {key | Cache.empty.ReadyLive key} = ∅ := by
    ext key
    constructor
    · rintro ⟨row, hrow, -⟩
      cases hrow
    · exact nofun
  rw [hnone, Set.encard_empty]
  exact zero_le

/-- Fewer live keys than a list has. -/
theorem Cache.Covered.encard_le {keys : List String} (h : cache.Covered keys) :
    {key | cache.ReadyLive key}.encard ≤ keys.length := by
  calc {key | cache.ReadyLive key}.encard
      ≤ (keys.toFinset : Set String).encard := by
        apply Set.encard_le_encard
        intro key hlive
        exact List.mem_toFinset.mpr (h key hlive)
    _ = keys.toFinset.card := Set.encard_coe_eq_coe_finsetCard _
    _ ≤ keys.length := by exact_mod_cast List.toFinset_card_le keys

theorem CacheFacts.bound_of_subset (h : CacheFacts cache)
    (hsub : ∀ key, after.ReadyLive key → cache.ReadyLive key) :
    {key | after.ReadyLive key}.encard ≤ maxLiveBases :=
  (Set.encard_le_encard hsub).trans h.bound

/-- What the sweep and the eviction know stays so while the rows do. -/
theorem Cache.PhaseFacts.mono {phase : CachePhase} (h : cache.PhaseFacts phase)
    (hrows : after.rows = cache.rows) (hlive : ∀ key, after.ReadyLive key → cache.ReadyLive key)
    (hchildren : ∀ broker, cache.children broker = [] → after.children broker = []) :
    after.PhaseFacts phase := by
  have hvacant : ∀ {key}, cache.Vacant key → after.Vacant key := by
    intro key hvacant found hfound
    rw [hrows] at hfound
    exact hvacant found hfound
  have hlisted : ∀ {entries}, cache.Listed entries → after.Listed entries := by
    intro entries hlisted
    refine ⟨hlisted.1, fun entry hentry => ?_⟩
    rw [hrows]
    exact hlisted.2 entry hentry
  have hcovered : ∀ {keys}, cache.Covered keys → after.Covered keys :=
    fun hcovered key hkey => hcovered key (hlive key hkey)
  have hroom : ∀ {victims kept}, cache.RoomFacts victims kept → after.RoomFacts victims kept :=
    fun hroom => ⟨hlisted hroom.listed, hcovered hroom.covered, hroom.sorted, hroom.few⟩
  cases phase with
  | idle | looking | missed | serving | retiring => trivial
  | superseded plan => exact hvacant h
  | sweeping plan paths live =>
      exact ⟨hvacant h.1, hlisted h.2.1, h.2.2.1, hcovered h.2.2.2⟩
  | evicting plan victims kept => exact ⟨hvacant h.1, hroom h.2⟩
  | stopping plan victim victims kept =>
      exact ⟨hvacant h.1, hroom h.2.1, hchildren _ h.2.2⟩
  | preparing plan =>
      obtain ⟨kept, hkept, hfew⟩ := h.2
      exact ⟨hvacant h.1, kept, hcovered hkept, hfew⟩

/-- A step that leaves the rows and the phase alone. -/
theorem CacheFacts.steady (h : CacheFacts cache) (hrows : after.rows = cache.rows)
    (hused : after.used = cache.used) (hphase : after.phase = cache.phase)
    (hlive : ∀ key, after.ReadyLive key → cache.ReadyLive key)
    (hchildren : ∀ broker, cache.children broker = [] → after.children broker = []) :
    CacheFacts after := by
  refine ⟨h.bound_of_subset hlive, ?_, ?_⟩
  · intro key row hrow hready
    rw [hrows] at hrow
    rw [hused]
    exact h.used key row hrow hready
  · rw [hphase]
    exact h.phase.mono hrows hlive hchildren

/-- A step that only moves the holder. -/
theorem CacheFacts.moved (h : CacheFacts cache) {phase : CachePhase}
    (hphase : cache.PhaseFacts phase) : CacheFacts { cache with phase := phase } :=
  ⟨h.bound_of_subset fun _ => id, h.used, hphase.mono rfl (fun _ => id) (fun _ => id)⟩

/-- A retirement that moves the holder. -/
theorem CacheFacts.retired (h : CacheFacts cache) {phase : CachePhase}
    (hterminated : cache.Terminated row alive)
    (hphase : (cache.retire key row reason alive).PhaseFacts phase) :
    CacheFacts { cache.retire key row reason alive with phase := phase } := by
  refine ⟨h.bound_of_subset fun other hlive => (Cache.readyLive_retire hterminated hlive).2, ?_,
    hphase.mono rfl (fun _ => id) (fun _ => id)⟩
  intro other found hfound hready
  change (cache.retire key row reason alive).rows other = some found at hfound
  rw [Cache.retire_rows] at hfound
  by_cases heq : other = key
  · rw [if_pos heq] at hfound
    cases hfound
    cases hready
  · rw [if_neg heq] at hfound
    exact h.used other found hfound hready

theorem Cache.readyLive_crash {process : ℕ}
    (h : Cache.ReadyLive { cache with alive := Function.update cache.alive process false } other) :
    cache.ReadyLive other := by
  obtain ⟨row, hrow, hready, hlive⟩ := h
  refine ⟨row, hrow, hready, ?_⟩
  have hkeep : ∀ pid, Function.update cache.alive process false pid = true →
      cache.alive pid = true := by
    intro pid hpid
    by_cases heq : pid = process
    · rw [heq, Function.update_self] at hpid
      cases hpid
    · rwa [Function.update_of_ne heq] at hpid
  obtain ⟨hbroker, hbasis⟩ := Bool.and_eq_true_iff.mp hlive
  exact Bool.and_eq_true_iff.mpr ⟨hkeep _ hbroker, hkeep _ hbasis⟩

/-! ## Making room -/

/-- The sweep goes on past a row that is not ready and live. -/
theorem Cache.Covered.drop {paths : List String} {key : String}
    (h : cache.Covered (key :: paths)) (hlive : ∀ other, after.ReadyLive other → cache.ReadyLive other)
    (hkey : ¬ after.ReadyLive key) : after.Covered paths := by
  intro other hother
  rcases List.mem_cons.mp (h other (hlive other hother)) with rfl | hmem
  · exact absurd hother hkey
  · exact hmem

/-- The next row is ready and live. -/
theorem Cache.Listed.snoc {live : List LiveEntry} (h : cache.Listed live)
    (hnew : key ∉ live.map LiveEntry.key) (hrow : cache.rows key = some row)
    (hready : row.status = .ready) : cache.Listed (live ++ [⟨key, row⟩]) := by
  refine ⟨?_, ?_⟩
  · rw [List.map_append]
    refine List.nodup_append.mpr ⟨h.1, List.nodup_singleton _, ?_⟩
    rintro first hfirst second hsecond rfl
    obtain rfl := List.mem_singleton.mp hsecond
    exact hnew hfirst
  · intro entry hentry
    rcases List.mem_append.mp hentry with hold | hone
    · exact h.2 entry hold
    · obtain rfl := List.mem_singleton.mp hone
      exact ⟨hrow, hready⟩

/-- A row that is not among the entries is retired. -/
theorem Cache.Listed.retire {entries : List LiveEntry} (h : cache.Listed entries)
    (hkey : key ∉ entries.map LiveEntry.key) : (cache.retire key row reason alive).Listed entries := by
  refine ⟨h.1, ?_⟩
  intro entry hentry
  have hne : entry.key ≠ key := by
    rintro rfl
    exact hkey (List.mem_map_of_mem hentry)
  rw [Cache.retire_rows, if_neg hne]
  exact h.2 entry hentry

theorem LiveEntry.le_trans {a b c : LiveEntry} (hab : LiveEntry.le a b = true)
    (hbc : LiveEntry.le b c = true) : LiveEntry.le a c = true := by
  simp only [LiveEntry.le, Bool.or_eq_true, decide_eq_true_eq, Bool.and_eq_true] at *
  rcases hab with hab | ⟨hab, hkey⟩
  · rcases hbc with hbc | ⟨hbc, -⟩
    · exact .inl (hab.trans hbc)
    · exact .inl (hab.trans_eq hbc)
  · rcases hbc with hbc | ⟨hbc, hkey'⟩
    · exact .inl (hab.trans_lt hbc)
    · exact .inr ⟨hab.trans hbc, String.le_trans hkey hkey'⟩

theorem LiveEntry.le_total (a b : LiveEntry) : (LiveEntry.le a b || LiveEntry.le b a) = true := by
  simp only [LiveEntry.le, Bool.or_eq_true, decide_eq_true_eq, Bool.and_eq_true]
  rcases Nat.lt_trichotomy a.row.lastUsed b.row.lastUsed with hlt | heq | hgt
  · exact .inl (.inl hlt)
  · rcases String.le_total a.key b.key with hkey | hkey
    · exact .inl (.inr ⟨heq, hkey⟩)
    · exact .inr (.inr ⟨heq.symm, hkey⟩)
  · exact .inr (.inl hgt)

/-- The rows are sorted and cut. -/
theorem Cache.RoomFacts.select {live : List LiveEntry} (hlisted : cache.Listed live)
    (hcovered : cache.Covered (live.map LiveEntry.key)) :
    cache.RoomFacts ((live.mergeSort LiveEntry.le).take (live.length + 1 - maxLiveBases))
      ((live.mergeSort LiveEntry.le).drop (live.length + 1 - maxLiveBases)) := by
  have hperm : List.Perm (live.mergeSort LiveEntry.le) live := List.mergeSort_perm live LiveEntry.le
  refine ⟨?_, ?_, ?_, ?_⟩
  · rw [List.take_append_drop]
    refine ⟨(hperm.map _).nodup_iff.mpr hlisted.1, ?_⟩
    intro entry hentry
    exact hlisted.2 entry (hperm.mem_iff.mp hentry)
  · rw [List.take_append_drop]
    intro key hkey
    exact (hperm.map _).mem_iff.mpr (hcovered key hkey)
  · rw [List.take_append_drop]
    apply List.pairwise_mergeSort
    · intro a b c
      exact LiveEntry.le_trans
    · exact LiveEntry.le_total
  · rw [List.length_drop, List.length_mergeSort]
    show live.length - (live.length + 1 - 3) ≤ 2
    omega

/-- A victim is evicted. -/
theorem Cache.RoomFacts.evict {victim : LiveEntry} {victims kept : List LiveEntry}
    (h : cache.RoomFacts (victim :: victims) kept) :
    (cache.retire victim.key victim.row reason cache.alive).RoomFacts victims kept := by
  obtain ⟨hnew, hnodup⟩ := List.nodup_cons.mp h.listed.1
  have hrest : cache.Listed (victims ++ kept) :=
    ⟨hnodup, fun entry hentry => h.listed.2 entry (.tail _ hentry)⟩
  refine ⟨hrest.retire hnew, ?_, (List.pairwise_cons.mp h.sorted).2, h.few⟩
  intro other hother
  obtain ⟨hne, hlive⟩ := Cache.readyLive_retire Cache.Terminated.refl hother
  rcases List.mem_cons.mp (h.covered other hlive) with heq | hmem
  · exact absurd heq hne
  · exact hmem

/-! ## The invariant is kept -/

theorem CacheFacts.hit (h : CacheFacts cache) {phase : CachePhase}
    (hrow : cache.rows key = some row) (hready : row.status = .ready)
    (hphase : (cache.touch key row).PhaseFacts phase) :
    CacheFacts { cache.touch key row with phase := phase } := by
  refine ⟨h.bound_of_subset fun other => Cache.readyLive_touch hrow hready, ?_,
    hphase.mono rfl (fun _ => id) (fun _ => id)⟩
  intro other found hfound hfoundReady
  change Function.update cache.rows key _ other = some found at hfound
  show found.lastUsed = Function.update cache.used key cache.clock other
  by_cases heq : other = key
  · rw [heq, Function.update_self] at hfound
    cases hfound
    rw [heq, Function.update_self]
  · rw [Function.update_of_ne heq] at hfound ⊢
    exact h.used other found hfound hfoundReady

/-- A new basis joins those that were kept. -/
theorem CacheFacts.adopt (h : CacheFacts cache) {plan : CachePlan} {kept : List LiveEntry}
    {broker basis : ℕ} {inside first second : Bool} {phase : CachePhase}
    (hbroker : cache.Fresh broker) (hbasis : cache.Fresh basis)
    (hcovered : cache.Covered (kept.map LiveEntry.key)) (hfew : kept.length ≤ maxLiveBases - 1)
    (hphase : (cache.adopt plan broker basis inside first second).PhaseFacts phase) :
    CacheFacts { cache.adopt plan broker basis inside first second with phase := phase } := by
  refine ⟨?_, ?_, hphase.mono rfl (fun _ => id) (fun _ => id)⟩
  · have hafter : Cache.Covered { cache.adopt plan broker basis inside first second with phase := phase }
        (plan.key :: kept.map LiveEntry.key) := by
      intro other hother
      rcases Cache.readyLive_adopt hbroker hbasis hother with rfl | hold
      · exact .head _
      · exact .tail _ (hcovered other hold)
    have hlength : (plan.key :: kept.map LiveEntry.key).length ≤ maxLiveBases := by
      rw [List.length_cons, List.length_map]
      unfold maxLiveBases at hfew ⊢
      omega
    calc {key | Cache.ReadyLive _ key}.encard
        ≤ (plan.key :: kept.map LiveEntry.key).length := hafter.encard_le
      _ ≤ maxLiveBases := by exact_mod_cast hlength
  · intro other found hfound hready
    change Function.update cache.rows plan.key _ other = some found at hfound
    show found.lastUsed = Function.update cache.used plan.key cache.clock other
    by_cases heq : other = plan.key
    · rw [heq, Function.update_self] at hfound
      cases hfound
      rw [heq, Function.update_self]
    · rw [Function.update_of_ne heq] at hfound ⊢
      exact h.used other found hfound hready

theorem CacheFacts.step (h : CacheFacts cache) {actor : CacheActor}
    (hstep : CacheStep cache actor after) : CacheFacts after := by
  have hphaseFacts := h.phase
  cases hstep with
  | crash process =>
      exact h.steady rfl rfl rfl (fun _ => Cache.readyLive_crash) (fun _ => id)
  | settle broker remaining hsub =>
      refine h.steady rfl rfl rfl (fun _ => id) ?_
      intro other hnone
      show Function.update cache.children broker remaining other = []
      by_cases heq : other = broker
      · rw [heq] at hnone
        rw [hnone] at hsub
        rw [heq, Function.update_self]
        exact List.subset_nil.mp hsub
      · rwa [Function.update_of_ne heq]
  | tick later hle => exact h.steady rfl rfl rfl (fun _ => id) (fun _ => id)
  | acquire | acquireRetirement | leave | miss => exact h.moved trivial
  | disappeared alive hphase hrow hready hidentity hdead hterminated =>
      exact h.retired hterminated trivial
  | hit hphase hrow hready => exact h.hit hrow hready trivial
  | stale alive hphase hrow hready hidentity hreply hfailed hterminated =>
      exact h.retired hterminated trivial
  | unoccupied hphase hvacant => exact h.moved hvacant
  | supersede alive hphase hrow hready hreply hcheck hterminated =>
      apply h.retired hterminated
      exact Cache.vacant_retire (.inl rfl)
  | glob paths hphase hnodup hpaths =>
      rw [hphase] at hphaseFacts
      refine h.moved ⟨hphaseFacts, ⟨List.nodup_nil, nofun⟩, by simpa using hnodup, ?_⟩
      rintro key ⟨row, hrow, -⟩
      change cache.rows key = some row at hrow
      exact List.mem_append_left _ (hpaths key (by rw [hrow]; rfl))
  | @pass plan key paths live hphase hvacant =>
      rw [hphase] at hphaseFacts
      obtain ⟨hplan, hlisted, hnodup, hcovered⟩ := hphaseFacts
      have hkey : ¬ cache.ReadyLive key := by
        rintro ⟨row, hrow, hready, -⟩
        exact hvacant row hrow hready
      exact h.moved ⟨hplan, hlisted, (List.nodup_cons.mp hnodup).2, hcovered.drop (fun _ => id) hkey⟩
  | @keep plan key paths live row hphase hrow hready hlive =>
      rw [hphase] at hphaseFacts
      obtain ⟨hplan, hlisted, hnodup, hcovered⟩ := hphaseFacts
      -- The key moves from the front of the paths to the end of the entries.
      have hperm : List.Perm (key :: (paths ++ live.map LiveEntry.key))
          (paths ++ (live ++ [LiveEntry.mk key row]).map LiveEntry.key) := by
        rw [List.map_append, ← List.append_assoc]
        exact (List.perm_append_singleton key _).symm
      have hnew : key ∉ live.map LiveEntry.key := fun hmem =>
        (List.nodup_cons.mp hnodup).1 (List.mem_append_right _ hmem)
      refine h.moved ⟨hplan, hlisted.snoc hnew hrow hready, hperm.nodup_iff.mp hnodup, ?_⟩
      intro other hother
      exact hperm.mem_iff.mp (hcovered other hother)
  | @sweep plan key paths live row alive hphase hrow hready hdead hterminated =>
      rw [hphase] at hphaseFacts
      obtain ⟨hplan, hlisted, hnodup, hcovered⟩ := hphaseFacts
      obtain ⟨hnew, hrest⟩ := List.nodup_cons.mp hnodup
      have hentries : key ∉ live.map LiveEntry.key := fun hmem =>
        hnew (List.mem_append_right _ hmem)
      apply h.retired hterminated
      refine ⟨Cache.vacant_retire (.inr hplan), hlisted.retire hentries, hrest, ?_⟩
      refine hcovered.drop (fun other hother => (Cache.readyLive_retire hterminated hother).2) ?_
      intro hkey
      exact (Cache.readyLive_retire hterminated hkey).1 rfl
  | select hphase =>
      rw [hphase] at hphaseFacts
      obtain ⟨hplan, hlisted, -, hcovered⟩ := hphaseFacts
      exact h.moved ⟨hplan, Cache.RoomFacts.select hlisted hcovered⟩
  | request hphase hinside hreply hstatus hidle =>
      rw [hphase] at hphaseFacts
      exact h.moved ⟨hphaseFacts.1, hphaseFacts.2, (hreply _ rfl).symm.trans hidle⟩
  | evict hphase hgone =>
      rw [hphase] at hphaseFacts
      obtain ⟨hplan, hroom, -⟩ := hphaseFacts
      exact h.retired .refl ⟨Cache.vacant_retire (.inr hplan), hroom.evict⟩
  | @roomy plan kept hphase =>
      rw [hphase] at hphaseFacts
      exact h.moved ⟨hphaseFacts.1, kept, hphaseFacts.2.covered, hphaseFacts.2.few⟩
  | adopt broker basis inside first second hphase hbroker hbasis =>
      rw [hphase] at hphaseFacts
      obtain ⟨-, kept, hcovered, hfew⟩ := hphaseFacts
      exact h.adopt hbroker hbasis hcovered hfew trivial
  | evaluate child hphase hrow =>
      refine ⟨h.bound_of_subset fun _ => id, h.used, ?_⟩
      show Cache.PhaseFacts _ cache.phase
      rw [hphase]
      trivial
  | @unclean key row alive hphase hrow hterminated =>
      refine @CacheFacts.retired _ _ _ _ _ h cache.phase hterminated ?_
      rw [hphase]
      trivial
  | @retireListed key row alive hphase hrow hterminated =>
      refine @CacheFacts.retired _ _ _ _ _ h cache.phase hterminated ?_
      rw [hphase]
      trivial

theorem cacheFacts_of_run {labels : List CacheActor} (hrun : Run CacheStep .empty labels cache) :
    CacheFacts cache :=
  hrun.preserves (fun _ _ _ h hstep => h.step hstep) cacheFacts_empty

/-! ## What is retired, and why -/

/-- A basis that passes the check has no active child. -/
theorem assertLiveBasis_idle {backend live singleThreaded : Bool} {reply : Option StatusReply}
    (hcheck : assertLiveBasis backend live singleThreaded reply = .idle) :
    ∃ answer, reply = some answer ∧ answer.activeChildren = [] := by
  unfold assertLiveBasis at hcheck
  split at hcheck
  · cases reply with
    | none => cases hcheck
    | some answer =>
        refine ⟨answer, rfl, ?_⟩
        by_contra hchildren
        by_cases hready : answer.status = "ready" <;> simp [hready, hchildren] at hcheck
  · cases hcheck

theorem Cache.retires_retire {first : String} {second : BasisRow} {given : String}
    (hrows : after.rows =
      Function.update cache.rows first (some { second with status := .retired given }))
    (h : cache.Retires after key reason) : key = first ∧ reason = given := by
  obtain ⟨row, hrow, hready, hafter⟩ := h
  rw [hrows] at hafter
  by_cases heq : key = first
  · rw [heq, Function.update_self] at hafter
    have hstatus := congrArg BasisRow.status (Option.some.inj hafter)
    exact ⟨heq, (RowStatus.retired.inj hstatus).symm⟩
  · rw [Function.update_of_ne heq, hrow] at hafter
    have hstatus := congrArg BasisRow.status (Option.some.inj hafter)
    rw [hready] at hstatus
    cases hstatus

/-- Nothing is retired where a key's row is the old one, or ready. -/
theorem Cache.not_retires (hrow : ∀ row, after.rows key = some row →
    cache.rows key = some row ∨ row.status = .ready) : ¬ cache.Retires after key reason := by
  rintro ⟨row, hbefore, hready, hafter⟩
  rcases hrow _ hafter with hsame | hnew
  · have hstatus := congrArg BasisRow.status (Option.some.inj (hbefore.symm.trans hsame))
    rw [hready] at hstatus
    cases hstatus
  · cases hnew

/-- Why a step of the holder retires a ready row. -/
inductive RetirementCause (cache : Cache) (key : String) : String → Prop
  | disappeared {row : BasisRow} (hrow : cache.rows key = some row) (hdead : cache.live row = false) :
      RetirementCause cache key "owned_generation_disappeared"
  | stale {plan : CachePlan} (hphase : cache.phase = .looking plan) (hkey : plan.key = key) :
      RetirementCause cache key "cached_generation_failed_revalidation"
  | superseded {row : BasisRow} (hrow : cache.rows key = some row)
      (hidle : cache.live row = true → cache.children row.broker = []) :
      RetirementCause cache key "superseded_owned_generation"
  | limit {plan : CachePlan} {victim : LiveEntry} {victims kept : List LiveEntry}
      (hphase : cache.phase = .stopping plan victim victims kept) (hkey : victim.key = key)
      (hgone : cache.alive victim.row.broker = false) : RetirementCause cache key "live_basis_limit"
  | unclean (hphase : cache.phase = .serving key) :
      RetirementCause cache key "owned_basis_lifecycle_failure"
  | listed (hphase : cache.phase = .retiring) : RetirementCause cache key "retired_by_hearth_basis"

theorem CacheStep.cause (hstep : CacheStep cache .holder after)
    (hretires : cache.Retires after key reason) : RetirementCause cache key reason := by
  cases hstep with
  | acquire | acquireRetirement | leave | miss | unoccupied | glob | pass | keep | select | request
  | roomy | evaluate => exact absurd hretires (Cache.not_retires fun _ => .inl)
  | @hit plan row _ _ _ hphase hrow hready =>
      refine absurd hretires (Cache.not_retires ?_)
      intro found hfound
      change Function.update cache.rows plan.key _ key = some found at hfound
      by_cases heq : key = plan.key
      · rw [heq, Function.update_self] at hfound
        cases hfound
        exact .inr hready
      · rw [Function.update_of_ne heq] at hfound
        exact .inl hfound
  | @adopt plan broker basis =>
      refine absurd hretires (Cache.not_retires ?_)
      intro found hfound
      change Function.update cache.rows plan.key _ key = some found at hfound
      by_cases heq : key = plan.key
      · rw [heq, Function.update_self] at hfound
        cases hfound
        exact .inr rfl
      · rw [Function.update_of_ne heq] at hfound
        exact .inl hfound
  | disappeared alive hphase hrow hready hidentity hdead =>
      obtain ⟨rfl, rfl⟩ := Cache.retires_retire rfl hretires
      exact .disappeared hrow hdead
  | stale alive hphase =>
      obtain ⟨rfl, rfl⟩ := Cache.retires_retire rfl hretires
      exact .stale hphase rfl
  | supersede alive hphase hrow hready hreply hcheck =>
      obtain ⟨rfl, rfl⟩ := Cache.retires_retire rfl hretires
      refine .superseded hrow fun hlive => ?_
      obtain ⟨answer, hanswer, hnone⟩ := assertLiveBasis_idle (hcheck hlive)
      exact (hreply answer hanswer).symm.trans hnone
  | sweep alive hphase hrow hready hdead =>
      obtain ⟨rfl, rfl⟩ := Cache.retires_retire rfl hretires
      exact .disappeared hrow hdead
  | evict hphase hgone =>
      obtain ⟨rfl, rfl⟩ := Cache.retires_retire rfl hretires
      exact .limit hphase rfl hgone
  | unclean alive hphase =>
      obtain ⟨rfl, rfl⟩ := Cache.retires_retire rfl hretires
      exact .unclean hphase
  | retireListed alive hphase =>
      obtain ⟨rfl, rfl⟩ := Cache.retires_retire rfl hretires
      exact .listed hphase

/-- What is evicted for the limit has been stopped. -/
theorem RetirementCause.limited (hcause : RetirementCause cache key reason)
    (hreason : reason = "live_basis_limit") : ∃ plan victim victims kept,
      cache.phase = .stopping plan victim victims kept ∧ victim.key = key := by
  cases hcause with
  | limit hphase hkey => exact ⟨_, _, _, _, hphase, hkey⟩
  | disappeared | stale | superseded | unclean | listed => exact absurd hreason (by decide)

/-- An evaluating basis is retired by nobody but its user, the `retire` command, or a lookup
whose revalidation fails. -/
theorem RetirementCause.evaluating (hcause : RetirementCause cache key reason)
    (hfacts : CacheFacts cache) (hevaluating : cache.Evaluating key) :
    reason ≠ "live_basis_limit" ∧ reason ≠ "superseded_owned_generation" ∧
      reason ≠ "owned_generation_disappeared" := by
  obtain ⟨row, hrow, hready, hlive, hchildren⟩ := hevaluating
  cases hcause with
  | stale | unclean | listed => decide
  | disappeared hfound hdead =>
      obtain rfl := Option.some.inj (hfound.symm.trans hrow)
      rw [hlive] at hdead
      cases hdead
  | superseded hfound hidle =>
      obtain rfl := Option.some.inj (hfound.symm.trans hrow)
      exact absurd (hidle hlive) hchildren
  | limit hphase hkey hgone =>
      have hphaseFacts := hfacts.phase
      rw [hphase] at hphaseFacts
      have hfound := (hphaseFacts.2.1.listed.2 _ (.head _)).1
      rw [hkey, hrow] at hfound
      obtain rfl := Option.some.inj hfound
      exact absurd hphaseFacts.2.2 hchildren

/-- Of the rows that are live when a victim goes, none was used before it. -/
theorem CacheFacts.least (h : CacheFacts cache) {plan : CachePlan} {victim : LiveEntry}
    {victims kept : List LiveEntry} (hphase : cache.phase = .stopping plan victim victims kept)
    (hlive : cache.ReadyLive other) : cache.used victim.key ≤ cache.used other := by
  have hphaseFacts := h.phase
  rw [hphase] at hphaseFacts
  obtain ⟨-, hroom, -⟩ := hphaseFacts
  have hvictim := hroom.listed.2 victim (.head _)
  have hused : ∀ entry ∈ (victim :: victims) ++ kept, entry.row.lastUsed = cache.used entry.key :=
    fun entry hentry => h.used _ _ (hroom.listed.2 entry hentry).1 (hroom.listed.2 entry hentry).2
  obtain ⟨entry, hentry, rfl⟩ := List.mem_map.mp (hroom.covered other hlive)
  rw [← hused victim (.head _), ← hused entry hentry]
  rcases List.mem_cons.mp hentry with rfl | hrest
  · exact le_rfl
  · have hle := (List.pairwise_cons.mp hroom.sorted).1 entry hrest
    simp only [LiveEntry.le, Bool.or_eq_true, decide_eq_true_eq, Bool.and_eq_true] at hle
    rcases hle with hlt | ⟨heq, -⟩
    · exact hlt.le
    · exact heq.le

/-- Room cannot be made at the cost of an evaluating victim. -/
theorem CacheFacts.busy_victim (h : CacheFacts cache) {plan : CachePlan} {victim : LiveEntry}
    {victims kept : List LiveEntry} (hphase : cache.phase = .evicting plan (victim :: victims) kept)
    (hevaluating : cache.Evaluating victim.key) (hstep : CacheStep cache .holder after) :
    after = { cache with phase := .idle } := by
  have hphaseFacts := h.phase
  rw [hphase] at hphaseFacts
  obtain ⟨row, hrow, hready, hlive, hchildren⟩ := hevaluating
  have hfound := (hphaseFacts.2.listed.2 victim (.head _)).1
  rw [hrow] at hfound
  obtain rfl := Option.some.inj hfound
  cases hstep with
  | leave => rfl
  | request hother hinside hreply hstatus hidle =>
      rw [hphase] at hother
      cases hother
      exact absurd ((hreply _ rfl).symm.trans hidle) hchildren
  | acquire _ hother | acquireRetirement hother | miss hother | disappeared _ hother | hit hother
  | stale _ hother | unoccupied hother | supersede _ hother | glob _ hother | pass hother
  | keep hother | sweep _ hother | select hother | evict hother | roomy hother
  | adopt _ _ _ _ _ hother | evaluate _ hother | unclean _ hother | retireListed _ hother =>
      rw [hphase] at hother
      cases hother

/-- Nor at the cost of an evaluating generation of its own key. -/
theorem busy_previous {plan : CachePlan} (hphase : cache.phase = .missed plan)
    (hevaluating : cache.Evaluating plan.key) (hstep : CacheStep cache .holder after) :
    after = { cache with phase := .idle } := by
  obtain ⟨row, hrow, hready, hlive, hchildren⟩ := hevaluating
  cases hstep with
  | leave => rfl
  | unoccupied hother hvacant =>
      rw [hphase] at hother
      cases hother
      exact absurd hready (hvacant row hrow)
  | supersede alive hother hfound hfoundReady hreply hcheck =>
      rw [hphase] at hother
      cases hother
      obtain rfl := Option.some.inj (hfound.symm.trans hrow)
      obtain ⟨answer, hanswer, hnone⟩ := assertLiveBasis_idle (hcheck hlive)
      exact absurd ((hreply answer hanswer).symm.trans hnone) hchildren
  | acquire _ hother | acquireRetirement hother | miss hother | disappeared _ hother | hit hother
  | stale _ hother | glob _ hother | pass hother | keep hother | sweep _ hother | select hother
  | request hother | evict hother | roomy hother | adopt _ _ _ _ _ hother | evaluate _ hother
  | unclean _ hother | retireListed _ hother =>
      rw [hphase] at hother
      cases hother

end

/-- **The cache of bases is bounded.**  In every run of the lock's holders, with processes dying
at any moment: at most three bases are ready and live; a basis that is evicted for the limit was
not used after any basis that is ready and live at that moment; an evaluating basis is never
retired for the limit, as superseded, or as disappeared; and the holder that would evict or
supersede one raises, with all as it was. -/
theorem project_basis_cache_bounded {labels : List CacheActor} {cache : Cache}
    (hrun : Run CacheStep .empty labels cache) :
    {key | cache.ReadyLive key}.encard ≤ maxLiveBases ∧
    (∀ after key, CacheStep cache .holder after → cache.Retires after key "live_basis_limit" →
      ∀ other, cache.ReadyLive other → cache.used key ≤ cache.used other) ∧
    (∀ after key reason, CacheStep cache .holder after → cache.Retires after key reason →
      cache.Evaluating key → reason ≠ "live_basis_limit" ∧
        reason ≠ "superseded_owned_generation" ∧ reason ≠ "owned_generation_disappeared") ∧
    (∀ plan victim victims kept after, cache.phase = .evicting plan (victim :: victims) kept →
      cache.Evaluating victim.key → CacheStep cache .holder after →
        after = { cache with phase := .idle }) ∧
    ∀ plan after, cache.phase = .missed plan → cache.Evaluating plan.key →
      CacheStep cache .holder after → after = { cache with phase := .idle } := by
  have hfacts := cacheFacts_of_run hrun
  refine ⟨hfacts.bound, ?_, ?_, ?_, ?_⟩
  · intro after key hstep hretires other hlive
    obtain ⟨plan, victim, victims, kept, hphase, rfl⟩ := (hstep.cause hretires).limited rfl
    exact hfacts.least hphase hlive
  · intro after key reason hstep hretires hevaluating
    exact (hstep.cause hretires).evaluating hfacts hevaluating
  · intro plan victim victims kept after hphase hevaluating hstep
    exact hfacts.busy_victim hphase hevaluating hstep
  · intro plan after hphase hevaluating hstep
    exact busy_previous hphase hevaluating hstep

/-! ### A first basis, and an evaluation in it -/

theorem project_basis_cache_bounded_first : ∃ labels cache, Run CacheStep .empty labels cache ∧
    cache.Evaluating "9f2c" ∧ {key | cache.ReadyLive key}.encard ≤ maxLiveBases := by
  have hrun : ∃ labels cache, Run CacheStep .empty labels cache ∧ cache.Evaluating "9f2c" := by
    refine ⟨[.world, .holder, .holder, .holder, .holder, .holder, .holder, .holder, .holder], _,
      .cons (.tick 5 (by decide)) (.cons (.acquire ⟨"9f2c", "basis.ml"⟩ rfl) (.cons
      (.miss rfl nofun) (.cons (.unoccupied rfl nofun) (.cons
      (.glob [] rfl List.nodup_nil nofun) (.cons (.select rfl) (.cons (.roomy rfl) (.cons
      (.adopt 40 41 true true true rfl nofun nofun) (.cons (.evaluate 77 rfl rfl)
      (.nil _))))))))), ?_⟩
    exact ⟨⟨.ready, "basis.ml", 40, 41, true, 5⟩, rfl, rfl, rfl, nofun⟩
  obtain ⟨labels, cache, hrun, hevaluating⟩ := hrun
  exact ⟨labels, cache, hrun, hevaluating, (project_basis_cache_bounded hrun).1⟩

end Hearth.Basis
