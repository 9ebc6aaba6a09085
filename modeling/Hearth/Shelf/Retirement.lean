import Hearth.Shelf.Admission

/-!
# Retirement

The lock table gives every slot to one holder.  The monitor's locks keep the clients out
of the slots that it knows of; a client with more slots than that is kept out by its
demand, if the monitor has still to read it.  Where the capacity grows after the monitor
has listed the demands, a client can take a slot that the monitor has not locked, and
the runtime is stopped under it.
-/

namespace Hearth.Shelf

open Hearth.Library

/-! ## One client -/

/-- What is so of a client and what it shares. -/
structure ClientFacts (client : ℕ) (owned : Bool) (shared : Shared) (phase : ClientPhase) :
    Prop where
  files : ∀ file, shared.holder file = some (.client client) ↔ file ∈ phase.files
  nodup : phase.files.Nodup
  group : ∀ capacity slot taken rest, phase = .locking capacity slot taken rest →
    taken.reverse ++ rest = lockGroup slot ∧ slot ≤ capacity
  slots : ∀ capacity, phase.capacity = some capacity → ∀ file ∈ phase.files, file.slot ≤ capacity
  recorded : ∀ capacity, phase.capacity = some capacity ∨ phase.argument = some capacity →
    0 < capacity ∧ capacity ≤ shared.recorded
  demand : owned = true → phase.demands = true → client ∈ shared.demands

/-- What a client may do to what it shares. -/
structure ClientEffect (client : ℕ) (shared later : Shared) : Prop where
  holder : ∀ file party, party ≠ .client client →
    (later.holder file = some party ↔ shared.holder file = some party)
  demands : ∀ other, other ≠ client → (other ∈ later.demands ↔ other ∈ shared.demands)
  recorded : later.recorded = shared.recorded

section

variable {client : ℕ} {owned : Bool} {shared later : Shared} {phase next : ClientPhase}
  {party : Party} {file : LockFile}

theorem take_holder (hfree : shared.holder file = none) {other : Party} (hne : other ≠ party)
    (path : LockFile) : (shared.take file party).holder path = some other ↔
      shared.holder path = some other := by
  show Function.update shared.holder file (some party) path = some other ↔ _
  by_cases heq : path = file
  · subst heq
    rw [Function.update_self, hfree]
    constructor
    · intro h
      cases h
      exact absurd rfl hne
    · intro h
      cases h
  · rw [Function.update_of_ne heq]

theorem drop_holder (hheld : shared.holder file = some party) {other : Party} (hne : other ≠ party)
    (path : LockFile) : (shared.drop file).holder path = some other ↔
      shared.holder path = some other := by
  show Function.update shared.holder file none path = some other ↔ _
  by_cases heq : path = file
  · subst heq
    rw [Function.update_self, hheld]
    constructor
    · intro h
      cases h
    · intro h
      cases h
      exact absurd rfl hne
  · rw [Function.update_of_ne heq]

/-- Who takes a free file holds it besides the files it has. -/
theorem take_holds {files : List LockFile}
    (h : ∀ path, shared.holder path = some party ↔ path ∈ files) (path : LockFile) :
    (shared.take file party).holder path = some party ↔ path ∈ file :: files := by
  show Function.update shared.holder file (some party) path = some party ↔ _
  rw [List.mem_cons]
  by_cases heq : path = file
  · subst heq
    simp
  · rw [Function.update_of_ne heq, h path]
    simp [heq]

/-- Who drops a file keeps the others. -/
theorem drop_holds {files : List LockFile}
    (h : ∀ path, shared.holder path = some party ↔ path ∈ file :: files)
    (hnodup : (file :: files).Nodup) (path : LockFile) :
    (shared.drop file).holder path = some party ↔ path ∈ files := by
  show Function.update shared.holder file none path = some party ↔ _
  by_cases heq : path = file
  · subst heq
    rw [Function.update_self]
    constructor
    · intro hnone
      cases hnone
    · intro hmem
      exact absurd hmem (List.nodup_cons.mp hnodup).1
  · rw [Function.update_of_ne heq, h path, List.mem_cons]
    simp [heq]

theorem ClientEffect.refl : ClientEffect client shared shared :=
  ⟨fun _ _ _ => Iff.rfl, fun _ _ => Iff.rfl, rfl⟩

theorem ClientEffect.drop (hheld : shared.holder file = some (.client client)) :
    ClientEffect client shared (shared.drop file) :=
  ⟨fun path _ hne => drop_holder hheld hne path, fun _ _ => Iff.rfl, rfl⟩

theorem ClientEffect.clear : ClientEffect client shared (shared.clear client) := by
  refine ⟨fun _ _ _ => Iff.rfl, ?_, rfl⟩
  intro other hne
  show other ∈ shared.demands.filter _ ↔ _
  rw [List.mem_filter]
  simp [hne]

theorem ClientStep.effect (hstep : ClientStep client owned shared phase next later)
    (h : ClientFacts client owned shared phase) : ClientEffect client shared later := by
  cases hstep with
  | call | size | blocked | next | enter | giveUp | interrupt | release => exact .refl
  | demand =>
      refine ⟨fun _ _ _ => Iff.rfl, ?_, rfl⟩
      intro other hne
      show other ∈ (if owned then client :: shared.demands else shared.demands) ↔ _
      split
      · simp [hne]
      · rfl
  | unsized | close => exact .clear
  | lock hfree => exact ⟨fun path _ hne => take_holder hfree hne path, fun _ _ => Iff.rfl, rfl⟩
  | unlock | free => exact .drop ((h.files _).mpr (.head _))
  | die =>
      refine ⟨?_, ClientEffect.clear.demands, rfl⟩
      intro path other hne
      show (if shared.holder path = some (.client client) then none else shared.holder path) =
        some other ↔ _
      split
      · rename_i hheld
        rw [hheld]
        constructor
        · intro hnone
          cases hnone
        · intro hsome
          cases hsome
          exact absurd rfl hne
      · rfl

/-- The files and the capacity of a client that is done, or has not begun, are none. -/
theorem ClientFacts.outside (hfiles : ∀ path, later.holder path ≠ some (.client client))
    (hphase : next.files = [] ∧ next.capacity = none) (hdemands : next.demands = false)
    (hrecorded : ∀ capacity, next.argument = some capacity →
      0 < capacity ∧ capacity ≤ later.recorded) :
    ClientFacts client owned later next := by
  refine ⟨?_, ?_, ?_, ?_, ?_, ?_⟩
  · intro path
    rw [hphase.1]
    constructor
    · intro hheld
      exact absurd hheld (hfiles path)
    · intro hmem
      cases hmem
  · rw [hphase.1]
    exact .nil
  · rintro capacity slot taken rest rfl
    cases hphase.2
  · intro capacity hcapacity
    rw [hphase.2] at hcapacity
    cases hcapacity
  · rintro capacity (hcapacity | hargument)
    · rw [hphase.2] at hcapacity
      cases hcapacity
    · exact hrecorded capacity hargument
  · intro _ hdemand
    rw [hdemands] at hdemand
    cases hdemand

/-- A client that keeps its capacity and its files. -/
theorem ClientFacts.keep (h : ClientFacts client owned shared phase)
    (hfiles : next.files = phase.files)
    (hcapacity : next.capacity = phase.capacity ∧ next.argument = none)
    (hgroup : ∀ capacity slot taken rest, next = .locking capacity slot taken rest →
      taken.reverse ++ rest = lockGroup slot ∧ slot ≤ capacity)
    (hdemands : phase.demands = true) : ClientFacts client owned shared next := by
  refine ⟨?_, ?_, hgroup, ?_, ?_, fun howned _ => h.demand howned hdemands⟩
  · rw [hfiles]
    exact h.files
  · rw [hfiles]
    exact h.nodup
  · rw [hfiles, hcapacity.1]
    exact h.slots
  · rintro capacity (hsome | hargument)
    · rw [hcapacity.1] at hsome
      exact h.recorded capacity (.inl hsome)
    · rw [hcapacity.2] at hargument
      cases hargument

/-- A client that lets the last of its files go. -/
theorem ClientFacts.drop (h : ClientFacts client owned shared phase) {taken : List LockFile}
    (hfiles : phase.files = file :: taken) (hnext : next.files = taken)
    (hcapacity : next.capacity = phase.capacity ∧ next.argument = none)
    (hgroup : ∀ capacity slot taken rest, next ≠ .locking capacity slot taken rest)
    (hdemands : phase.demands = true) : ClientFacts client owned (shared.drop file) next := by
  have hholds := h.files
  have hnodup := h.nodup
  rw [hfiles] at hholds hnodup
  refine ⟨?_, ?_, ?_, ?_, ?_, fun howned _ => h.demand howned hdemands⟩
  · rw [hnext]
    exact drop_holds hholds hnodup
  · rw [hnext]
    exact (List.nodup_cons.mp hnodup).2
  · intro capacity slot taken rest hlocking
    exact absurd hlocking (hgroup capacity slot taken rest)
  · intro capacity hsome path hmem
    rw [hcapacity.1] at hsome
    rw [hnext] at hmem
    apply h.slots capacity hsome path
    rw [hfiles]
    exact .tail _ hmem
  · rintro capacity (hsome | hargument)
    · rw [hcapacity.1] at hsome
      exact h.recorded capacity (.inl hsome)
    · rw [hcapacity.2] at hargument
      cases hargument

theorem ClientStep.facts (hstep : ClientStep client owned shared phase next later)
    (h : ClientFacts client owned shared phase) : ClientFacts client owned later next := by
  have hnone : phase.files = [] → ∀ path, shared.holder path ≠ some (.client client) := by
    intro hfiles path hheld
    have hmem := (h.files path).mp hheld
    rw [hfiles] at hmem
    cases hmem
  cases hstep with
  | call capacity hpositive hread =>
      refine .outside (hnone rfl) ⟨rfl, rfl⟩ rfl ?_
      intro other hother
      cases hother
      exact ⟨hpositive, hread⟩
  | @demand capacity =>
      refine ⟨?_, .nil, nofun, nofun, ?_, ?_⟩
      · intro path
        exact ⟨fun hheld => absurd hheld (hnone rfl path), nofun⟩
      · rintro other (hcapacity | hargument)
        · cases hcapacity
        · exact h.recorded other (.inr hargument)
      · intro howned _
        show client ∈ (if owned then client :: shared.demands else shared.demands)
        rw [if_pos howned]
        exact .head _
  | @size capacity expanded =>
      obtain ⟨hpositive, hread⟩ := h.recorded capacity (.inr rfl)
      refine ⟨?_, .nil, ?_, nofun, ?_, fun howned _ => h.demand howned rfl⟩
      · intro path
        exact ⟨fun hheld => absurd hheld (hnone rfl path), nofun⟩
      · intro other slot taken rest hlocking
        cases hlocking
        refine ⟨rfl, ?_⟩
        split <;> omega
      · rintro other (hcapacity | hargument)
        · cases hcapacity
          split <;> omega
        · cases hargument
  | unsized => exact .outside (hnone rfl) ⟨rfl, rfl⟩ rfl nofun
  | @lock capacity slot file taken rest hfree =>
      obtain ⟨hgroup, hslot⟩ := h.group capacity slot taken _ rfl
      have hmem : file ∈ lockGroup slot := by
        rw [← hgroup]
        exact List.mem_append_right _ (.head _)
      have hnew : file ∉ taken := by
        intro htaken
        rw [(h.files file).mpr htaken] at hfree
        cases hfree
      refine ⟨take_holds h.files, List.nodup_cons.mpr ⟨hnew, h.nodup⟩, ?_, ?_, ?_,
        fun howned _ => h.demand howned rfl⟩
      · intro other slot' taken' rest' hlocking
        cases hlocking
        refine ⟨?_, hslot⟩
        rw [List.reverse_cons, List.append_assoc]
        exact hgroup
      · intro other hcapacity path hpath
        cases hcapacity
        rcases List.mem_cons.mp hpath with rfl | hold
        · rw [slot_of_mem_lockGroup hmem]
          exact hslot
        · exact h.slots capacity rfl path hold
      · rintro other (hcapacity | hargument)
        · exact h.recorded other (.inl hcapacity)
        · cases hargument
  | blocked hheld => exact h.keep rfl ⟨rfl, rfl⟩ nofun rfl
  | unlock => exact h.drop rfl rfl ⟨rfl, rfl⟩ nofun rfl
  | @next capacity slot =>
      obtain ⟨hpositive, -⟩ := h.recorded capacity (.inl rfl)
      refine h.keep rfl ⟨rfl, rfl⟩ ?_ rfl
      intro other slot' taken rest hlocking
      cases hlocking
      refine ⟨rfl, ?_⟩
      split <;> omega
  | @enter capacity slot taken =>
      obtain ⟨hgroup, -⟩ := h.group capacity slot taken [] rfl
      refine h.keep ?_ ⟨rfl, rfl⟩ nofun rfl
      rw [List.append_nil] at hgroup
      show (lockGroup slot).reverse = taken
      rw [← hgroup, List.reverse_reverse]
  | giveUp | interrupt | release => exact h.keep rfl ⟨rfl, rfl⟩ nofun rfl
  | free => exact h.drop rfl rfl ⟨rfl, rfl⟩ nofun rfl
  | close => exact .outside (hnone rfl) ⟨rfl, rfl⟩ rfl nofun
  | die =>
      refine .outside ?_ ⟨rfl, rfl⟩ rfl nofun
      intro path
      show (if shared.holder path = some (.client client) then none else shared.holder path) ≠ _
      split
      · exact nofun
      · assumption

/-- Another's step leaves what is so of this client. -/
theorem ClientFacts.frame (h : ClientFacts client owned shared phase)
    (hholder : ∀ path, later.holder path = some (.client client) ↔
      shared.holder path = some (.client client))
    (hdemands : client ∈ later.demands ↔ client ∈ shared.demands)
    (hrecorded : shared.recorded ≤ later.recorded) : ClientFacts client owned later phase := by
  refine ⟨?_, h.nodup, h.group, h.slots, ?_, ?_⟩
  · intro path
    rw [hholder]
    exact h.files path
  · intro capacity hcapacity
    obtain ⟨hpositive, hold⟩ := h.recorded capacity hcapacity
    exact ⟨hpositive, by omega⟩
  · intro howned hwritten
    rw [hdemands]
    exact h.demand howned hwritten

theorem demands_of_capacity {phase : ClientPhase} {capacity : ℕ}
    (hcapacity : phase.capacity = some capacity) : phase.demands = true := by
  cases phase with
  | locking | unlocking | admitted | releasing => rfl
  | idle | called | demanding | done => cases hcapacity

/-- A client computes its capacity once. -/
theorem ClientStep.capacity (hstep : ClientStep client owned shared phase next later) {wide : ℕ}
    (hwide : next.capacity = some wide) :
    phase.capacity = some wide ∨ ∃ capacity, phase = .demanding capacity := by
  cases hstep with
  | @size capacity => exact .inr ⟨capacity, rfl⟩
  | call | demand | unsized | close | die => cases hwide
  | lock | blocked | unlock | next | enter | giveUp | interrupt | release | free => exact .inl hwide

end

/-! ## The monitor -/

/-- What is so of the monitor and what it shares. -/
structure MonitorFacts (shared : Shared) (phase : MonitorPhase) : Prop where
  files : ∀ file, shared.holder file = some .monitor ↔ file ∈ phase.files
  nodup : phase.files.Nodup
  locking : ∀ capacity taken rest, phase = .locking capacity taken rest →
    taken.reverse ++ rest = exclusivePaths capacity
  exclusive : ∀ capacity taken, (∃ pending, phase = .confirming capacity taken pending) ∨
    phase = .stopping capacity taken → taken.reverse = exclusivePaths capacity

/-- What the monitor may do to what it shares. -/
structure MonitorEffect (shared later : Shared) : Prop where
  holder : ∀ file client, later.holder file = some (.client client) ↔
    shared.holder file = some (.client client)
  demands : later.demands = shared.demands
  recorded : later.recorded = shared.recorded

section

variable {shared later : Shared} {phase next : MonitorPhase} {file : LockFile}

theorem MonitorStep.effect (hstep : MonitorStep shared phase next later)
    (h : MonitorFacts shared phase) : MonitorEffect shared later := by
  cases hstep with
  | measure | blocked | survey | stale | problem | stop | stopped | leave =>
      exact ⟨fun _ _ => Iff.rfl, rfl, rfl⟩
  | lock hfree =>
      refine ⟨?_, rfl, rfl⟩
      intro path client
      have hne : Party.client client ≠ .monitor := nofun
      exact take_holder hfree hne path
  | unlock =>
      refine ⟨?_, rfl, rfl⟩
      intro path client
      have hne : Party.client client ≠ .monitor := nofun
      exact drop_holder ((h.files _).mpr (.head _)) hne path

theorem MonitorStep.facts (hstep : MonitorStep shared phase next later)
    (h : MonitorFacts shared phase) : MonitorFacts later next := by
  cases hstep with
  | measure =>
      refine ⟨h.files, .nil, ?_, nofun⟩
      intro capacity taken rest hlocking
      cases hlocking
      rfl
  | @lock capacity file taken rest hfree =>
      have hnew : file ∉ taken := by
        intro htaken
        rw [(h.files file).mpr htaken] at hfree
        cases hfree
      refine ⟨take_holds h.files, List.nodup_cons.mpr ⟨hnew, h.nodup⟩, ?_, nofun⟩
      intro other taken' rest' hlocking
      cases hlocking
      rw [List.reverse_cons, List.append_assoc]
      exact h.locking capacity taken _ rfl
  | @survey capacity taken =>
      refine ⟨h.files, h.nodup, nofun, ?_⟩
      rintro other taken' (⟨pending, hconfirming⟩ | hstopping)
      · cases hconfirming
        have hall := h.locking capacity taken [] rfl
        rwa [List.append_nil] at hall
      · cases hstopping
  | @stale capacity client taken pending hstale =>
      refine ⟨h.files, h.nodup, nofun, ?_⟩
      rintro other taken' (⟨pending', hconfirming⟩ | hstopping)
      · cases hconfirming
        exact h.exclusive capacity taken (.inl ⟨_, rfl⟩)
      · cases hstopping
  | @stop capacity taken =>
      refine ⟨h.files, h.nodup, nofun, ?_⟩
      rintro other taken' (⟨pending', hconfirming⟩ | hstopping)
      · cases hconfirming
      · cases hstopping
        exact h.exclusive capacity taken (.inl ⟨_, rfl⟩)
  | @unlock file taken =>
      exact ⟨drop_holds h.files h.nodup, (List.nodup_cons.mp h.nodup).2, nofun, nofun⟩
  | blocked | problem | stopped | leave => exact ⟨h.files, h.nodup, nofun, nofun⟩

theorem MonitorFacts.frame (h : MonitorFacts shared phase)
    (hholder : ∀ path, later.holder path = some .monitor ↔ shared.holder path = some .monitor) :
    MonitorFacts later phase := by
  refine ⟨?_, h.nodup, h.locking, h.exclusive⟩
  intro path
  rw [hholder]
  exact h.files path

end

/-! ## The shelf -/

/-- What is so of all clients and the monitor. -/
structure ShelfFacts (owned : ℕ → Bool) (state : ShelfState) : Prop where
  clients : ∀ client, ClientFacts client (owned client) state.shared (state.client client)
  monitor : MonitorFacts state.shared state.monitor

/-- The steps of a shelf on which a client gets more slots than the monitor knows of only
while the monitor has still to read the client's demand. -/
def SeenStep (owned : ℕ → Bool) (state : ShelfState) (actor : Actor) (after : ShelfState) : Prop :=
  ShelfStep owned state actor after ∧
    ∀ capacity, state.monitor.capacity = some capacity → ∀ client argument wide,
      state.client client = .demanding argument → (after.client client).capacity = some wide →
        capacity < wide → owned client = true ∧ state.monitor.willRead client = true

/-- The monitor will read the demand of every client with more slots than it knows of. -/
def Watched (owned : ℕ → Bool) (state : ShelfState) : Prop :=
  ∀ capacity, state.monitor.capacity = some capacity → ∀ client wide,
    (state.client client).capacity = some wide → capacity < wide →
      owned client = true ∧ state.monitor.willRead client = true

section

variable {owned : ℕ → Bool} {state after : ShelfState} {actor : Actor}

theorem shelfFacts_start (recorded : ℕ) : ShelfFacts owned (.start recorded) := by
  constructor
  · intro client
    refine ⟨fun _ => ⟨nofun, nofun⟩, .nil, nofun, nofun, ?_, nofun⟩
    rintro capacity (hcapacity | hargument)
    · cases hcapacity
    · cases hargument
  · exact ⟨fun _ => ⟨nofun, nofun⟩, .nil, nofun, nofun⟩

theorem ShelfFacts.step (h : ShelfFacts owned state) (hstep : ShelfStep owned state actor after) :
    ShelfFacts owned after := by
  cases hstep with
  | @client client next later hstep =>
      have heffect := hstep.effect (h.clients client)
      refine ⟨?_, h.monitor.frame fun path => heffect.holder path _ nofun⟩
      intro other
      dsimp only
      by_cases heq : other = client
      · subst heq
        rw [Function.update_self]
        exact hstep.facts (h.clients other)
      · rw [Function.update_of_ne heq]
        refine (h.clients other).frame ?_ (heffect.demands other heq) (le_of_eq heffect.recorded.symm)
        intro path
        apply heffect.holder
        intro hparty
        cases hparty
        exact heq rfl
  | monitor hstep =>
      have heffect := hstep.effect h.monitor
      refine ⟨?_, hstep.facts h.monitor⟩
      intro client
      refine (h.clients client).frame (fun path => heffect.holder path client) ?_
        (le_of_eq heffect.recorded.symm)
      rw [heffect.demands]
  | grow hgrows =>
      refine ⟨?_, h.monitor.frame fun _ => Iff.rfl⟩
      intro client
      exact (h.clients client).frame (fun _ => Iff.rfl) Iff.rfl hgrows

theorem Watched.step (hwatched : Watched owned state) (h : ShelfFacts owned state)
    (hstep : SeenStep owned state actor after) : Watched owned after := by
  obtain ⟨hstep, hseen⟩ := hstep
  cases hstep with
  | @client client next later hstep =>
      intro capacity hcapacity other wide hwide hless
      by_cases heq : other = client
      · subst heq
        have hnext := hwide
        dsimp only at hwide
        rw [Function.update_self] at hwide
        rcases hstep.capacity hwide with hold | ⟨argument, hdemanding⟩
        · exact hwatched capacity hcapacity other wide hold hless
        · exact hseen capacity hcapacity other argument wide hdemanding hnext hless
      · dsimp only at hwide
        rw [Function.update_of_ne heq] at hwide
        exact hwatched capacity hcapacity other wide hwide hless
  | @monitor next later hstep =>
      intro capacity hcapacity client wide hwide hless
      have hdemand := (h.clients client).demand
      have hread := (h.clients client).recorded wide (.inl hwide)
      have hwritten := demands_of_capacity hwide
      dsimp only at hcapacity hwide ⊢
      have hold : state.monitor.capacity = some capacity →
          owned client = true ∧ state.monitor.willRead client = true :=
        fun hsame => hwatched capacity hsame client wide hwide hless
      generalize state.monitor = phase at hstep hold
      cases hstep with
      | measure =>
          cases hcapacity
          omega
      | lock hfree => exact hold hcapacity
      | @survey other taken =>
          -- the demand of a client that has lock groups is written, and so it is listed
          obtain ⟨howned, -⟩ := hold hcapacity
          refine ⟨howned, ?_⟩
          show decide (client ∈ state.shared.demands) = true
          exact decide_eq_true (hdemand howned hwritten)
      | @stale other gone taken pending hstale =>
          obtain ⟨howned, hpending⟩ := hold hcapacity
          refine ⟨howned, ?_⟩
          show decide (client ∈ pending) = true
          have hmem : client ∈ gone :: pending := of_decide_eq_true hpending
          rcases List.mem_cons.mp hmem with rfl | hmem
          · exact absurd (hdemand howned hwritten) hstale
          · exact decide_eq_true hmem
      | stop =>
          obtain ⟨-, hpending⟩ := hold hcapacity
          have hmem : client ∈ ([] : List ℕ) := of_decide_eq_true hpending
          cases hmem
      | blocked | problem | stopped | unlock | leave => cases hcapacity
  | grow hgrows => exact hwatched

end

/-! ## Runs -/

section

variable {owned : ℕ → Bool} {recorded : ℕ} {labels : List Actor} {state : ShelfState}

theorem shelfFacts_run (hrun : Run (ShelfStep owned) (.start recorded) labels state) :
    ShelfFacts owned state := by
  apply hrun.preserves _ (shelfFacts_start recorded)
  intro before actor after h hstep
  exact h.step hstep

theorem run_of_seen {first : ShelfState} (hrun : Run (SeenStep owned) first labels state) :
    Run (ShelfStep owned) first labels state := by
  induction hrun with
  | nil => exact .nil _
  | cons hstep _ ih => exact .cons hstep.1 ih

theorem watched_run (hrun : Run (SeenStep owned) (.start recorded) labels state) :
    Watched owned state := by
  have hfirst : Watched owned (.start recorded) := by
    intro capacity hcapacity
    cases hcapacity
  have hbase : ∀ before actor after, ShelfFacts owned before → SeenStep owned before actor after →
      ShelfFacts owned after := fun _ _ _ h hstep => h.step hstep.1
  apply hrun.preserves_of hbase _ (shelfFacts_start recorded) hfirst
  intro before actor after h hwatched hstep
  exact hwatched.step h hstep

/-- No two clients hold a slot, because no two parties hold a file of it. -/
theorem holds_unique {first second slot : ℕ} (hfirst : Holds state first slot)
    (hsecond : Holds state second slot) : first = second := by
  have hmem := canonical_mem_lockGroup slot
  have heq := (hfirst _ hmem).symm.trans (hsecond _ hmem)
  cases heq
  rfl

/-- An admitted client holds its slot. -/
theorem ShelfFacts.admitted (h : ShelfFacts owned state) {client capacity slot : ℕ}
    (hadmitted : state.client client = .admitted capacity slot) : Holds state client slot := by
  intro file hmem
  apply ((h.clients client).files file).mpr
  rw [hadmitted]
  exact List.mem_reverse.mpr hmem

/-- A client that holds a file has computed its lock groups. -/
theorem capacity_of_mem_files {phase : ClientPhase} {file : LockFile} (hmem : file ∈ phase.files) :
    ∃ capacity, phase.capacity = some capacity := by
  cases phase with
  | locking capacity | unlocking capacity | admitted capacity | releasing capacity =>
      exact ⟨capacity, rfl⟩
  | idle | called | demanding | done => cases hmem

/-- While the runtime is stopped, the monitor holds the slots that it knows of, and no
client has more than these. -/
theorem ShelfFacts.unheld (h : ShelfFacts owned state) (hwatched : Watched owned state)
    {capacity : ℕ} {taken : List LockFile} (hstopping : state.monitor = .stopping capacity taken)
    {client slot : ℕ} (hslot : 1 ≤ slot) : ¬ Holds state client slot := by
  intro hholds
  have hheld := hholds _ (canonical_mem_lockGroup slot)
  have hmem := ((h.clients client).files _).mp hheld
  obtain ⟨wide, hwide⟩ := capacity_of_mem_files hmem
  have hle : slot ≤ wide := (h.clients client).slots wide hwide _ hmem
  by_cases hknown : slot ≤ capacity
  · have hexclusive := h.monitor.exclusive capacity taken (.inr hstopping)
    have hlocked : state.shared.holder (.canonical slot) = some .monitor := by
      apply (h.monitor.files _).mpr
      rw [hstopping]
      show _ ∈ taken
      rw [← List.mem_reverse, hexclusive]
      exact canonical_mem_exclusivePaths.mpr ⟨hslot, hknown⟩
    rw [hheld] at hlocked
    cases hlocked
  · have hcapacity : state.monitor.capacity = some capacity := by rw [hstopping]; rfl
    obtain ⟨-, hread⟩ := hwatched capacity hcapacity client wide hwide (by omega)
    rw [hstopping] at hread
    cases hread

/-- Two clients never hold one slot, an admitted client holds its slot, and no client
holds any while the runtime is stopped, on a shelf where a client with more slots than
the monitor knows of has a demand that the monitor has still to read. -/
theorem retirement_excludes_clients (hrun : Run (SeenStep owned) (.start recorded) labels state) :
    (∀ first second slot, Holds state first slot → Holds state second slot → first = second) ∧
      (∀ client capacity slot, state.client client = .admitted capacity slot →
        Holds state client slot) ∧
      ∀ capacity taken, state.monitor = .stopping capacity taken →
        ∀ client slot, 1 ≤ slot → ¬ Holds state client slot := by
  have hfacts := shelfFacts_run (run_of_seen hrun)
  have hwatched := watched_run hrun
  refine ⟨fun _ _ _ => holds_unique, fun _ _ _ => hfacts.admitted, ?_⟩
  intro capacity taken hstopping client slot hslot
  exact hfacts.unheld hwatched hstopping hslot

end

/-! ## Runs of one client -/

section

variable {owned : ℕ → Bool} {state : ShelfState}

theorem SeenStep.monitor {phase : MonitorPhase} {shared : Shared}
    (hstep : MonitorStep state.shared state.monitor phase shared) :
    SeenStep owned state .monitor { state with monitor := phase, shared := shared } := by
  refine ⟨.monitor hstep, ?_⟩
  intro _ _ client argument wide hdemanding hwide
  dsimp only at hwide
  rw [hdemanding] at hwide
  cases hwide

theorem SeenStep.grow {recorded : ℕ} (hgrows : state.shared.recorded ≤ recorded) :
    SeenStep owned state .pool { state with shared := { state.shared with recorded := recorded } } := by
  refine ⟨.grow hgrows, ?_⟩
  intro _ _ client argument wide hdemanding hwide
  dsimp only at hwide
  rw [hdemanding] at hwide
  cases hwide

/-- Only the client that steps may compute its lock groups. -/
theorem SeenStep.client {client : ℕ} {phase : ClientPhase} {shared : Shared}
    (hstep : ClientStep client (owned client) state.shared (state.client client) phase shared)
    (hseen : ∀ capacity wide, state.monitor.capacity = some capacity →
      phase.capacity = some wide → capacity < wide →
        owned client = true ∧ state.monitor.willRead client = true) :
    SeenStep owned state (.client client)
      { state with client := Function.update state.client client phase, shared := shared } := by
  refine ⟨.client hstep, ?_⟩
  intro capacity hcapacity other argument wide hdemanding hwide hless
  dsimp only at hwide
  by_cases heq : other = client
  · subst heq
    rw [Function.update_self] at hwide
    exact hseen capacity wide hcapacity hwide hless
  · rw [Function.update_of_ne heq, hdemanding] at hwide
    cases hwide

end

/-- The client is given a second slot while the monitor locks the first one; it then
gives up, and the monitor goes on. -/
theorem retirement_excludes_clients_widened : ∃ labels state capacity taken,
    Run (SeenStep fun _ => true) (.start 1) labels state ∧
      state.monitor = .stopping capacity taken ∧ ∀ client slot, 1 ≤ slot → ¬ Holds state client slot := by
  obtain ⟨labels, state, capacity, taken, hrun, hstopping⟩ : ∃ labels state capacity taken,
      Run (SeenStep fun _ => true) (.start 1) labels state ∧
        state.monitor = .stopping capacity taken := by
    refine ⟨[.client 0, .client 0, .monitor, .monitor, .pool, .client 0, .client 0, .client 0,
      .client 0, .monitor, .monitor, .monitor], _, _, _,
      .cons (.client (.call 1 Nat.one_pos le_rfl) nofun) <| .cons (.client .demand nofun) <|
      .cons (.monitor .measure) <| .cons (.monitor (.lock rfl)) <|
      .cons (.grow (Nat.le_succ 1)) <| .cons (.client (.size true) ?_) <|
      .cons (.client (.blocked nofun) ?_) <| .cons (.client .giveUp ?_) <|
      .cons (.client .close ?_) <| .cons (.monitor (.lock rfl)) <| .cons (.monitor .survey) <|
      .cons (.monitor .stop) (.nil _), rfl⟩
    all_goals exact fun _ _ _ _ _ => ⟨rfl, rfl⟩
  exact ⟨labels, state, capacity, taken, hrun, hstopping,
    (retirement_excludes_clients hrun).2.2 capacity taken hstopping⟩

/-- The monitor reads a capacity of one and locks that slot.  The capacity then grows, and
the client is stopped by nothing on its way to the second slot. -/
theorem slot_held_at_stop : ∃ labels state capacity taken,
    Run (ShelfStep fun _ => true) (.start 1) labels state ∧
      state.monitor = .stopping capacity taken ∧ Holds state 0 2 := by
  refine ⟨[.monitor, .monitor, .monitor, .monitor, .client 0, .client 0, .pool, .client 0,
    .client 0, .client 0, .client 0, .client 0, .monitor], _, _, _,
    .cons (.monitor .measure) <| .cons (.monitor (.lock rfl)) <| .cons (.monitor (.lock rfl)) <|
    .cons (.monitor .survey) <| .cons (.client (.call 1 Nat.one_pos le_rfl)) <|
    .cons (.client .demand) <| .cons (.grow (Nat.le_succ 1)) <|
    .cons (.client (.size true)) <| .cons (.client (.blocked nofun)) <| .cons (.client .next) <|
    .cons (.client (.lock rfl)) <| .cons (.client .enter) <| .cons (.monitor .stop) (.nil _),
    rfl, ?_⟩
  intro file hmem
  cases List.mem_singleton.mp hmem
  rfl

end Hearth.Shelf
