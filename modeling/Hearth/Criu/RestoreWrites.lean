import Hearth.Criu.RestoreDocuments

/-!
# What the steps of a restore write

Every step updates the documents of the sessions that have one and writes `pool.json` last.  Here
is what each step requires of the files and what is in them behind it: the status of the pool, the
sessions that its rows name, and the identities that staging puts into every document.
-/

namespace Hearth.Criu

open Hearth.Library

/-! ## The writes of a step -/

/-- A write of a session document. -/
def FileWrite.IsSession : FileWrite → Prop
  | .pool _ => False
  | .session _ _ => True

namespace PoolFiles

theorem writeAll_append (files : PoolFiles) (first second : List FileWrite) :
    files.writeAll (first ++ second) = (files.writeAll first).writeAll second :=
  List.foldl_append

/-- Session documents leave `pool.json` alone. -/
theorem writeAll_pool {writes : List FileWrite} (files : PoolFiles)
    (h : ∀ write ∈ writes, write.IsSession) : (files.writeAll writes).pool = files.pool := by
  induction writes generalizing files with
  | nil => rfl
  | cons first rest ih =>
      have hrest : ((files.write first).writeAll rest).pool = (files.write first).pool :=
        ih (files.write first) fun write hmem => h write (List.mem_cons_of_mem _ hmem)
      cases first with
      | pool document => exact (h _ List.mem_cons_self).elim
      | session leaf document => exact hrest

/-- A session that is not written keeps its document. -/
theorem writeAll_session_other {writes : List FileWrite} {leaf : String} (files : PoolFiles)
    (h : ∀ document, .session leaf document ∉ writes) :
    (files.writeAll writes).session leaf = files.session leaf := by
  induction writes generalizing files with
  | nil => rfl
  | cons first rest ih =>
      have hrest : ((files.write first).writeAll rest).session leaf = (files.write first).session leaf :=
        ih (files.write first) fun document hmem => h document (List.mem_cons_of_mem _ hmem)
      rw [writeAll, List.foldl_cons]
      refine hrest.trans ?_
      cases first with
      | pool document => rfl
      | session other document =>
          have hne : leaf ≠ other := by
            rintro rfl
            exact h document List.mem_cons_self
          exact Function.update_of_ne hne _ _

/-- A session whose writes agree has the document written. -/
theorem writeAll_session {writes : List FileWrite} {leaf : String} {document : Json}
    (files : PoolFiles) (hmem : .session leaf document ∈ writes)
    (hagree : ∀ other, .session leaf other ∈ writes → other = document) :
    (files.writeAll writes).session leaf = some document := by
  induction writes generalizing files with
  | nil => cases hmem
  | cons first rest ih =>
      by_cases hlater : .session leaf document ∈ rest
      · exact ih (files.write first) hlater
          fun other hother => hagree other (List.mem_cons_of_mem _ hother)
      · -- The first write is then the only one of this session.
        obtain rfl : .session leaf document = first := by
          rcases List.mem_cons.mp hmem with heq | hin
          · exact heq
          · exact absurd hin hlater
        have hrest : ∀ other, .session leaf other ∉ rest := by
          intro other hother
          obtain rfl := hagree other (List.mem_cons_of_mem _ hother)
          exact hlater hother
        calc (files.writeAll (.session leaf document :: rest)).session leaf
            = (files.write (.session leaf document)).session leaf :=
              writeAll_session_other (files.write (.session leaf document)) hrest
          _ = some document := Function.update_self _ _ _

end PoolFiles

/-! ## The updates of the sessions -/

section Updates

variable {files : PoolFiles} {checkRow checkDocument : Json → Except String Unit}
  {update : Json → Json}

theorem sessionUpdates_cons {row : Json} {rows : List Json} {writes : List FileWrite} :
    sessionUpdates files checkRow checkDocument update (row :: rows) = .ok writes ↔
      ∃ first rest, rowUpdate files checkRow checkDocument update row = .ok first ∧
        sessionUpdates files checkRow checkDocument update rows = .ok rest ∧ first ++ rest = writes := by
  rw [sessionUpdates, bind_eq_ok]
  constructor
  · rintro ⟨first, hfirst, hafter⟩
    obtain ⟨rest, hrest, hwrites⟩ := bind_eq_ok.mp hafter
    exact ⟨first, rest, hfirst, hrest, pure_eq_ok.mp hwrites⟩
  · rintro ⟨first, rest, hfirst, hrest, hwrites⟩
    exact ⟨first, hfirst, bind_eq_ok.mpr ⟨rest, hrest, pure_eq_ok.mpr hwrites⟩⟩

/-- A row writes the document of its session, or nothing where it has none. -/
theorem rowUpdate_eq_ok {row : Json} {writes : List FileWrite}
    (h : rowUpdate files checkRow checkDocument update row = .ok writes) :
    (writes = [] ∧ ∀ leaf, restoredPoolSession row = .ok (some leaf) → files.session leaf = none) ∨
      ∃ leaf document, restoredPoolSession row = .ok (some leaf) ∧
        files.session leaf = some document ∧ checkDocument document = .ok () ∧
          writes = [.session leaf (update document)] := by
  obtain ⟨_, -, hchecked⟩ := bind_eq_ok.mp h
  obtain ⟨leaf, hleaf, hwrites⟩ := bind_eq_ok.mp hchecked
  rw [hleaf]
  cases leaf with
  | none =>
      obtain rfl := Except.ok.inj hwrites
      refine .inl ⟨rfl, fun leaf heq => ?_⟩
      cases heq
  | some leaf =>
      dsimp only at hwrites
      cases hdocument : files.session leaf with
      | none =>
          rw [hdocument] at hwrites
          obtain rfl := Except.ok.inj hwrites
          refine .inl ⟨rfl, fun other heq => ?_⟩
          obtain rfl := Option.some.inj (Except.ok.inj heq)
          exact hdocument
      | some document =>
          rw [hdocument] at hwrites
          obtain ⟨_, hcheck, hpure⟩ := bind_eq_ok.mp hwrites
          exact .inr ⟨leaf, document, rfl, hdocument, hcheck, (Except.ok.inj hpure).symm⟩

/-- Every update is of a session that has a document. -/
theorem mem_sessionUpdates {rows : List Json} {writes : List FileWrite}
    (h : sessionUpdates files checkRow checkDocument update rows = .ok writes) {write : FileWrite}
    (hmem : write ∈ writes) :
    ∃ leaf document, write = .session leaf (update document) ∧ files.session leaf = some document := by
  induction rows generalizing writes with
  | nil =>
      obtain rfl := Except.ok.inj h
      cases hmem
  | cons row rows ih =>
      obtain ⟨first, rest, hfirst, hrest, rfl⟩ := sessionUpdates_cons.mp h
      rcases List.mem_append.mp hmem with hin | hin
      · rcases rowUpdate_eq_ok hfirst with ⟨rfl, -⟩ | ⟨leaf, document, -, hdocument, -, rfl⟩
        · cases hin
        · exact ⟨leaf, document, List.mem_singleton.mp hin, hdocument⟩
      · exact ih hrest hin

/-- Every document that a row names was accepted, and is updated. -/
theorem sessionUpdates_named {rows : List Json} {writes : List FileWrite}
    (h : sessionUpdates files checkRow checkDocument update rows = .ok writes) {row : Json}
    (hrow : row ∈ rows) {leaf : String} (hleaf : restoredPoolSession row = .ok (some leaf))
    {document : Json} (hdocument : files.session leaf = some document) :
    checkDocument document = .ok () ∧ .session leaf (update document) ∈ writes := by
  induction rows generalizing writes with
  | nil => cases hrow
  | cons first rows ih =>
      obtain ⟨updates, rest, hfirst, hrest, rfl⟩ := sessionUpdates_cons.mp h
      rcases List.mem_cons.mp hrow with rfl | hin
      · rcases rowUpdate_eq_ok hfirst with ⟨-, hnone⟩ | ⟨other, written, hother, hwritten, hcheck, rfl⟩
        · rw [hnone leaf hleaf] at hdocument
          cases hdocument
        · obtain rfl : other = leaf := Option.some.inj (Except.ok.inj (hother.symm.trans hleaf))
          obtain rfl : written = document := Option.some.inj (hwritten.symm.trans hdocument)
          exact ⟨hcheck, List.mem_append_left _ (List.mem_singleton.mpr rfl)⟩
      · obtain ⟨hcheck, hmem⟩ := ih hrest hin
        exact ⟨hcheck, List.mem_append_right _ hmem⟩

/-- The updates write sessions only. -/
theorem isSession_of_mem_sessionUpdates {rows : List Json} {writes : List FileWrite}
    (h : sessionUpdates files checkRow checkDocument update rows = .ok writes) :
    ∀ write ∈ writes, write.IsSession := by
  intro write hmem
  obtain ⟨leaf, document, rfl, -⟩ := mem_sessionUpdates h hmem
  exact trivial

/-- After the updates and the write of the pool, a session that a row names has its update. -/
theorem session_after_updates {rows : List Json} {updates : List FileWrite} {new : Json}
    (h : sessionUpdates files checkRow checkDocument update rows = .ok updates) {row : Json}
    (hrow : row ∈ rows) {leaf : String} (hleaf : restoredPoolSession row = .ok (some leaf))
    {written : Json} (hwritten : (files.writeAll (updates ++ [.pool new])).session leaf = some written) :
    ∃ document, files.session leaf = some document ∧ checkDocument document = .ok () ∧
      written = update document := by
  have hlast : (files.writeAll (updates ++ [.pool new])).session leaf =
      (files.writeAll updates).session leaf := by
    rw [PoolFiles.writeAll_append]
    rfl
  rw [hlast] at hwritten
  cases hdocument : files.session leaf with
  | none =>
      -- A session without a document is not written.
      have hother : ∀ document, .session leaf document ∉ updates := by
        intro document hmem
        obtain ⟨other, present, heq, hpresent⟩ := mem_sessionUpdates h hmem
        injection heq with hsame
        rw [← hsame, hdocument] at hpresent
        cases hpresent
      rw [PoolFiles.writeAll_session_other files hother, hdocument] at hwritten
      cases hwritten
  | some document =>
      obtain ⟨hcheck, hmem⟩ := sessionUpdates_named h hrow hleaf hdocument
      have hagree : ∀ other, .session leaf other ∈ updates → other = update document := by
        intro other hother
        obtain ⟨named, present, heq, hpresent⟩ := mem_sessionUpdates h hother
        injection heq with hsame hnew
        rw [← hsame, hdocument] at hpresent
        rw [hnew, Option.some.inj hpresent]
      rw [PoolFiles.writeAll_session files hmem hagree] at hwritten
      exact ⟨document, rfl, hcheck, (Option.some.inj hwritten).symm⟩

end Updates

/-! ## The rows of a pool that was rewritten -/

/-- A row keeps its session when other fields are set. -/
theorem restoredPoolSession_congr {one other : Json}
    (hid : one.get "session_id" = other.get "session_id")
    (hdir : one.get "session_dir" = other.get "session_dir") :
    restoredPoolSession one = restoredPoolSession other := by
  unfold restoredPoolSession
  rw [hid, hdir]

/-- The rows of a document whose sessions were rewritten in place. -/
theorem sessionRows_of_rewritten {data new : Json} {rows : List Json} {change : Json → Json}
    (hrows : sessionRows data = .ok rows) (hdict : ∀ row, (change row).isDict = row.isDict)
    (hnew : new.get "sessions" =
      if Json.truthy (data.get "sessions") then .arr (rows.map change) else data.get "sessions") :
    sessionRows new = .ok (rows.map change) := by
  unfold sessionRows Json.orElse at hrows ⊢
  rw [hnew]
  by_cases htruthy : Json.truthy (data.get "sessions") = true
  · rw [if_pos htruthy] at hrows ⊢
    cases hsessions : data.get "sessions" with
    | arr items =>
        rw [hsessions] at hrows htruthy
        dsimp only at hrows
        split at hrows
        · rename_i hall
          obtain rfl := Except.ok.inj hrows
          have hmapped : (items.map change).all Json.isDict = true := by
            rw [List.all_map]
            rw [List.all_eq_true] at hall ⊢
            intro row hmem
            exact (hdict row).trans (hall row hmem)
          have htruthy' : Json.truthy (.arr (items.map change)) = true := by
            simpa [Json.truthy] using htruthy
          rw [if_pos htruthy']
          show (if (items.map change).all Json.isDict = true then _ else _) = _
          rw [if_pos hmapped]
        · cases hrows
    | null | bool | int | str | obj =>
        rw [hsessions] at hrows
        cases hrows
  · rw [if_neg htruthy] at hrows ⊢
    rw [if_neg htruthy]
    obtain rfl := Except.ok.inj hrows
    rfl

/-! ## The identities in a document -/

/-- The document is an object that carries the identities of the two roles. -/
def Carries (roles : RestoredRoles) (document : Json) : Prop :=
  document.isDict = true ∧ ∀ role, ∃ ticks identity, roles.role role = ⟨some ticks, some identity⟩ ∧
    document.get (role.key "start_ticks") = .int ticks ∧
      document.get (role.key "identity") = .str identity

/-- The fields that the steps set beside the identities. -/
def bookkeeping : List String :=
  ["sessions", "status", "lease", "updated_utc", "restore_transaction"]

theorem Role.key_notMem_bookkeeping (role : Role) :
    role.key "start_ticks" ∉ bookkeeping ∧ role.key "identity" ∉ bookkeeping := by
  cases role <;> decide

/-- Bookkeeping leaves the identities. -/
theorem Carries.extend {roles : RestoredRoles} {document : Json} {fields : List (String × Json)}
    (h : Carries roles document) (hfields : ∀ field ∈ fields, field.1 ∈ bookkeeping) :
    Carries roles (document.extend fields) := by
  obtain ⟨hdict, hroles⟩ := h
  have hkeep : ∀ {key : String}, key ∉ bookkeeping → (document.extend fields).get key = document.get key := by
    intro key hkey
    apply Json.get_extend_of_notMem
    intro hmem
    obtain ⟨field, hfield, rfl⟩ := List.mem_map.mp hmem
    exact hkey (hfields field hfield)
  refine ⟨(Json.isDict_extend _ _).trans hdict, fun role => ?_⟩
  obtain ⟨hticks, hidentity⟩ := role.key_notMem_bookkeeping
  rw [hkeep hticks, hkeep hidentity]
  exact hroles role

/-- So does the removal of an earlier failure. -/
theorem Carries.drop {roles : RestoredRoles} {document : Json} (h : Carries roles document) :
    Carries roles (document.drop "restore_failure_cleanup") := by
  obtain ⟨hdict, hroles⟩ := h
  refine ⟨(Json.isDict_drop _ _).trans hdict, fun role => ?_⟩
  have hne : role.key "start_ticks" ≠ "restore_failure_cleanup" ∧
      role.key "identity" ≠ "restore_failure_cleanup" := by
    cases role <;> decide
  rw [Json.get_drop_of_ne _ hne.1, Json.get_drop_of_ne _ hne.2]
  exact hroles role

theorem identityFields_eq_ok {roles : RestoredRoles} {role : Role} {fields : List (String × Json)}
    (h : identityFields roles role = .ok fields) :
    ∃ ticks identity, roles.role role = ⟨some ticks, some identity⟩ ∧
      fields = [(role.key "start_ticks", .int ticks), (role.key "identity", .str identity)] := by
  unfold identityFields at h
  split at h
  · rename_i ticks identity hticks hidentity
    refine ⟨ticks, identity, ?_, (Except.ok.inj h).symm⟩
    show RestoredRole.mk (roles.role role).startTicks (roles.role role).identity = _
    rw [hticks, hidentity]
  · cases h

/-- The identity fields carry the identities. -/
theorem carries_extend {roles : RestoredRoles} {worker basis : List (String × Json)} {document : Json}
    (hworker : identityFields roles .worker = .ok worker) (hbasis : identityFields roles .basis = .ok basis)
    (hdict : document.isDict = true) : Carries roles (document.extend (worker ++ basis)) := by
  obtain ⟨workerTicks, workerIdentity, hworkerRole, rfl⟩ := identityFields_eq_ok hworker
  obtain ⟨basisTicks, basisIdentity, hbasisRole, rfl⟩ := identityFields_eq_ok hbasis
  refine ⟨(Json.isDict_extend _ _).trans hdict, fun role => ?_⟩
  cases role with
  | worker =>
      refine ⟨workerTicks, workerIdentity, hworkerRole, ?_, ?_⟩ <;>
        · rw [Json.get_extend hdict]
          rfl
  | basis =>
      refine ⟨basisTicks, basisIdentity, hbasisRole, ?_, ?_⟩ <;>
        · rw [Json.get_extend hdict]
          rfl

/-- No other field changes. -/
theorem get_identities_of_ne {roles : RestoredRoles} {worker basis : List (String × Json)}
    {document : Json} {key : String} (hworker : identityFields roles .worker = .ok worker)
    (hbasis : identityFields roles .basis = .ok basis)
    (hkey : ∀ role : Role, key ≠ role.key "start_ticks" ∧ key ≠ role.key "identity") :
    (document.extend (worker ++ basis)).get key = document.get key := by
  obtain ⟨_, _, -, rfl⟩ := identityFields_eq_ok hworker
  obtain ⟨_, _, -, rfl⟩ := identityFields_eq_ok hbasis
  apply Json.get_extend_of_notMem
  simp only [List.cons_append, List.nil_append, List.map_cons, List.map_nil, List.mem_cons,
    List.not_mem_nil, or_false, not_or]
  exact ⟨(hkey .worker).1, (hkey .worker).2, (hkey .basis).1, (hkey .basis).2⟩

/-! ## What a step writes -/

theorem mem_rowsField {data : Json} {rows : List Json} {field : String × Json}
    (h : field ∈ rowsField data rows) : field = ("sessions", .arr rows) := by
  unfold rowsField at h
  split at h
  · exact List.mem_singleton.mp h
  · cases h

/-- The sessions of a document where they were rewritten. -/
theorem get_sessions_extend {data target : Json} {rows : List Json} {fields : List (String × Json)}
    (hdict : target.isDict = true) (hsame : target.get "sessions" = data.get "sessions")
    (hfields : "sessions" ∉ fields.map Prod.fst) :
    (target.extend (rowsField data rows ++ fields)).get "sessions" =
      if Json.truthy (data.get "sessions") then .arr rows else data.get "sessions" := by
  unfold rowsField
  split
  · apply Json.get_extend_of_mem hdict (List.mem_append_left _ (List.mem_singleton.mpr rfl))
    intro other hother
    rcases List.mem_append.mp hother with hin | hin
    · injection List.mem_singleton.mp hin
    · exact absurd (List.mem_map.mpr ⟨_, hin, rfl⟩) hfields
  · rw [List.nil_append, Json.get_extend_of_notMem _ hfields, hsame]

/-- A field of a document where others than it were set besides the rows. -/
theorem get_extend_rows {data target : Json} {rows : List Json} {fields : List (String × Json)}
    {key : String} {value : Json} (hdict : target.isDict = true) (hkey : key ≠ "sessions")
    (hmem : (key, value) ∈ fields) (hagree : ∀ other, (key, other) ∈ fields → other = value) :
    (target.extend (rowsField data rows ++ fields)).get key = value := by
  apply Json.get_extend_of_mem hdict (List.mem_append_right _ hmem)
  intro other hother
  rcases List.mem_append.mp hother with hin | hin
  · injection mem_rowsField hin with hsame
    exact absurd hsame hkey
  · exact hagree other hin

/-- A session that a row of the pool names. -/
def PoolFiles.Names (files : PoolFiles) (leaf : String) : Prop :=
  ∃ rows row, sessionRows files.pool = .ok rows ∧ row ∈ rows ∧ restoredPoolSession row = .ok (some leaf)

/-- The writes update the sessions that have a document and then the pool, which keeps its rows. -/
structure Rewritten (files : PoolFiles) (checkDocument : Json → Except String Unit)
    (update : Json → Json) (new : Json) (writes : List FileWrite) : Prop where
  dict : files.pool.isDict = true
  rewritten : ∃ checkRow rows updates change, sessionRows files.pool = .ok rows ∧
    sessionUpdates files checkRow checkDocument update rows = .ok updates ∧
      writes = updates ++ [.pool new] ∧ sessionRows new = .ok (rows.map change) ∧
        ∀ row, restoredPoolSession (change row) = restoredPoolSession row

namespace Rewritten

variable {files : PoolFiles} {checkDocument : Json → Except String Unit} {update : Json → Json}
  {new : Json} {writes : List FileWrite}

theorem pool (h : Rewritten files checkDocument update new writes) : (files.writeAll writes).pool = new := by
  obtain ⟨_, _, updates, _, -, -, rfl, -⟩ := h.rewritten
  rw [PoolFiles.writeAll_append]
  rfl

/-- Behind the step, a session that the pool names was named before, and its document is the update
of one that was accepted. -/
theorem session (h : Rewritten files checkDocument update new writes) {leaf : String} {written : Json}
    (hnames : (files.writeAll writes).Names leaf)
    (hwritten : (files.writeAll writes).session leaf = some written) :
    files.Names leaf ∧ ∃ document, files.session leaf = some document ∧
      checkDocument document = .ok () ∧ written = update document := by
  obtain ⟨later, row, hlater, hrow, hleaf⟩ := hnames
  rw [h.pool] at hlater
  obtain ⟨_, rows, updates, change, hrows, hupdates, rfl, hnew, hsame⟩ := h.rewritten
  obtain rfl := Except.ok.inj (hlater.symm.trans hnew)
  obtain ⟨original, horiginal, rfl⟩ := List.mem_map.mp hrow
  rw [hsame] at hleaf
  exact ⟨⟨rows, original, hrows, horiginal, hleaf⟩,
    session_after_updates hupdates horiginal hleaf hwritten⟩

end Rewritten

theorem requireStatus_eq_ok {data : Json} {wanted refusal : String} {result : Unit}
    (h : requireStatus data wanted refusal = .ok result) :
    data.isDict = true ∧ data.get "status" = .str wanted := by
  unfold requireStatus at h
  split at h
  · rename_i hdict
    split at h
    · rename_i hstatus
      exact ⟨hdict, hstatus⟩
    · cases h
  · cases h

/-- The two fields beside the rows that every step sets, with the transaction where there is one. -/
theorem status_of_fields {target data transaction : Json} {rows : List Json} {status now : String}
    {condition : Bool} (hdict : target.isDict = true) :
    (target.extend (rowsField data rows ++ [("status", .str status), ("updated_utc", .str now)] ++
      if condition then [("restore_transaction", transaction)] else [])).get "status" = .str status := by
  rw [List.append_assoc]
  apply get_extend_rows hdict (by decide) List.mem_cons_self
  intro other hother
  cases condition <;> simpa using hother

theorem sessions_of_fields {target data transaction : Json} {rows : List Json} {status now : String}
    {condition : Bool} (hdict : target.isDict = true)
    (hsame : target.get "sessions" = data.get "sessions") :
    (target.extend (rowsField data rows ++ [("status", .str status), ("updated_utc", .str now)] ++
      if condition then [("restore_transaction", transaction)] else [])).get "sessions" =
        if Json.truthy (data.get "sessions") then .arr rows else data.get "sessions" := by
  rw [List.append_assoc]
  apply get_sessions_extend hdict hsame
  cases condition <;> simp

/-- These fields are bookkeeping. -/
theorem bookkeeping_of_fields {data transaction : Json} {rows : List Json} {status now : String}
    {condition : Bool} {field : String × Json}
    (h : field ∈ rowsField data rows ++ [("status", .str status), ("updated_utc", .str now)] ++
      if condition then [("restore_transaction", transaction)] else []) : field.1 ∈ bookkeeping := by
  rw [List.append_assoc] at h
  rcases List.mem_append.mp h with hin | hin
  · rw [mem_rowsField hin]
    exact List.mem_cons_self
  · cases condition with
    | false =>
        rcases List.mem_cons.mp hin with rfl | hin
        · simp [bookkeeping]
        · obtain rfl := List.mem_singleton.mp hin
          simp [bookkeeping]
    | true =>
        simp only [if_true, List.cons_append, List.nil_append, List.mem_cons, List.not_mem_nil,
          or_false] at hin
        rcases hin with rfl | rfl | rfl <;> simp [bookkeeping]

/-- What staging writes. -/
theorem stageRestoredPoolMetadata_eq_ok {roles : RestoredRoles} {now : String} {files : PoolFiles}
    {writes : List FileWrite} (h : stageRestoredPoolMetadata roles now files = .ok writes) :
    files.status = .str "restoring" ∧ ∃ update new, Rewritten files requireDict update new writes ∧
      new.get "status" = .str "restoring" ∧ Carries roles new ∧
        ∀ document, document.isDict = true → Carries roles (update document) := by
  unfold stageRestoredPoolMetadata at h
  obtain ⟨_, hstatus, h⟩ := bind_eq_ok.mp h
  obtain ⟨worker, hworker, h⟩ := bind_eq_ok.mp h
  obtain ⟨basis, hbasis, h⟩ := bind_eq_ok.mp h
  obtain ⟨rows, hrows, h⟩ := bind_eq_ok.mp h
  obtain ⟨updates, hupdates, h⟩ := bind_eq_ok.mp h
  obtain ⟨hdict, hrestoring⟩ := requireStatus_eq_ok hstatus
  have hwrites := pure_eq_ok.mp h
  have hstaged : Carries roles ((files.pool.extend (worker ++ basis)).drop "restore_failure_cleanup") :=
    (carries_extend hworker hbasis hdict).drop
  refine ⟨hrestoring, _, _, ⟨hdict, _, rows, updates, _, hrows, hupdates, hwrites.symm,
    sessionRows_of_rewritten hrows ?_ (sessions_of_fields hstaged.1 ?_), ?_⟩,
    status_of_fields hstaged.1, hstaged.extend (fun field => bookkeeping_of_fields), ?_⟩
  · intro row
    rw [Json.isDict_extend, Json.isDict_drop, Json.isDict_extend]
  · rw [Json.get_drop_of_ne _ (by decide),
      get_identities_of_ne hworker hbasis (by rintro (_ | _) <;> decide)]
  · intro row
    -- The staged row has the session of the row.
    have hkeep : ∀ {key : String}, key ∉ ["status", "lease", "restore_failure_cleanup"] →
        (∀ role : Role, key ≠ role.key "start_ticks" ∧ key ≠ role.key "identity") →
          (((row.extend [("status", .str "restoring"), ("lease", .null)]).drop
            "restore_failure_cleanup").extend (worker ++ basis)).get key = row.get key := by
      intro key hkey hroles
      simp only [List.mem_cons, List.not_mem_nil, or_false, not_or] at hkey
      obtain ⟨hstatus, hlease, hcleanup⟩ := hkey
      rw [get_identities_of_ne hworker hbasis hroles, Json.get_drop_of_ne _ hcleanup,
        Json.get_extend_of_notMem _ (by simp [hstatus, hlease])]
    exact restoredPoolSession_congr (hkeep (by decide) (by rintro (_ | _) <;> decide))
      (hkeep (by decide) (by rintro (_ | _) <;> decide))
  · intro document hdocument
    apply Carries.extend (carries_extend hworker hbasis hdocument).drop
    intro field hmem
    rcases List.mem_cons.mp hmem with rfl | hmem
    · simp [bookkeeping]
    · obtain rfl := List.mem_singleton.mp hmem
      simp [bookkeeping]

/-- What publishing writes. -/
theorem publishRestoredPoolReady_eq_ok {now : String} {files : PoolFiles} {writes : List FileWrite}
    (h : publishRestoredPoolReady now files = .ok writes) :
    files.status = .str "restoring" ∧ ∃ update new, Rewritten files requireRestoring update new writes ∧
      new.get "status" = .str "ready" ∧ (∀ roles, Carries roles files.pool → Carries roles new) ∧
        ∀ document, document.isDict = true → (update document).get "status" = .str "ready" ∧
          (update document).get "lease" = .null ∧
            ∀ roles, Carries roles document → Carries roles (update document) := by
  unfold publishRestoredPoolReady at h
  obtain ⟨_, hstatus, h⟩ := bind_eq_ok.mp h
  obtain ⟨rows, hrows, h⟩ := bind_eq_ok.mp h
  obtain ⟨updates, hupdates, h⟩ := bind_eq_ok.mp h
  obtain ⟨hdict, hrestoring⟩ := requireStatus_eq_ok hstatus
  have hwrites := pure_eq_ok.mp h
  refine ⟨hrestoring, _, _, ⟨hdict, _, rows, updates, _, hrows, hupdates, hwrites.symm,
    sessionRows_of_rewritten hrows (fun row => Json.isDict_extend _ _) (sessions_of_fields hdict rfl), ?_⟩,
    status_of_fields hdict, fun roles hroles => hroles.extend (fun field => bookkeeping_of_fields), ?_⟩
  · intro row
    exact restoredPoolSession_congr (Json.get_extend_of_notMem _ (by decide))
      (Json.get_extend_of_notMem _ (by decide))
  · intro document hdocument
    refine ⟨?_, ?_, fun roles hroles => hroles.extend ?_⟩
    · rw [Json.get_extend hdocument]
      rfl
    · rw [Json.get_extend hdocument]
      rfl
    · intro field hmem
      simp only [List.mem_cons, List.not_mem_nil, or_false] at hmem
      rcases hmem with rfl | rfl | rfl <;> simp [bookkeeping]

/-! ## The gate of a step -/

/-- The writes end with the pool, which goes from one status to another. -/
structure Gated (files : PoolFiles) (required left : String) (writes : List FileWrite) : Prop where
  required : files.status = .str required
  written : ∃ updates new, writes = updates ++ [.pool new] ∧ (∀ write ∈ updates, write.IsSession) ∧
    new.get "status" = .str left

theorem Rewritten.gated {files : PoolFiles} {checkDocument : Json → Except String Unit}
    {update : Json → Json} {new : Json} {writes : List FileWrite} {required left : String}
    (h : Rewritten files checkDocument update new writes) (hrequired : files.status = .str required)
    (hleft : new.get "status" = .str left) : Gated files required left writes := by
  obtain ⟨_, _, updates, _, -, hupdates, hwrites, -⟩ := h.rewritten
  exact ⟨hrequired, updates, new, hwrites, isSession_of_mem_sessionUpdates hupdates, hleft⟩

theorem gated_begin {request : RestoreRequest} {now : String} {files : PoolFiles}
    {writes : List FileWrite} (h : beginRestoredPoolTransaction request now files = .ok writes) :
    Gated files "stopped" "restoring" writes := by
  unfold beginRestoredPoolTransaction at h
  obtain ⟨_, hstatus, h⟩ := bind_eq_ok.mp h
  obtain ⟨hdict, hstopped⟩ := requireStatus_eq_ok hstatus
  obtain ⟨rows, hrows, h⟩ : ∃ rows, sessionRows files.pool = .ok rows ∧ _ = Except.ok writes := by
    split at h
    · split at h
      · cases h
      · exact bind_eq_ok.mp h
    · exact bind_eq_ok.mp h
  obtain ⟨updates, hupdates, h⟩ := bind_eq_ok.mp h
  have hwrites := pure_eq_ok.mp h
  refine ⟨hstopped, updates, _, hwrites.symm, isSession_of_mem_sessionUpdates hupdates, ?_⟩
  exact get_extend_rows hdict (by decide) List.mem_cons_self (by simp)

theorem gated_recordLauncher {pid startTicks : ℕ} {identity now : String} {files : PoolFiles}
    {writes : List FileWrite}
    (h : recordRestoredPoolLauncher pid startTicks identity now files = .ok writes) :
    Gated files "restoring" "restoring" writes := by
  unfold recordRestoredPoolLauncher at h
  obtain ⟨_, hstatus, h⟩ := bind_eq_ok.mp h
  obtain ⟨hdict, hrestoring⟩ := requireStatus_eq_ok hstatus
  obtain ⟨-, h⟩ := guard_eq_ok.mp h
  have hwrites := pure_eq_ok.mp h
  refine ⟨hrestoring, [], _, hwrites.symm, fun write hmem => (List.not_mem_nil hmem).elim, ?_⟩
  exact (Json.get_extend_of_notMem _ (by simp)).trans hrestoring

theorem gated_reset {request : RestoreRequest} {retryReceipt now : String} {files : PoolFiles}
    {writes : List FileWrite} (h : resetRootCollisionRestore request retryReceipt now files = .ok writes) :
    Gated files "restoring" "stopped" writes := by
  unfold resetRootCollisionRestore at h
  obtain ⟨hstatus, h⟩ := guard_eq_ok.mp h
  obtain ⟨-, h⟩ := guard_eq_ok.mp h
  obtain ⟨rows, hrows, h⟩ := bind_eq_ok.mp h
  obtain ⟨-, h⟩ := guard_eq_ok.mp h
  obtain ⟨updates, hupdates, h⟩ := bind_eq_ok.mp h
  have hwrites := pure_eq_ok.mp h
  simp only [not_or, not_not, Bool.not_eq_true', Bool.not_eq_false] at hstatus
  refine ⟨hstatus.2, updates, _, hwrites.symm, isSession_of_mem_sessionUpdates hupdates, ?_⟩
  rw [Json.get_drop_of_ne _ (by decide), Json.get_extend hstatus.1]
  rfl

namespace Gated

variable {files : PoolFiles} {required left : String} {writes : List FileWrite}

/-- All the writes leave the new status. -/
theorem status_writeAll (h : Gated files required left writes) :
    (files.writeAll writes).status = .str left := by
  obtain ⟨updates, new, rfl, -, hleft⟩ := h.written
  rw [PoolFiles.writeAll_append]
  exact hleft

/-- Fewer than all of them leave the pool as it was. -/
theorem pool_writeAll_take (h : Gated files required left writes) {count : ℕ}
    (hcount : count < writes.length) : (files.writeAll (writes.take count)).pool = files.pool := by
  obtain ⟨updates, new, rfl, hsession, -⟩ := h.written
  have hlength : count ≤ updates.length := by
    rw [List.length_append, List.length_singleton] at hcount
    omega
  rw [List.take_append_of_le_length hlength]
  apply PoolFiles.writeAll_pool
  intro write hmem
  exact hsession write (List.mem_of_mem_take hmem)

end Gated

end Hearth.Criu
