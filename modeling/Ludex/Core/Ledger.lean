import Ludex.Core.RepoRun
import Ludex.Lib.Views

/-!
# The ledger

A row of `applications` holds two kinds of columns: those that say what the application is, and the
account of its play. The account is the id, the launcher key, the timestamps and the statistics.
`Tables.SameLedger` relates two databases with the same sessions and the same accounts, whatever their
applications are called.

The repository calls of the session path do not read the other columns: from two such databases a call
has the same outcome, and leaves two such databases (`Op.run_agree`). What a merge fills in is the only
thing it takes from them, and it takes it from one of them to another.
-/

namespace Ludex

open ApplicationRepo SessionRepo

/-! ### Accounts -/

/-- The columns of an application that the session path reads. -/
structure Account where
  id : ℤ
  key : GameKey
  firstSeenAt : OffsetDateTime
  lastPlayedAt : Option OffsetDateTime
  statRunCount : ℤ
  statTotalFull : ℤ
  statTotalInteractive : ℤ
  statLongestFull : ℤ

/-- The types and `CHECK` constraints are about the account. -/
def Account.Checks (c : Account) : Prop :=
  Sql.FitsInteger c.id ∧ 0 ≤ c.statRunCount ∧ Sql.FitsInteger c.statRunCount ∧
    0 ≤ c.statTotalFull ∧ Sql.FitsInteger c.statTotalFull ∧
    0 ≤ c.statTotalInteractive ∧ c.statTotalInteractive ≤ c.statTotalFull ∧
    0 ≤ c.statLongestFull ∧ Sql.FitsInteger c.statLongestFull

/-- The account of an application. -/
def Application.account (a : Application) : Account where
  id := a.id
  key := a.key
  firstSeenAt := a.firstSeenAt
  lastPlayedAt := a.lastPlayedAt
  statRunCount := a.statRunCount
  statTotalFull := a.statTotalFull
  statTotalInteractive := a.statTotalInteractive
  statLongestFull := a.statLongestFull

section Account

variable {a b : Application}

theorem account_id (h : a.account = b.account) : a.id = b.id := congrArg Account.id h

theorem account_key (h : a.account = b.account) : a.key = b.key := congrArg Account.key h

theorem account_rollup (snapshot : RuntimeSnapshot) (h : a.account = b.account) :
    (rollup snapshot a).account = (rollup snapshot b).account := by
  obtain ⟨h_id, h_key, h_first, -, h_count, h_full, h_interactive, h_longest⟩ := Account.mk.inj h
  show Account.mk a.id a.key _ _ _ _ _ _ = Account.mk b.id b.key _ _ _ _ _ _
  simp only [rollup, h_id, h_key, h_first, h_count, h_full, h_interactive, h_longest]

theorem account_recompute (sessions : List Session) (h : a.account = b.account) :
    (recompute sessions a).account = (recompute sessions b).account := by
  obtain ⟨h_id, h_key, h_first, -, -, -, -, -⟩ := Account.mk.inj h
  show Account.mk a.id a.key _ _ _ _ _ _ = Account.mk b.id b.key _ _ _ _ _ _
  simp only [recompute, h_id, h_key, h_first]

theorem account_mergeStats {src src' : Application} (h_src : src.account = src'.account)
    (h : a.account = b.account) : (mergeStats src a).account = (mergeStats src' b).account := by
  obtain ⟨-, -, h_first, h_last, h_count, h_full, h_interactive, h_longest⟩ := Account.mk.inj h_src
  obtain ⟨h_id', h_key', h_first', h_last', h_count', h_full', h_interactive', h_longest'⟩ :=
    Account.mk.inj h
  show Account.mk a.id a.key _ _ _ _ _ _ = Account.mk b.id b.key _ _ _ _ _ _
  simp only [mergeStats, h_first, h_last, h_count, h_full, h_interactive, h_longest, h_id', h_key',
    h_first', h_last', h_count', h_full', h_interactive', h_longest']

/-- Filling in metadata leaves the account alone. -/
@[simp] theorem account_applyMetadataFill (src a : Application) :
    (applyMetadataFill src a).account = a.account := rfl

end Account

/-! ### Two databases with one ledger -/

/-- The tables agree on the sessions and on the accounts of the applications. -/
structure Tables.SameLedger (t u : Tables) : Prop where
  accounts : t.applications.map Application.account = u.applications.map Application.account
  sessions : t.sessions = u.sessions
  groups : t.groups = u.groups
  applicationSeq : t.applicationSeq = u.applicationSeq
  sessionSeq : t.sessionSeq = u.sessionSeq

/-- The groups of all applications exist. -/
def Tables.GroupsKnown (t : Tables) : Prop := ∀ a ∈ t.applications, ∀ g ∈ a.groupId, g ∈ t.groups

namespace Tables.SameLedger

variable {t u : Tables}

theorem refl (t : Tables) : t.SameLedger t := ⟨rfl, rfl, rfl, rfl, rfl⟩

theorem symm (h : t.SameLedger u) : u.SameLedger t :=
  ⟨h.accounts.symm, h.sessions.symm, h.groups.symm, h.applicationSeq.symm, h.sessionSeq.symm⟩

theorem trans {v : Tables} (h : t.SameLedger u) (h' : u.SameLedger v) : t.SameLedger v :=
  ⟨h.accounts.trans h'.accounts, h.sessions.trans h'.sessions, h.groups.trans h'.groups,
    h.applicationSeq.trans h'.applicationSeq, h.sessionSeq.trans h'.sessionSeq⟩

/-- A column of the account is the same column. -/
theorem column {β : Type} (h : t.SameLedger u) (g : Account → β) :
    t.applications.map (fun a => g a.account) = u.applications.map fun a => g a.account := by
  have h_map := congrArg (List.map g) h.accounts
  rwa [List.map_map, List.map_map] at h_map

theorem ids (h : t.SameLedger u) :
    t.applications.map Application.id = u.applications.map Application.id := h.column Account.id

theorem keys (h : t.SameLedger u) :
    t.applications.map Application.key = u.applications.map Application.key := h.column Account.key

theorem checks (h : t.SameLedger u) : t.Checks ↔ u.Checks := by
  have h_rows : ∀ rows : List Application,
      (∀ a ∈ rows, a.Checks) ↔ ∀ c ∈ rows.map Application.account, c.Checks := by
    intro rows
    rw [List.forall_mem_map]
    rfl
  unfold Tables.Checks
  rw [h_rows, h_rows, h.accounts, h.sessions]

theorem uniques (h : t.SameLedger u) : t.Uniques ↔ u.Uniques := by
  unfold Tables.Uniques Tables.openSessions
  rw [h.ids, h.keys, h.sessions]

theorem foreignKeys (h : t.SameLedger u) (h_groups : t.GroupsKnown ↔ u.GroupsKnown) :
    t.ForeignKeys ↔ u.ForeignKeys := by
  refine and_congr ?_ h_groups
  rw [h.ids, h.sessions]

/-- An update of rows that goes by their accounts. -/
theorem updateWhere {rows rows' : List Application}
    (h : rows.map Application.account = rows'.map Application.account) (id : ℤ)
    {f g : Application → Application}
    (h_fg : ∀ a b : Application, a.account = b.account → (f a).account = (g b).account) :
    (Sql.updateWhere (fun a => a.id = id) f rows).map Application.account =
      (Sql.updateWhere (fun a => a.id = id) g rows').map Application.account := by
  refine Sql.map_updateWhere_congr (fun a b h_ab => ?_) h_fg h
  rw [account_id h_ab]

end Tables.SameLedger

namespace Database

/-- Two databases with the same ledger. -/
def SameLedger (d e : Database) : Prop := d.toTables.SameLedger e.toTables

variable {d e : Database} {t u : Tables}

/-- **A statement that goes by the ledger** has the same outcome on both. -/
theorem write_agree (h : t.SameLedger u) (h_groups : t.GroupsKnown ↔ u.GroupsKnown) :
    Except.Agree SameLedger (write t) (write u) := by
  unfold write
  -- the three checks read nothing but what the two tables have in common
  by_cases h_checks : t.Checks
  · rw [dif_pos h_checks, dif_pos (h.checks.mp h_checks)]
    by_cases h_uniques : t.Uniques
    · rw [dif_pos h_uniques, dif_pos (h.uniques.mp h_uniques)]
      by_cases h_foreign : t.ForeignKeys
      · rw [dif_pos h_foreign, dif_pos ((h.foreignKeys h_groups).mp h_foreign)]
        exact .ok h
      · rw [dif_neg h_foreign, dif_neg (mt (h.foreignKeys h_groups).mpr h_foreign)]
        exact .error _
    · rw [dif_neg h_uniques, dif_neg (mt h.uniques.mpr h_uniques)]
      exact .error _
  · rw [dif_neg h_checks, dif_neg (mt h.checks.mpr h_checks)]
    exact .error _

theorem execute_agree (h : t.SameLedger u) (h_groups : t.GroupsKnown ↔ u.GroupsKnown) :
    Except.Agree SameLedger (execute t) (execute u) :=
  (write_agree h h_groups).mapError _

/-- **A statement on the sessions** has the same outcome on both. -/
theorem execute_sessions (h : d.SameLedger e) (f : List Session → List Session) :
    Except.Agree SameLedger (execute { d.toTables with sessions := f d.sessions })
      (execute { e.toTables with sessions := f e.sessions }) := by
  refine execute_agree ⟨h.accounts, ?_, h.groups, h.applicationSeq, h.sessionSeq⟩
    (iff_of_true d.foreignKeys.2 e.foreignKeys.2)
  show f d.sessions = f e.sessions
  rw [h.sessions]

/-- **An update of one application** has the same outcome on both, if it goes by the account and keeps
the groups known. -/
theorem execute_application (h : d.SameLedger e) (id : ℤ) {f g : Application → Application}
    (h_fg : ∀ a b : Application, a.account = b.account → (f a).account = (g b).account)
    (h_f : ∀ a ∈ d.applications, ∀ x ∈ (f a).groupId, x ∈ d.groups)
    (h_g : ∀ a ∈ e.applications, ∀ x ∈ (g a).groupId, x ∈ e.groups) :
    Except.Agree SameLedger
      (execute { d.toTables with
        applications := Sql.updateWhere (fun a => a.id = id) f d.applications })
      (execute { e.toTables with
        applications := Sql.updateWhere (fun a => a.id = id) g e.applications }) := by
  refine execute_agree
    ⟨Tables.SameLedger.updateWhere h.accounts id h_fg, h.sessions, h.groups, h.applicationSeq,
      h.sessionSeq⟩ (iff_of_true ?_ ?_)
  · exact Sql.forall_mem_updateWhere d.foreignKeys.2 fun a ha _ => h_f a ha
  · exact Sql.forall_mem_updateWhere e.foreignKeys.2 fun a ha _ => h_g a ha

end Database

/-! ### The calls -/

section Calls

variable {d e : Database}

theorem create_agree (h : d.SameLedger e) (new : NewApplication) :
    Except.Agree (fun x y => x.2.SameLedger y.2) (create d new) (create e new) := by
  have h_id : Sql.newRowid d.applicationSeq (d.applications.map Application.id) =
      Sql.newRowid e.applicationSeq (e.applications.map Application.id) := by
    rw [h.applicationSeq, h.ids]
  unfold create
  simp only [h_id]
  refine (Database.execute_agree ?_ ?_).bind fun d' e' _ _ h' => .ok h'
  · refine ⟨?_, h.sessions, h.groups, rfl, h.sessionSeq⟩
    rw [List.map_append, List.map_append, h.accounts]
  -- the new row is the only one whose group may be unknown
  · unfold Tables.GroupsKnown
    rw [List.forall_mem_append, List.forall_mem_append, h.groups]
    refine and_congr_left' (iff_of_true ?_ e.foreignKeys.2)
    rw [← h.groups]
    exact d.foreignKeys.2

theorem begin_agree (h : d.SameLedger e) (aid : ℤ) (startedAt : OffsetDateTime) :
    Except.Agree (fun x y => x.2.SameLedger y.2) (SessionRepo.begin d aid startedAt)
      (SessionRepo.begin e aid startedAt) := by
  -- the row that is inserted is the same, since it is made of columns both have
  have h_row : (insertOpen d aid startedAt).1 = (insertOpen e aid startedAt).1 := by
    unfold insertOpen
    rw [h.sessionSeq, h.sessions]
  -- the two writes succeed or fail together
  have h_write : Except.Agree Database.SameLedger (Database.write (insertOpen d aid startedAt).2)
      (Database.write (insertOpen e aid startedAt).2) := by
    refine Database.write_agree ⟨h.accounts, ?_, h.groups, h.applicationSeq, ?_⟩
      (iff_of_true d.foreignKeys.2 e.foreignKeys.2)
    · unfold insertOpen
      simp only [h.sessionSeq, h.sessions]
    · unfold insertOpen
      simp only [h.sessionSeq, h.sessions]
  unfold SessionRepo.begin
  simp only
  cases h_d : Database.write (insertOpen d aid startedAt).2 with
  | ok d' =>
    obtain ⟨e', h_e, h'⟩ := h_write.of_ok h_d
    rw [h_e]
    exact .ok h'
  | error err =>
    rw [h_d] at h_write
    cases h_e : Database.write (insertOpen e aid startedAt).2 with
    | ok e' =>
      rw [h_e] at h_write
      exact nomatch h_write
    | error err' =>
      rw [h_e] at h_write
      cases h_write
      cases err <;> exact .error _

theorem heartbeat_agree (h : d.SameLedger e) (sid : ℤ) (snapshot : RuntimeSnapshot) :
    Except.Agree Database.SameLedger (heartbeat d sid snapshot) (heartbeat e sid snapshot) :=
  Database.execute_sessions h _

theorem closeAndRollup_agree (h : d.SameLedger e) (sid aid : ℤ) (snapshot : RuntimeSnapshot)
    (reason : ExitReason) :
    Except.Agree Database.SameLedger (closeAndRollup d sid aid snapshot reason)
      (closeAndRollup e sid aid snapshot reason) := by
  unfold closeAndRollup
  refine (Database.execute_sessions h _).bind fun d' e' _ _ h' => ?_
  rw [h.sessions]
  split
  · exact .ok h
  · exact Database.execute_application h' aid (fun a b => account_rollup snapshot)
      (fun a ha => d'.foreignKeys.2 a ha) fun a ha => e'.foreignKeys.2 a ha

theorem resolveOwners_congr (h : d.sessions = e.sessions) (ids : List ℤ) :
    resolveOwners d ids = resolveOwners e ids := by
  induction ids with
  | nil => rfl
  | cons id ids ih =>
    unfold resolveOwners
    rw [h, ih]

theorem delete_agree (h : d.SameLedger e) (ids : List ℤ) :
    Except.Agree (fun x y => x.2.SameLedger y.2) (deleteSessionsAndRecompute d ids)
      (deleteSessionsAndRecompute e ids) := by
  unfold deleteSessionsAndRecompute
  -- the owners are read off the sessions, which are the same
  rw [resolveOwners_congr h.sessions ids]
  split
  · exact .ok h
  split
  · exact .error _
  · exact .ok h
  · -- the deletes one by one, then the recomputation of the owners
    refine (Except.Agree.foldlM (R := Database.SameLedger) (fun id d e h' => ?_) ids h).bind
      fun d₁ e₁ _ _ h₁ => ?_
    · exact Database.execute_sessions h' _
    refine (Except.Agree.foldlM (R := Database.SameLedger) (fun id d e h' => ?_) _ h₁).bind
      fun d₂ e₂ _ _ h₂ => .ok h₂
    -- the aggregates are computed from the sessions alone
    unfold recomputeApplication
    rw [h'.sessions]
    exact Database.execute_application h' id (fun a b => account_recompute e.sessions)
      (fun a ha => d.foreignKeys.2 a ha) fun a ha => e.foreignKeys.2 a ha

/-- A lookup finds rows with one account, or none. -/
theorem findById_account (h : d.SameLedger e) (id : ℤ) :
    (findById d id).map Application.account = (findById e id).map Application.account := by
  have h_find : ∀ rows : List Application,
      (rows.find? fun a => a.id = id).map Application.account =
        (rows.map Application.account).find? fun c => c.id = id := by
    intro rows
    rw [List.find?_map]
    rfl
  unfold findById
  rw [h_find, h_find, h.accounts]

/-- The group of a filled row is that of one of the two. -/
theorem groupId_applyMetadataFill {src a : Application} {groups : List ℤ}
    (h_src : ∀ g ∈ src.groupId, g ∈ groups) (h : ∀ g ∈ a.groupId, g ∈ groups) :
    ∀ g ∈ (applyMetadataFill src a).groupId, g ∈ groups := by
  intro g hg
  rcases Option.or_eq_some_iff.mp hg with hg | ⟨-, hg⟩
  · exact h g hg
  · exact h_src g hg

theorem mergeRows_agree (h : d.SameLedger e) {src src' : Application}
    (h_src : src.account = src'.account) (h_d : ∀ g ∈ src.groupId, g ∈ d.groups)
    (h_e : ∀ g ∈ src'.groupId, g ∈ e.groups) (dstId : ℤ) :
    Except.Agree Database.SameLedger (mergeRows d src dstId) (mergeRows e src' dstId) := by
  unfold mergeRows
  rw [← account_id h_src]
  refine (Database.execute_sessions h _).bind fun d₁ e₁ h_d₁ h_e₁ h₁ => ?_
  refine (Database.execute_application h₁ dstId (fun a b => account_mergeStats h_src)
    (fun a ha => d₁.foreignKeys.2 a ha) fun a ha => e₁.foreignKeys.2 a ha).bind
    fun d₂ e₂ h_d₂ h_e₂ h₂ => ?_
  -- no statement touches the groups
  have h_groups_d : d₂.groups = d.groups := by
    rw [Database.execute_ok h_d₂, Database.execute_ok h_d₁]
  have h_groups_e : e₂.groups = e.groups := by
    rw [Database.execute_ok h_e₂, Database.execute_ok h_e₁]
  refine (Database.execute_application h₂ dstId (f := applyMetadataFill src)
    (g := applyMetadataFill src') (fun a b h_ab => h_ab) ?_ ?_).bind fun d₃ e₃ _ _ h₃ => ?_
  · intro a ha
    exact groupId_applyMetadataFill (by rwa [h_groups_d]) (d₂.foreignKeys.2 a ha)
  · intro a ha
    exact groupId_applyMetadataFill (by rwa [h_groups_e]) (e₂.foreignKeys.2 a ha)
  refine Database.execute_agree ⟨?_, ?_, h₃.groups, h₃.applicationSeq, h₃.sessionSeq⟩
    (iff_of_true ?_ ?_)
  · exact Sql.map_deleteWhere_congr (fun a b h_ab => by rw [account_id h_ab]) h₃.accounts
  · show Sql.deleteWhere _ d₃.sessions = Sql.deleteWhere _ e₃.sessions
    rw [h₃.sessions]
  · exact fun a ha => d₃.foreignKeys.2 a (List.mem_of_mem_filter ha)
  · exact fun a ha => e₃.foreignKeys.2 a (List.mem_of_mem_filter ha)

theorem mergeInto_agree (h : d.SameLedger e) (srcId dstId : ℤ) :
    Except.Agree Database.SameLedger (mergeInto d srcId dstId) (mergeInto e srcId dstId) := by
  -- the two applications of the merge are found in both or in neither
  have h_src := findById_account h srcId
  have h_dst := congrArg Option.isNone (findById_account h dstId)
  rw [Option.isNone_map, Option.isNone_map] at h_dst
  unfold mergeInto
  split
  · exact .error _
  cases h_d : findById d srcId with
  | none =>
    rw [h_d] at h_src
    rw [Option.map_eq_none_iff.mp h_src.symm]
    exact .error _
  | some src =>
    rw [h_d] at h_src
    obtain ⟨src', h_e, h_account⟩ := Option.map_eq_some_iff.mp h_src.symm
    simp only [h_e, h_dst]
    split
    · exact .error _
    · -- all the merge reads of the source is its account
      exact mergeRows_agree h h_account.symm (d.foreignKeys.2 src (findById_some h_d).1)
        (e.foreignKeys.2 src' (findById_some h_e).1) dstId

/-- **A repository call goes by the ledger**: it has the same outcome on two databases that have the
same one, and leaves two that have the same one. -/
theorem Op.run_agree (h : d.SameLedger e) (op : Op) :
    Except.Agree Database.SameLedger (op.run d) (op.run e) := by
  cases op with
  | create new => exact (create_agree h new).map fun _ _ h' => h'
  | begin aid startedAt => exact (begin_agree h aid startedAt).map fun _ _ h' => h'
  | heartbeat sid snapshot => exact heartbeat_agree h sid snapshot
  | closeAndRollup sid aid snapshot reason => exact closeAndRollup_agree h sid aid snapshot reason
  | deleteSessionsAndRecompute ids => exact (delete_agree h ids).map fun _ _ h' => h'
  | mergeInto srcId dstId => exact mergeInto_agree h srcId dstId

end Calls

end Ludex
