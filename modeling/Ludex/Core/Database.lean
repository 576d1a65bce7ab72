import Ludex.Lib.Sql
import Ludex.Core.Types

/-!
# The database and its schema

`Tables` are the rows of the two tables the session path writes, with the `AUTOINCREMENT` counters
and the ids of the `groups` table. `Database` is a set of tables that satisfies the schema: the
`CHECK` constraints and column types (`Tables.Checks`), the primary keys, the
`UNIQUE (launcher_type, launcher_id)` constraint and the partial unique index `idx_sessions_open`
(`Tables.Uniques`), and the foreign keys (`Tables.ForeignKeys`).

A statement computes new tables from the old ones, and `Database.write` checks them against the
schema before they become the database: a statement that violates a constraint is an error and
changes nothing. So every `Database` satisfies the schema, and the facts the schema promises
(`Database.session_unique`, `Database.open_unique`, `Database.key_unique`) hold of every state
without an invariant proof.
-/

namespace Ludex

/-! ### Column and table constraints -/

/-- The types and `CHECK` constraints of a row of `applications`. -/
def Application.Checks (a : Application) : Prop :=
  Sql.FitsInteger a.id ∧ 0 ≤ a.statRunCount ∧ Sql.FitsInteger a.statRunCount ∧
    0 ≤ a.statTotalFull ∧ Sql.FitsInteger a.statTotalFull ∧
    0 ≤ a.statTotalInteractive ∧ a.statTotalInteractive ≤ a.statTotalFull ∧
    0 ≤ a.statLongestFull ∧ Sql.FitsInteger a.statLongestFull

instance (a : Application) : Decidable a.Checks :=
  inferInstanceAs (Decidable (_ ∧ _))

/-- The types and `CHECK` constraints of a row of `sessions`. -/
def Session.Checks (s : Session) : Prop :=
  Sql.FitsInteger s.id ∧ 0 ≤ s.fullRuntimeSeconds ∧ Sql.FitsInteger s.fullRuntimeSeconds ∧
    0 ≤ s.interactiveRuntimeSeconds ∧ s.interactiveRuntimeSeconds ≤ s.fullRuntimeSeconds

instance (s : Session) : Decidable s.Checks :=
  inferInstanceAs (Decidable (_ ∧ _))

/-- The rows of the database. -/
structure Tables where
  applications : List Application
  sessions : List Session
  /-- The ids of the `groups` table. -/
  groups : List ℤ
  /-- `sqlite_sequence` of `applications`. -/
  applicationSeq : ℤ
  /-- `sqlite_sequence` of `sessions`. -/
  sessionSeq : ℤ
deriving DecidableEq

namespace Tables

/-- The open sessions. -/
def openSessions (t : Tables) : List Session := t.sessions.filter Session.isOpen

/-- Every row passes its own checks. -/
def Checks (t : Tables) : Prop :=
  (∀ a ∈ t.applications, a.Checks) ∧ ∀ s ∈ t.sessions, s.Checks

instance (t : Tables) : Decidable t.Checks :=
  inferInstanceAs (Decidable (_ ∧ _))

/-- The primary keys, `UNIQUE (launcher_type, launcher_id)` and `idx_sessions_open`. -/
def Uniques (t : Tables) : Prop :=
  (t.applications.map Application.id).Nodup ∧ (t.sessions.map Session.id).Nodup ∧
    (t.applications.map Application.key).Nodup ∧
    (t.openSessions.map Session.applicationId).Nodup

instance (t : Tables) : Decidable t.Uniques :=
  inferInstanceAs (Decidable (_ ∧ _))

/-- `sessions.application_id REFERENCES applications(id)` and
`applications.group_id REFERENCES groups(id)`. -/
def ForeignKeys (t : Tables) : Prop :=
  (∀ s ∈ t.sessions, s.applicationId ∈ t.applications.map Application.id) ∧
    ∀ a ∈ t.applications, ∀ g ∈ a.groupId, g ∈ t.groups

instance (t : Tables) : Decidable t.ForeignKeys :=
  inferInstanceAs (Decidable (_ ∧ _))

end Tables

/-- A database: tables that satisfy the schema. -/
structure Database extends Tables where
  checks : toTables.Checks
  uniques : toTables.Uniques
  foreignKeys : toTables.ForeignKeys

namespace Database

/-- The database after the migrations: no application, no session, the twelve seeded groups. -/
def empty : Database where
  applications := []
  sessions := []
  groups := [1, 2, 3, 4, 5, 6, 7, 8, 9, 10, 11, 12]
  applicationSeq := 0
  sessionSeq := 0
  checks := by decide
  uniques := by decide
  foreignKeys := by decide

/-- Run a statement that turns the tables into `t`. The row checks come first, then the uniqueness
of keys, then the foreign keys at the end of the statement. -/
def write (t : Tables) : Except SqlError Database :=
  if hc : t.Checks then
    if hu : t.Uniques then
      if hf : t.ForeignKeys then .ok ⟨t, hc, hu, hf⟩
      else .error .foreignKey
    else .error .unique
  else .error .check

/-- A statement that succeeds has made its tables the database. -/
theorem write_ok {t : Tables} {d : Database} (h : write t = .ok d) : d.toTables = t := by
  unfold write at h
  split at h
  · split at h
    · split at h
      · obtain rfl := Except.ok.inj h
        rfl
      · exact absurd h (by simp)
    · exact absurd h (by simp)
  · exact absurd h (by simp)

/-- A statement fails on uniqueness only if two rows share a key. -/
theorem not_uniques_of_write {t : Tables} (h : write t = .error .unique) : ¬ t.Uniques := by
  intro hu
  unfold write at h
  split at h
  · split at h <;> exact absurd h (by simp)
  · exact absurd h (by simp)

variable (d : Database)

theorem session_ids_nodup : (d.sessions.map Session.id).Nodup := d.uniques.2.1

theorem application_ids_nodup : (d.applications.map Application.id).Nodup := d.uniques.1

/-- Two session rows with one id are the same row. -/
theorem session_unique {s s' : Session} (hs : s ∈ d.sessions) (hs' : s' ∈ d.sessions)
    (h : s.id = s'.id) : s = s' :=
  Sql.eq_of_key_eq d.session_ids_nodup hs hs' h

/-- Two application rows with one id are the same row. -/
theorem application_unique {a a' : Application} (ha : a ∈ d.applications)
    (ha' : a' ∈ d.applications) (h : a.id = a'.id) : a = a' :=
  Sql.eq_of_key_eq d.application_ids_nodup ha ha' h

/-- Two application rows with one launcher key are the same row. -/
theorem key_unique {a a' : Application} (ha : a ∈ d.applications) (ha' : a' ∈ d.applications)
    (h : a.key = a'.key) : a = a' :=
  Sql.eq_of_key_eq d.uniques.2.2.1 ha ha' h

/-- An application has at most one open session. -/
theorem open_unique {s s' : Session} (hs : s ∈ d.sessions) (hs' : s' ∈ d.sessions)
    (ho : s.isOpen = true) (ho' : s'.isOpen = true) (h : s.applicationId = s'.applicationId) :
    s = s' :=
  Sql.eq_of_key_eq d.uniques.2.2.2 (List.mem_filter.mpr ⟨hs, ho⟩) (List.mem_filter.mpr ⟨hs', ho'⟩) h

/-- Every session is owned by an application row. -/
theorem exists_owner {s : Session} (hs : s ∈ d.sessions) :
    ∃ a ∈ d.applications, a.id = s.applicationId :=
  List.mem_map.mp (d.foreignKeys.1 s hs)

end Database

/-! ### Sequences of statements -/

/-- A computation that succeeds is a first part that succeeds and a rest that does. -/
theorem Except.bind_eq_ok {ε α β : Type} {x : Except ε α} {f : α → Except ε β} {b : β} :
    (x >>= f) = .ok b ↔ ∃ a, x = .ok a ∧ f a = .ok b := by
  cases x with
  | error e => simp [bind, Except.bind]
  | ok a => simp [bind, Except.bind]

theorem Except.map_eq_ok {ε α β : Type} {x : Except ε α} {f : α → β} {b : β} :
    x.map f = .ok b ↔ ∃ a, x = .ok a ∧ f a = b := by
  cases x with
  | error e => simp [Except.map]
  | ok a => simp [Except.map]

/-- A loop of statements, followed on the part of the state that one turn is known on. -/
theorem Except.foldlM_ok {ε σ τ ι : Type} {step : σ → ι → Except ε σ} (read : σ → τ)
    (act : τ → ι → τ) (hstep : ∀ s i s', step s i = .ok s' → read s' = act (read s) i)
    {is : List ι} {s s' : σ} (h : is.foldlM step s = .ok s') : read s' = is.foldl act (read s) := by
  induction is generalizing s with
  | nil =>
    obtain rfl := Except.ok.inj h
    rfl
  | cons i is ih =>
    rw [List.foldlM_cons] at h
    obtain ⟨s₁, h₁, h⟩ := Except.bind_eq_ok.mp h
    rw [List.foldl_cons, ih h, hstep s i s₁ h₁]

/-- A statement inside a repository method: `?` turns its error into the crate's. -/
def Database.execute (t : Tables) : Except Error Database :=
  (Database.write t).mapError .sql

theorem Database.execute_ok {t : Tables} {d : Database} (h : Database.execute t = .ok d) :
    d.toTables = t := by
  unfold Database.execute at h
  cases hw : Database.write t with
  | error e => simp [hw, Except.mapError] at h
  | ok d' =>
    simp only [hw, Except.mapError, Except.ok.injEq] at h
    exact h ▸ Database.write_ok hw

/-- A database is its tables. -/
theorem Database.ext_tables {d d' : Database} (h : d.toTables = d'.toTables) : d = d' := by
  obtain ⟨t, _, _, _⟩ := d
  obtain ⟨t', _, _, _⟩ := d'
  obtain rfl : t = t' := h
  rfl

/-- A statement that leaves the tables as they are is accepted. -/
theorem Database.execute_self (d : Database) : Database.execute d.toTables = .ok d := by
  unfold Database.execute Database.write
  rw [dif_pos d.checks, dif_pos d.uniques, dif_pos d.foreignKeys]
  rfl

/-- A statement is accepted exactly if a database has the tables it makes. -/
theorem Database.execute_ok_iff {t : Tables} {d : Database} :
    Database.execute t = .ok d ↔ d.toTables = t := by
  refine ⟨Database.execute_ok, ?_⟩
  rintro rfl
  exact Database.execute_self d

end Ludex
