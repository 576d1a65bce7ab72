import Ludex.Core.ApplicationRepo
import Ludex.Core.SessionRepo

/-!
# Open rows

What a writer that opens and closes sessions has to know of the database: which session rows are
open and for which application (`Database.openRows`), and which key an application row has
(`Database.keyRows`). For each repository call that such a writer makes, one lemma says what it does
to the two: a creation adds a key, `begin` adds an open row, a heartbeat changes nothing, and a close
takes one open row away. `begin` refuses with `OpenSessionExists` exactly an application that has an
open row (`begin_refused`, `begin_of_open`).
-/

namespace Ludex

namespace Database

/-- The open session rows, each with its application. -/
def openRows (d : Database) : List (ℤ × ℤ) := d.openSessions.map fun s => (s.id, s.applicationId)

/-- The application rows, each with its key. -/
def keyRows (d : Database) : List (ℤ × GameKey) := d.applications.map fun a => (a.id, a.key)

variable {d : Database} {sid sid' aid aid' : ℤ} {key key' : GameKey}

theorem mem_openRows :
    (sid, aid) ∈ d.openRows ↔
      ∃ s ∈ d.sessions, s.isOpen = true ∧ s.id = sid ∧ s.applicationId = aid := by
  unfold openRows Tables.openSessions
  simp only [List.mem_map, List.mem_filter, Prod.mk.injEq, and_assoc]

theorem mem_keyRows : (aid, key) ∈ d.keyRows ↔ ∃ a ∈ d.applications, a.id = aid ∧ a.key = key := by
  unfold keyRows
  simp only [List.mem_map, Prod.mk.injEq]

/-- A session belongs to one application. -/
theorem openRows_application (h : (sid, aid) ∈ d.openRows) (h' : (sid, aid') ∈ d.openRows) :
    aid = aid' := by
  obtain ⟨s, hs, -, h_id, rfl⟩ := mem_openRows.mp h
  obtain ⟨s', hs', -, h_id', rfl⟩ := mem_openRows.mp h'
  rw [d.session_unique hs hs' (h_id.trans h_id'.symm)]

/-- An application has one open session. -/
theorem openRows_session (h : (sid, aid) ∈ d.openRows) (h' : (sid', aid) ∈ d.openRows) :
    sid = sid' := by
  obtain ⟨s, hs, h_open, rfl, h_app⟩ := mem_openRows.mp h
  obtain ⟨s', hs', h_open', rfl, h_app'⟩ := mem_openRows.mp h'
  rw [d.open_unique hs hs' h_open h_open' (h_app.trans h_app'.symm)]

/-- An application has one key. -/
theorem keyRows_key (h : (aid, key) ∈ d.keyRows) (h' : (aid, key') ∈ d.keyRows) : key = key' := by
  obtain ⟨a, ha, h_id, rfl⟩ := mem_keyRows.mp h
  obtain ⟨a', ha', h_id', rfl⟩ := mem_keyRows.mp h'
  rw [d.application_unique ha ha' (h_id.trans h_id'.symm)]

/-- A key has one application. -/
theorem keyRows_application (h : (aid, key) ∈ d.keyRows) (h' : (aid', key) ∈ d.keyRows) :
    aid = aid' := by
  obtain ⟨a, ha, rfl, h_key⟩ := mem_keyRows.mp h
  obtain ⟨a', ha', rfl, h_key'⟩ := mem_keyRows.mp h'
  rw [d.key_unique ha ha' (h_key.trans h_key'.symm)]

end Database

/-! ### What the calls do to them -/

section Calls

open ApplicationRepo SessionRepo

variable {d d' : Database}

theorem create_rows {new : NewApplication} {a : Application} (h : create d new = .ok (a, d')) :
    d'.openRows = d.openRows ∧ d'.keyRows = d.keyRows ++ [(a.id, a.key)] ∧
      a.key = ⟨new.launcherType, new.launcherId⟩ := by
  obtain ⟨h_row, h_tables⟩ := create_ok h
  have h_sessions : d'.sessions = d.sessions := by rw [h_tables]
  have h_apps : d'.applications = d.applications ++ [a] := by rw [h_tables]
  -- a creation opens nothing
  refine ⟨?_, ?_, ?_⟩
  · unfold Database.openRows Tables.openSessions
    rw [h_sessions]
  · unfold Database.keyRows
    rw [h_apps, List.map_append]
    rfl
  · rw [h_row]
    rfl

theorem begin_rows {aid : ℤ} {startedAt : OffsetDateTime} {row : Session}
    (h : begin d aid startedAt = .ok (row, d')) :
    d'.openRows = d.openRows ++ [(row.id, aid)] ∧ d'.keyRows = d.keyRows ∧
      row.id ∉ d.sessions.map Session.id := by
  obtain ⟨h_row, h_tables⟩ := begin_ok h
  have h_sessions : d'.sessions = d.sessions ++ [row] := by rw [h_tables]
  have h_apps : d'.applications = d.applications := by rw [h_tables]
  have h_open : row.isOpen = true := by
    rw [h_row]
    rfl
  have h_app : row.applicationId = aid := by
    rw [h_row]
    rfl
  refine ⟨?_, ?_, ?_⟩
  · -- the new row is open and of the application
    unfold Database.openRows Tables.openSessions
    rw [h_sessions, List.filter_append, List.map_append, List.filter_cons_of_pos h_open, ← h_app]
    rfl
  · unfold Database.keyRows
    rw [h_apps]
  · rw [h_row]
    exact Sql.newRowid_notMem _ _

/-- `OpenSessionExists` means what it says. -/
theorem begin_refused {aid aid' : ℤ} {startedAt : OffsetDateTime}
    (h : begin d aid startedAt = .error (.openSessionExists aid')) :
    aid' = aid ∧ ∃ sid, (sid, aid) ∈ d.openRows := by
  unfold begin at h
  simp only at h
  split at h
  · exact nomatch h
  next h_write =>
    injection h with h
    injection h with h
    refine ⟨h.symm, ?_⟩
    -- the new id is fresh and no other table changes, so it is the open-session index that failed
    by_contra h_none
    refine Database.not_uniques_of_write h_write ⟨d.uniques.1, ?_, d.uniques.2.2.1, ?_⟩
    · change ((d.sessions ++ [newRow _ aid startedAt]).map Session.id).Nodup
      rw [List.map_append]
      refine List.nodup_append.mpr ⟨d.session_ids_nodup, List.nodup_singleton _, ?_⟩
      intro x hx y hy h_eq
      rw [List.mem_singleton.mp hy] at h_eq
      rw [h_eq] at hx
      exact Sql.newRowid_notMem _ _ hx
    · change (((d.sessions ++ [newRow _ aid startedAt]).filter Session.isOpen).map
        Session.applicationId).Nodup
      rw [List.filter_append, List.map_append]
      refine List.nodup_append.mpr ⟨d.uniques.2.2.2, List.nodup_singleton _, ?_⟩
      intro x hx y hy h_eq
      rw [List.mem_singleton.mp hy] at h_eq
      obtain ⟨s, hs, h_app⟩ := List.mem_map.mp hx
      obtain ⟨hs, h_open⟩ := List.mem_filter.mp hs
      exact h_none ⟨s.id, Database.mem_openRows.mpr ⟨s, hs, h_open, rfl, h_app.trans h_eq⟩⟩
  next h_ne _ =>
    injection h with h
    exact nomatch h

/-- An application with an open row gets no second one. -/
theorem begin_of_open {sid aid : ℤ} (h_open : (sid, aid) ∈ d.openRows) (startedAt : OffsetDateTime) :
    ∃ e, begin d aid startedAt = .error e := by
  cases h : begin d aid startedAt with
  | error e => exact ⟨e, rfl⟩
  | ok x =>
    obtain ⟨row, d'⟩ := x
    obtain ⟨h_rows, -, h_fresh⟩ := begin_rows h
    have h_old : (sid, aid) ∈ d'.openRows := by
      rw [h_rows]
      exact List.mem_append_left _ h_open
    have h_new : (row.id, aid) ∈ d'.openRows := by
      rw [h_rows]
      exact List.mem_append_right _ List.mem_cons_self
    obtain ⟨s, hs, -, rfl, -⟩ := Database.mem_openRows.mp h_open
    -- both rows would be open, so the new one would be the old one, but its id is fresh
    rw [← Database.openRows_session h_old h_new] at h_fresh
    exact absurd (List.mem_map_of_mem hs) h_fresh

theorem heartbeat_rows {sid : ℤ} {snapshot : RuntimeSnapshot}
    (h : heartbeat d sid snapshot = .ok d') :
    d'.openRows = d.openRows ∧ d'.keyRows = d.keyRows := by
  have h_tables := heartbeat_ok h
  -- no other column than the runtimes and the heartbeat changes
  have h_apps : d'.applications = d.applications := by rw [h_tables]
  refine ⟨?_, ?_⟩
  · unfold Database.openRows Tables.openSessions
    rw [h_tables]
    exact Sql.map_filter_updateWhere fun s _ => ⟨rfl, rfl⟩
  · unfold Database.keyRows
    rw [h_apps]

/-- A close that finds no open row takes nothing away. -/
theorem closeAndRollup_rows {sid aid : ℤ} {snapshot : RuntimeSnapshot} {reason : ExitReason}
    (h : closeAndRollup d sid aid snapshot reason = .ok d') :
    d'.openRows = d.openRows.filter (fun row => row.1 ≠ sid) ∧ d'.keyRows = d.keyRows := by
  rcases closeAndRollup_ok h with ⟨h_none, rfl⟩ | ⟨-, h_tables⟩
  · refine ⟨(List.filter_eq_self.mpr ?_).symm, rfl⟩
    rintro ⟨sid', aid'⟩ h_row
    obtain ⟨s, hs, h_open, rfl, -⟩ := Database.mem_openRows.mp h_row
    have h_not := h_none s hs
    rw [isOpenRow, h_open, Bool.and_true] at h_not
    rw [decide_not, h_not]
    rfl
  · have h_sessions : d'.sessions =
        Sql.updateWhere (isOpenRow sid) (closeRow snapshot reason) d.sessions := by rw [h_tables]
    have h_apps : d'.applications =
        Sql.updateWhere (fun a => a.id = aid) (rollup snapshot) d.applications := by rw [h_tables]
    refine ⟨?_, ?_⟩
    · unfold Database.openRows Tables.openSessions
      rw [h_sessions, Sql.filter_updateWhere_out fun s _ => show (closeRow _ _ s).isOpen = false from rfl,
        List.filter_map, List.filter_filter]
      -- a row that stays is an open row with another id
      refine congrArg _ (List.filter_congr fun s _ => ?_)
      unfold isOpenRow
      cases s.isOpen with
      | true => simp
      | false => simp
    · unfold Database.keyRows
      rw [h_apps]
      exact Sql.map_updateWhere fun a _ => rfl

/-- Only closed rows are deleted. -/
theorem deleteSessionsAndRecompute_rows {ids : List ℤ} {deleted : Bool}
    (h : deleteSessionsAndRecompute d ids = .ok (deleted, d')) : d'.openRows = d.openRows := by
  obtain ⟨h_closed, h_tables⟩ := deleteSessionsAndRecompute_ok h
  have h_sessions : d'.sessions = Sql.deleteWhere (fun s => s.id ∈ ids) d.sessions := by
    rw [h_tables]
  unfold Database.openRows Tables.openSessions
  rw [h_sessions, Sql.deleteWhere, List.filter_filter]
  refine congrArg _ (List.filter_congr fun s hs => ?_)
  -- a row that was deleted was closed
  by_cases h_mem : s.id ∈ ids
  · have h_not := h_closed s hs h_mem
    rw [Session.isClosed_eq_not_isOpen, Bool.not_eq_true'] at h_not
    rw [h_not, Bool.false_and]
  · simp [h_mem]

/-- A merge leaves an open row open, for the destination if it was one of the source. -/
theorem mergeInto_rows {srcId dstId sid owner : ℤ} (h : mergeInto d srcId dstId = .ok d')
    (h_open : (sid, owner) ∈ d.openRows) :
    (sid, if owner = srcId then dstId else owner) ∈ d'.openRows := by
  obtain ⟨-, src, -, -, -, h_tables⟩ := mergeInto_ok h
  obtain ⟨s, hs, h_s, rfl, rfl⟩ := Database.mem_openRows.mp h_open
  -- the row goes with its application
  have h_mem : reparentRow srcId dstId s ∈ d'.sessions := by
    rw [h_tables]
    show _ ∈ reparent srcId dstId d.sessions
    rw [reparent_eq_map]
    exact List.mem_map_of_mem hs
  rw [reparentRow_eq] at h_mem
  exact Database.mem_openRows.mpr ⟨_, h_mem, h_s, rfl, rfl⟩

end Calls

end Ludex
