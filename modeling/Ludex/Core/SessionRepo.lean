import Mathlib.Data.List.Dedup
import Ludex.Core.Database

/-!
# `SessionRepo`

The methods of `repo/session.rs` that open, update, close and delete session rows, and the one
that lists the orphans.
-/

namespace Ludex

namespace SessionRepo

/-- The row inserted for a new session: open, with the heartbeat equal to `startedAt`. -/
def newRow (id applicationId : ℤ) (startedAt : OffsetDateTime) : Session where
  id := id
  applicationId := applicationId
  startedAt := startedAt
  endedAt := none
  heartbeatAt := startedAt
  fullRuntimeSeconds := 0
  interactiveRuntimeSeconds := 0
  exitReason := none

/-- The tables with a new open session of `applicationId`. -/
def insertOpen (d : Database) (applicationId : ℤ) (startedAt : OffsetDateTime) : Session × Tables :=
  let id := Sql.newRowid d.sessionSeq (d.sessions.map Session.id)
  let row := newRow id applicationId startedAt
  (row, { d.toTables with sessions := d.sessions ++ [row], sessionSeq := id })

/-- Open a new session for the given application. A uniqueness violation is the open session that
the application already has. -/
def begin (d : Database) (applicationId : ℤ) (startedAt : OffsetDateTime) :
    Except Error (Session × Database) :=
  let (row, tables) := insertOpen d applicationId startedAt
  match Database.write tables with
  | .ok d => .ok (row, d)
  | .error .unique => .error (.openSessionExists applicationId)
  | .error e => .error (.sql e)

/-- `WHERE id = ? AND ended_at IS NULL`. -/
def isOpenRow (sessionId : ℤ) (s : Session) : Bool := s.id = sessionId && s.isOpen

/-- Update the heartbeat and runtime counters of an open session. -/
def heartbeat (d : Database) (sessionId : ℤ) (snapshot : RuntimeSnapshot) : Except Error Database :=
  Database.execute
    { d.toTables with
      sessions := Sql.updateWhere (isOpenRow sessionId)
        (fun s => { s with
          heartbeatAt := snapshot.at_
          fullRuntimeSeconds := snapshot.fullRuntimeSeconds
          interactiveRuntimeSeconds := snapshot.interactiveRuntimeSeconds })
        d.sessions }

/-- Every open session, regardless of heartbeat age. -/
def listAllOrphans (d : Database) : List Session := d.openSessions

/-- The session row after its close. -/
def closeRow (snapshot : RuntimeSnapshot) (reason : ExitReason) (s : Session) : Session :=
  { s with
    endedAt := some snapshot.at_
    heartbeatAt := snapshot.at_
    fullRuntimeSeconds := snapshot.fullRuntimeSeconds
    interactiveRuntimeSeconds := snapshot.interactiveRuntimeSeconds
    exitReason := some reason }

/-- The application row after one of its sessions closed. -/
def rollup (snapshot : RuntimeSnapshot) (a : Application) : Application :=
  { a with
    statRunCount := a.statRunCount + 1
    statTotalFull := a.statTotalFull + snapshot.fullRuntimeSeconds
    statTotalInteractive := a.statTotalInteractive + snapshot.interactiveRuntimeSeconds
    statLongestFull := max a.statLongestFull snapshot.fullRuntimeSeconds
    lastPlayedAt := some snapshot.at_ }

/-- Close a session and roll its runtime into the application's aggregates. -/
def closeAndRollup (d : Database) (sessionId applicationId : ℤ) (snapshot : RuntimeSnapshot)
    (reason : ExitReason) : Except Error Database := do
  let closed ← Database.execute
    { d.toTables with
      sessions := Sql.updateWhere (isOpenRow sessionId) (closeRow snapshot reason) d.sessions }
  -- `rows_affected() == 0`: already closed, so the transaction rolls back empty.
  if d.sessions.countP (isOpenRow sessionId) = 0 then
    return d
  Database.execute
    { closed.toTables with
      applications :=
        Sql.updateWhere (fun a => a.id = applicationId) (rollup snapshot)
          closed.applications }

/-- Resolve the listed ids to the applications that own them: `none` for an id that is an open
session, the owners of the rows found otherwise. -/
def resolveOwners (d : Database) : List ℤ → Option (List ℤ)
  | [] => some []
  | id :: ids =>
    match d.sessions.find? fun s => s.id = id with
    | none => resolveOwners d ids
    | some s => if s.isOpen then none else (resolveOwners d ids).map (s.applicationId :: ·)

/-- `WHERE application_id = ? AND ended_at IS NOT NULL`. -/
def isClosedOf (applicationId : ℤ) (s : Session) : Bool :=
  s.applicationId = applicationId && s.isClosed

/-- The closed sessions of an application. -/
def closedSessions (sessions : List Session) (applicationId : ℤ) : List Session :=
  sessions.filter (isClosedOf applicationId)

/-- The application row with its aggregates rebuilt from its closed sessions. -/
def recompute (sessions : List Session) (a : Application) : Application :=
  let closed := closedSessions sessions a.id
  { a with
    statRunCount := closed.length
    statTotalFull := (Sql.sumAgg (closed.map Session.fullRuntimeSeconds)).getD 0
    statTotalInteractive := (Sql.sumAgg (closed.map Session.interactiveRuntimeSeconds)).getD 0
    statLongestFull := (closed.map Session.fullRuntimeSeconds).max?.getD 0
    lastPlayedAt := Sql.maxAgg OffsetDateTime.textLt (closed.filterMap Session.endedAt) }

/-- Rebuild the aggregates of one application. -/
def recomputeApplication (d : Database) (applicationId : ℤ) : Except Error Database :=
  Database.execute
    { d.toTables with
      applications :=
        Sql.updateWhere (fun a => a.id = applicationId) (recompute d.sessions)
          d.applications }

/-- Delete the given session rows and rebuild the aggregates of the applications that own them.
Returns whether a row was deleted. -/
def deleteSessionsAndRecompute (d : Database) (ids : List ℤ) : Except Error (Bool × Database) := do
  if ids.isEmpty then
    return (false, d)
  match resolveOwners d ids with
  | none => throw (.invariant "cannot delete an open session; stop the game first")
  | some [] => return (false, d)
  | some owners =>
    let deleted ← ids.foldlM
      (fun d id => Database.execute
        { d.toTables with sessions := Sql.deleteWhere (fun s => s.id = id) d.sessions }) d
    let d ← owners.dedup.foldlM recomputeApplication deleted
    return (true, d)

/-! ### What a successful call did -/

section Spec

variable {d d' : Database}

theorem begin_ok {applicationId : ℤ} {startedAt : OffsetDateTime} {row : Session}
    (h : begin d applicationId startedAt = .ok (row, d')) :
    row = newRow (Sql.newRowid d.sessionSeq (d.sessions.map Session.id)) applicationId startedAt ∧
      d'.toTables = { d.toTables with sessions := d.sessions ++ [row], sessionSeq := row.id } := by
  unfold begin at h
  simp only at h
  split at h
  next d₁ h_write =>
    obtain ⟨rfl, rfl⟩ := Prod.mk.inj (Except.ok.inj h)
    exact ⟨rfl, Database.write_ok h_write⟩
  · exact absurd h (by simp)
  · exact absurd h (by simp)

theorem heartbeat_ok {sessionId : ℤ} {snapshot : RuntimeSnapshot}
    (h : heartbeat d sessionId snapshot = .ok d') :
    d'.toTables =
      { d.toTables with
        sessions := Sql.updateWhere (isOpenRow sessionId)
          (fun s => { s with
            heartbeatAt := snapshot.at_
            fullRuntimeSeconds := snapshot.fullRuntimeSeconds
            interactiveRuntimeSeconds := snapshot.interactiveRuntimeSeconds })
          d.sessions } :=
  Database.execute_ok h

/-- **A successful close.** Either no open row has the id and nothing changes, or the row is closed
and the application's aggregates have it added, in one transaction. -/
theorem closeAndRollup_ok {sessionId applicationId : ℤ} {snapshot : RuntimeSnapshot}
    {reason : ExitReason}
    (h : closeAndRollup d sessionId applicationId snapshot reason = .ok d') :
    (∀ s ∈ d.sessions, isOpenRow sessionId s = false) ∧ d' = d ∨
      (∃ s ∈ d.sessions, s.id = sessionId ∧ s.isOpen = true) ∧
        d'.toTables =
          { d.toTables with
            applications := Sql.updateWhere (fun a => a.id = applicationId) (rollup snapshot)
              d.applications
            sessions := Sql.updateWhere (isOpenRow sessionId) (closeRow snapshot reason)
              d.sessions } := by
  obtain ⟨closed, h_closed, h⟩ := Except.bind_eq_ok.mp h
  split at h
  next h_count =>
    -- no row was affected, and the transaction rolled back
    refine Or.inl ⟨fun s hs => ?_, (Except.ok.inj h).symm⟩
    exact Bool.eq_false_iff.mpr (List.countP_eq_zero.mp h_count s hs)
  next h_count =>
    obtain ⟨s, hs, h_open⟩ := List.countP_pos_iff.mp (Nat.pos_of_ne_zero h_count)
    rw [isOpenRow, Bool.and_eq_true, decide_eq_true_eq] at h_open
    refine Or.inr ⟨⟨s, hs, h_open⟩, ?_⟩
    rw [Database.execute_ok h, Database.execute_ok h_closed]

theorem resolveOwners_eq_some {ids : List ℤ} {owners : List ℤ}
    (h : resolveOwners d ids = some owners) :
    (∀ s ∈ d.sessions, s.id ∈ ids → s.isClosed = true) ∧
      ∀ aid, aid ∈ owners ↔ ∃ s ∈ d.sessions, s.id ∈ ids ∧ s.applicationId = aid := by
  induction ids generalizing owners with
  | nil =>
    obtain rfl := Option.some.inj h
    simp
  | cons id ids ih =>
    unfold resolveOwners at h
    split at h
    next h_none =>
      -- a row with this id does not exist: it is skipped
      obtain ⟨h_closed, h_owner⟩ := ih h
      have h_skip : ∀ s ∈ d.sessions, s.id ∈ id :: ids ↔ s.id ∈ ids := by
        intro s hs
        have : s.id ≠ id := by simpa using List.find?_eq_none.mp h_none s hs
        simp [this]
      refine ⟨fun s hs h_mem => h_closed s hs ((h_skip s hs).mp h_mem), fun aid => ?_⟩
      rw [h_owner]
      exact exists_congr fun s => and_congr_right fun hs => and_congr_left' (h_skip s hs).symm
    next s₀ h_some =>
      split at h
      · exact absurd h (by simp)
      next h_closed₀ =>
      obtain ⟨owners', h_rest, rfl⟩ := Option.map_eq_some_iff.mp h
      obtain ⟨h_closed, h_owner⟩ := ih h_rest
      have hs₀ := List.mem_of_find?_eq_some h_some
      have h_id : s₀.id = id := by simpa using List.find?_some h_some
      have h_eq : ∀ s ∈ d.sessions, s.id = id → s = s₀ := fun s hs h =>
        d.session_unique hs hs₀ (h.trans h_id.symm)
      refine ⟨?_, ?_⟩
      · intro s hs h_mem
        -- the row with the first id is the one found, which is closed
        rcases List.mem_cons.mp h_mem with h_head | h_tail
        · rw [h_eq s hs h_head]
          simpa using h_closed₀
        · exact h_closed s hs h_tail
      · intro aid
        rw [List.mem_cons, h_owner]
        refine ⟨?_, ?_⟩
        · rintro (rfl | ⟨s, hs, h_mem, rfl⟩)
          · exact ⟨s₀, hs₀, by simp [h_id], rfl⟩
          · exact ⟨s, hs, List.mem_cons_of_mem _ h_mem, rfl⟩
        · rintro ⟨s, hs, h_mem, rfl⟩
          rcases List.mem_cons.mp h_mem with h_head | h_tail
          · exact Or.inl (by rw [h_eq s hs h_head])
          · exact Or.inr ⟨s, hs, h_tail, rfl⟩

@[simp] theorem recompute_id (sessions : List Session) (a : Application) :
    (recompute sessions a).id = a.id := rfl

/-- The application owns a session that is to be deleted. -/
def touched (d : Database) (ids : List ℤ) (applicationId : ℤ) : Bool :=
  d.sessions.any fun s => s.id ∈ ids && s.applicationId = applicationId

theorem foldlM_delete_ok {ids : List ℤ}
    (h : ids.foldlM (fun (d : Database) id => Database.execute
      { d.toTables with sessions := Sql.deleteWhere (fun s => s.id = id) d.sessions }) d = .ok d') :
    d'.toTables =
      { d.toTables with sessions := Sql.deleteWhere (fun s => s.id ∈ ids) d.sessions } := by
  have h_read := Except.foldlM_ok Database.toTables
    (fun t id => { t with sessions := Sql.deleteWhere (fun s => s.id = id) t.sessions })
    (fun _ _ _ h => Database.execute_ok h) h
  have h_tables := @List.foldl_hom _ _ _ (fun rows => { d.toTables with sessions := rows })
    (fun rows id => Sql.deleteWhere (fun s => s.id = id) rows)
    (fun t id => { t with sessions := Sql.deleteWhere (fun s => s.id = id) t.sessions })
    ids d.sessions (fun _ _ => rfl)
  rw [h_read, h_tables, Sql.foldl_deleteWhere Session.id]

theorem foldlM_recompute_ok {owners : List ℤ} (hnd : owners.Nodup)
    (h : owners.foldlM recomputeApplication d = .ok d') :
    d'.toTables =
      { d.toTables with
        applications :=
          Sql.updateWhere (fun a => a.id ∈ owners) (recompute d.sessions) d.applications } := by
  have h_read := Except.foldlM_ok Database.toTables
    (fun t id =>
      { t with
        applications := Sql.updateWhere (fun a => a.id = id) (recompute t.sessions) t.applications })
    (fun _ _ _ h => Database.execute_ok h) h
  have h_tables := @List.foldl_hom _ _ _ (fun rows => { d.toTables with applications := rows })
    (fun rows id => Sql.updateWhere (fun a => a.id = id) (recompute d.sessions) rows)
    (fun t id =>
      { t with
        applications := Sql.updateWhere (fun a => a.id = id) (recompute t.sessions) t.applications })
    owners d.applications (fun _ _ => rfl)
  rw [h_read, h_tables, Sql.foldl_updateWhere (recompute_id d.sessions) hnd]

/-- **A successful delete.** None of the ids is an open session; the rows with these ids are gone,
and the applications that owned one of them have their aggregates rebuilt from what is left. -/
theorem deleteSessionsAndRecompute_ok {ids : List ℤ} {deleted : Bool}
    (h : deleteSessionsAndRecompute d ids = .ok (deleted, d')) :
    (∀ s ∈ d.sessions, s.id ∈ ids → s.isClosed = true) ∧
      d'.toTables =
        { d.toTables with
          applications := Sql.updateWhere (fun a => touched d ids a.id)
            (recompute (Sql.deleteWhere (fun s => s.id ∈ ids) d.sessions)) d.applications
          sessions := Sql.deleteWhere (fun s => s.id ∈ ids) d.sessions } := by
  -- a call that finds none of the rows changes nothing, which is what the tables below say
  have h_noop : (∀ s ∈ d.sessions, s.id ∉ ids) →
      d.toTables =
        { d.toTables with
          applications := Sql.updateWhere (fun a => touched d ids a.id)
            (recompute (Sql.deleteWhere (fun s => s.id ∈ ids) d.sessions)) d.applications
          sessions := Sql.deleteWhere (fun s => s.id ∈ ids) d.sessions } := by
    intro h_none
    have h_sessions : Sql.deleteWhere (fun s => s.id ∈ ids) d.sessions = d.sessions :=
      List.filter_eq_self.mpr fun s hs => by simpa using h_none s hs
    have h_apps : Sql.updateWhere (fun a => touched d ids a.id) (recompute d.sessions)
        d.applications = d.applications := by
      refine Sql.updateWhere_of_forall_not fun a _ => ?_
      rw [touched, List.any_eq_false]
      intro s hs
      simp [h_none s hs]
    rw [h_sessions, h_apps]
  unfold deleteSessionsAndRecompute at h
  split at h
  next h_empty =>
    obtain ⟨-, rfl⟩ := Prod.mk.inj (Except.ok.inj h)
    obtain rfl := List.isEmpty_iff.mp h_empty
    exact ⟨by simp, h_noop (by simp)⟩
  split at h
  · exact absurd h (by simp [throw, throwThe, MonadExceptOf.throw])
  next h_owners =>
    -- no id was found
    obtain ⟨-, rfl⟩ := Prod.mk.inj (Except.ok.inj h)
    obtain ⟨h_closed, h_owner⟩ := resolveOwners_eq_some h_owners
    refine ⟨h_closed, h_noop fun s hs h_mem => ?_⟩
    exact absurd ((h_owner s.applicationId).mpr ⟨s, hs, h_mem, rfl⟩) List.not_mem_nil
  next owners _ h_owners =>
    obtain ⟨d₁, h_del, h⟩ := Except.bind_eq_ok.mp h
    obtain ⟨d₂, h_rec, h⟩ := Except.bind_eq_ok.mp h
    obtain ⟨-, rfl⟩ := Prod.mk.inj (Except.ok.inj h)
    obtain ⟨h_closed, h_owner⟩ := resolveOwners_eq_some h_owners
    have h_touched : ∀ a : Application, decide (a.id ∈ owners.dedup) = touched d ids a.id := by
      intro a
      rw [Bool.eq_iff_iff, decide_eq_true_eq, List.mem_dedup, h_owner, touched, List.any_eq_true]
      simp
    refine ⟨h_closed, ?_⟩
    rw [foldlM_recompute_ok owners.nodup_dedup h_rec, foldlM_delete_ok h_del]
    simp only [h_touched]

end Spec

end SessionRepo

end Ludex
