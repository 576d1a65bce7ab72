import Ludex.Lib.Run
import Ludex.Core.ApplicationRepo
import Ludex.Core.SessionRepo

/-!
# Runs of repository calls

`Op` is a call of one of the repository methods that write sessions and applications, and
`Op.run` is what the method does. `Step` is the transition system of a database under such calls:
a call either succeeds, and the database is what the method left, or fails, and the database is
unchanged because its transaction rolled back. A call may fail for a reason of its own or because
the database could not carry it out, so `Step.failed` has no premise.

`Op.trace` executes a list of calls and records the run.

The results about runs rest on one inversion lemma, `Step.rowChange`: it says of every application
row after a step where the row comes from and what its closed sessions are. A property of each
application row and its closed sessions then takes one case for each constructor of `RowChange`.
-/

namespace Ludex

/-- A call of a repository method. -/
inductive Op where
  | create (new : NewApplication)
  | begin (applicationId : ℤ) (startedAt : OffsetDateTime)
  | heartbeat (sessionId : ℤ) (snapshot : RuntimeSnapshot)
  | closeAndRollup (sessionId applicationId : ℤ) (snapshot : RuntimeSnapshot) (reason : ExitReason)
  | deleteSessionsAndRecompute (ids : List ℤ)
  | mergeInto (srcId dstId : ℤ)

namespace Op

/-- The database a call leaves. -/
def run (d : Database) : Op → Except Error Database
  | create new => (ApplicationRepo.create d new).map Prod.snd
  | begin applicationId startedAt => (SessionRepo.begin d applicationId startedAt).map Prod.snd
  | heartbeat sessionId snapshot => SessionRepo.heartbeat d sessionId snapshot
  | closeAndRollup sessionId applicationId snapshot reason =>
    SessionRepo.closeAndRollup d sessionId applicationId snapshot reason
  | deleteSessionsAndRecompute ids => (SessionRepo.deleteSessionsAndRecompute d ids).map Prod.snd
  | mergeInto srcId dstId => ApplicationRepo.mergeInto d srcId dstId

end Op

/-- A call and how it ended. -/
inductive Call where
  | done (op : Op)
  | failed (op : Op)

/-- One call. -/
inductive Step : Database → Call → Database → Prop
  | done {d d' : Database} {op : Op} : op.run d = .ok d' → Step d (.done op) d'
  | failed {d : Database} {op : Op} : Step d (.failed op) d

/-- A close names the application that owns the session row. -/
def Call.Owned (d : Database) : Call → Prop
  | done (.closeAndRollup sessionId applicationId _ _) =>
    ∀ s ∈ d.sessions, s.id = sessionId → s.applicationId = applicationId
  | _ => True

instance (d : Database) : (c : Call) → Decidable (c.Owned d)
  | .done (.closeAndRollup sessionId applicationId _ _) =>
    inferInstanceAs (Decidable (∀ s ∈ d.sessions, s.id = sessionId → s.applicationId = applicationId))
  | .done (.create _) | .done (.begin _ _) | .done (.heartbeat _ _)
  | .done (.deleteSessionsAndRecompute _) | .done (.mergeInto _ _) | .failed _ => instDecidableTrue

/-! ### What a step does to an application row and its closed sessions -/

open SessionRepo ApplicationRepo

/-- Where an application row of the state after a step comes from. -/
inductive RowChange (d d' : Database) : Call → Application → Prop
  /-- The row and its closed sessions are those of the state before. -/
  | kept {c : Call} {a : Application} : a ∈ d.applications →
      closedSessions d'.sessions a.id = closedSessions d.sessions a.id → RowChange d d' c a
  /-- The row is new and has no session. -/
  | created {id : ℤ} {new : NewApplication} : closedSessions d'.sessions id = [] →
      RowChange d d' (.done (.create new)) (ApplicationRepo.newRow id new)
  /-- One open session of the row has been closed and added to its aggregates. -/
  | closed {a : Application} {s : Session} {snapshot : RuntimeSnapshot} {reason : ExitReason} :
      a ∈ d.applications → s ∈ d.sessions → s.isOpen = true → s.applicationId = a.id →
      (closedSessions d'.sessions a.id).Perm
        (closeRow snapshot reason s :: closedSessions d.sessions a.id) →
      RowChange d d' (.done (.closeAndRollup s.id a.id snapshot reason)) (rollup snapshot a)
  /-- A close has added another application's session to the aggregates of the row. -/
  | charged {a : Application} {s : Session} {snapshot : RuntimeSnapshot} {reason : ExitReason} :
      a ∈ d.applications → s ∈ d.sessions → s.isOpen = true → s.applicationId ≠ a.id →
      closedSessions d'.sessions a.id = closedSessions d.sessions a.id →
      RowChange d d' (.done (.closeAndRollup s.id a.id snapshot reason)) (rollup snapshot a)
  /-- One open session of the row has been closed and added to another application. -/
  | uncharged {a : Application} {s : Session} {aid : ℤ} {snapshot : RuntimeSnapshot}
      {reason : ExitReason} :
      a ∈ d.applications → s ∈ d.sessions → s.isOpen = true → s.applicationId = a.id → aid ≠ a.id →
      (closedSessions d'.sessions a.id).Perm
        (closeRow snapshot reason s :: closedSessions d.sessions a.id) →
      RowChange d d' (.done (.closeAndRollup s.id aid snapshot reason)) a
  /-- Some closed sessions of the row have been deleted. -/
  | recomputed {a : Application} {ids : List ℤ} : a ∈ d.applications → touched d ids a.id = true →
      closedSessions d'.sessions a.id
        = (closedSessions d.sessions a.id).filter (fun s => s.id ∉ ids) →
      RowChange d d' (.done (.deleteSessionsAndRecompute ids)) (recompute d'.sessions a)
  /-- The row has taken over the sessions of another one. -/
  | merged {src dst : Application} : src ∈ d.applications → dst ∈ d.applications →
      src.id ≠ dst.id →
      (closedSessions d'.sessions dst.id).Perm
        (closedSessions d.sessions dst.id
          ++ (closedSessions d.sessions src.id).map fun s => { s with applicationId := dst.id }) →
      RowChange d d' (.done (.mergeInto src.id dst.id)) (applyMetadataFill src (mergeStats src dst))

section RowChange

variable {d d' : Database}

theorem closedSessions_append (rows₁ rows₂ : List Session) (aid : ℤ) :
    closedSessions (rows₁ ++ rows₂) aid = closedSessions rows₁ aid ++ closedSessions rows₂ aid := by
  unfold closedSessions
  exact List.filter_append rows₁ rows₂

theorem mem_closedSessions {rows : List Session} {aid : ℤ} {s : Session} :
    s ∈ closedSessions rows aid ↔ s ∈ rows ∧ s.applicationId = aid ∧ s.isClosed = true := by
  simp [closedSessions, isClosedOf]

/-- An update that no closed session of the application is part of, before or after, is not seen by
its closed sessions. -/
theorem closedSessions_updateWhere {p : Session → Bool} {f : Session → Session} {aid : ℤ}
    {rows : List Session}
    (h : ∀ s ∈ rows, p s = true → ∀ x, x = s ∨ x = f s →
      x.applicationId = aid → x.isOpen = true) :
    closedSessions (Sql.updateWhere p f rows) aid = closedSessions rows aid := by
  have h_out : ∀ x : Session, (x.applicationId = aid → x.isOpen = true) →
      isClosedOf aid x = false := by
    intro x hx
    by_cases h_own : x.applicationId = aid
    · simp [isClosedOf, hx h_own]
    · simp [isClosedOf, h_own]
  -- a row that is written is in the selection neither before nor after
  refine Sql.filter_updateWhere fun s hs hp => ?_
  exact ⟨h_out s (h s hs hp s (Or.inl rfl)), h_out (f s) (h s hs hp (f s) (Or.inr rfl))⟩

theorem rowChange_create {new : NewApplication} {a : Application}
    (h : create d new = .ok (a, d')) {a' : Application} (ha' : a' ∈ d'.applications) :
    RowChange d d' (.done (.create new)) a' := by
  obtain ⟨h_row, h_tables⟩ := create_ok h
  have h_apps : d'.applications = d.applications ++ [a] := by rw [h_tables]
  have h_sessions : d'.sessions = d.sessions := by rw [h_tables]
  rw [h_apps, List.mem_append, List.mem_singleton] at ha'
  rcases ha' with ha' | rfl
  · exact .kept ha' (by rw [h_sessions])
  · rw [h_row]
    refine .created (List.eq_nil_iff_forall_not_mem.mpr fun s hs => ?_)
    -- a session of the new row would have had an owner with the new id before
    rw [mem_closedSessions, h_sessions] at hs
    obtain ⟨b, hb, h_id⟩ := d.exists_owner hs.1
    have h_mem : b.id ∈ d.applications.map Application.id := List.mem_map_of_mem hb
    rw [h_id, hs.2.1] at h_mem
    exact Sql.newRowid_notMem _ _ h_mem

theorem rowChange_begin {aid : ℤ} {startedAt : OffsetDateTime} {row : Session} {c : Call}
    (h : begin d aid startedAt = .ok (row, d')) {a' : Application} (ha' : a' ∈ d'.applications) :
    RowChange d d' c a' := by
  obtain ⟨h_row, h_tables⟩ := begin_ok h
  have h_apps : d'.applications = d.applications := by rw [h_tables]
  have h_sessions : d'.sessions = d.sessions ++ [row] := by rw [h_tables]
  -- the new row is open
  have h_open : closedSessions [row] a'.id = [] := by
    rw [h_row]
    simp [closedSessions, isClosedOf, SessionRepo.newRow, Session.isOpen]
  refine .kept (h_apps ▸ ha') ?_
  rw [h_sessions, closedSessions_append, h_open, List.append_nil]

theorem rowChange_heartbeat {sid : ℤ} {snapshot : RuntimeSnapshot} {c : Call}
    (h : heartbeat d sid snapshot = .ok d') {a' : Application} (ha' : a' ∈ d'.applications) :
    RowChange d d' c a' := by
  have h_tables := heartbeat_ok h
  have h_apps : d'.applications = d.applications := by rw [h_tables]
  refine .kept (h_apps ▸ ha') ?_
  rw [h_tables]
  refine closedSessions_updateWhere fun s _ hp x hx _ => ?_
  -- a heartbeat writes an open row and leaves it open
  rw [isOpenRow, Bool.and_eq_true] at hp
  rcases hx with rfl | rfl
  · exact hp.2
  · exact hp.2

/-- Closing the open row `s` adds it to the closed sessions of its owner. -/
theorem closedSessions_close_owner {s : Session} (hs : s ∈ d.sessions) (ho : s.isOpen = true)
    (snapshot : RuntimeSnapshot) (reason : ExitReason) :
    (closedSessions (Sql.updateWhere (isOpenRow s.id) (closeRow snapshot reason) d.sessions)
        s.applicationId).Perm
      (closeRow snapshot reason s :: closedSessions d.sessions s.applicationId) := by
  -- the update writes one row, in the middle of the table
  obtain ⟨before, after, h_split, h_before, h_after⟩ := Sql.exists_split d.session_ids_nodup hs
  have h_other : ∀ x : Session, x.id ≠ s.id → isOpenRow s.id x = false := by
    intro x hx
    simp [isOpenRow, hx]
  have h_update : Sql.updateWhere (isOpenRow s.id) (closeRow snapshot reason) d.sessions
      = before ++ closeRow snapshot reason s :: after := by
    rw [h_split]
    exact Sql.updateWhere_split (fun x hx => h_other x (h_before x hx))
      (fun x hx => h_other x (h_after x hx)) (by simp [isOpenRow, ho])
  have h_open : closedSessions (s :: after) s.applicationId
      = closedSessions after s.applicationId := by
    simp [closedSessions, isClosedOf, ho]
  have h_closed : closedSessions (closeRow snapshot reason s :: after) s.applicationId
      = closeRow snapshot reason s :: closedSessions after s.applicationId := by
    simp [closedSessions, isClosedOf, closeRow, Session.isOpen]
  rw [h_update, h_split, closedSessions_append, closedSessions_append, h_open, h_closed]
  exact List.perm_middle

/-- Closing the open row `s` is not seen by the closed sessions of another application. -/
theorem closedSessions_close_other {s : Session} (hs : s ∈ d.sessions) {snapshot : RuntimeSnapshot}
    {reason : ExitReason} {aid : ℤ} (hne : s.applicationId ≠ aid) :
    closedSessions (Sql.updateWhere (isOpenRow s.id) (closeRow snapshot reason) d.sessions) aid
      = closedSessions d.sessions aid := by
  refine closedSessions_updateWhere fun x hx hp y hy h_own => ?_
  rw [isOpenRow, Bool.and_eq_true, decide_eq_true_eq] at hp
  obtain rfl := d.session_unique hx hs hp.1
  rcases hy with rfl | rfl
  · exact absurd h_own hne
  · exact absurd h_own hne

/-- The tables after a close that found the open row `s`. -/
theorem closeAndRollup_tables {s : Session} {aid : ℤ} {snapshot : RuntimeSnapshot}
    {reason : ExitReason} (hs : s ∈ d.sessions) (ho : s.isOpen = true)
    (h : closeAndRollup d s.id aid snapshot reason = .ok d') :
    d'.applications = Sql.updateWhere (fun a => a.id = aid) (rollup snapshot) d.applications ∧
      d'.sessions = Sql.updateWhere (isOpenRow s.id) (closeRow snapshot reason) d.sessions := by
  rcases closeAndRollup_ok h with ⟨h_none, -⟩ | ⟨-, h_tables⟩
  · exact absurd (h_none s hs) (by simp [isOpenRow, ho])
  · rw [h_tables]
    exact ⟨rfl, rfl⟩

theorem rowChange_closeAndRollup {sid aid : ℤ} {snapshot : RuntimeSnapshot} {reason : ExitReason}
    (h : closeAndRollup d sid aid snapshot reason = .ok d') {a' : Application}
    (ha' : a' ∈ d'.applications) :
    RowChange d d' (.done (.closeAndRollup sid aid snapshot reason)) a' := by
  rcases closeAndRollup_ok h with ⟨-, rfl⟩ | ⟨⟨s, hs, rfl, ho⟩, -⟩
  · exact .kept ha' rfl
  obtain ⟨h_apps, h_sessions⟩ := closeAndRollup_tables hs ho h
  rw [h_apps] at ha'
  obtain ⟨a, ha, rfl⟩ := Sql.mem_updateWhere.mp ha'
  -- the row owns the session or not, and is named by the close or not
  by_cases h_owner : s.applicationId = a.id
  · have h_perm := closedSessions_close_owner hs ho snapshot reason
    rw [← h_sessions, h_owner] at h_perm
    by_cases h_id : a.id = aid
    · subst h_id
      rw [if_pos (by simp)]
      exact .closed ha hs ho h_owner h_perm
    · rw [if_neg (by simpa using h_id)]
      exact .uncharged ha hs ho h_owner (Ne.symm h_id) h_perm
  · have h_rows : closedSessions d'.sessions a.id = closedSessions d.sessions a.id := by
      rw [h_sessions]
      exact closedSessions_close_other hs h_owner
    by_cases h_id : a.id = aid
    · subst h_id
      rw [if_pos (by simp)]
      exact .charged ha hs ho h_owner h_rows
    · rw [if_neg (by simpa using h_id)]
      exact .kept ha h_rows

theorem closedSessions_deleteWhere (ids : List ℤ) (rows : List Session) (aid : ℤ) :
    closedSessions (Sql.deleteWhere (fun s => s.id ∈ ids) rows) aid
      = (closedSessions rows aid).filter (fun s => s.id ∉ ids) := by
  rw [closedSessions, closedSessions, Sql.deleteWhere, List.filter_filter, List.filter_filter]
  refine List.filter_congr fun s _ => ?_
  rw [Bool.and_comm, decide_not]

/-- A delete takes the deleted rows out of the closed sessions of every application. -/
theorem closedSessions_delete {ids : List ℤ} {deleted : Bool}
    (h : deleteSessionsAndRecompute d ids = .ok (deleted, d')) (aid : ℤ) :
    closedSessions d'.sessions aid
      = (closedSessions d.sessions aid).filter (fun s => s.id ∉ ids) := by
  have h_sessions : d'.sessions = Sql.deleteWhere (fun s => s.id ∈ ids) d.sessions := by
    rw [(deleteSessionsAndRecompute_ok h).2]
  rw [h_sessions, closedSessions_deleteWhere]

theorem applications_delete {ids : List ℤ} {deleted : Bool}
    (h : deleteSessionsAndRecompute d ids = .ok (deleted, d')) :
    d'.applications
      = Sql.updateWhere (fun a => touched d ids a.id) (recompute d'.sessions) d.applications := by
  rw [(deleteSessionsAndRecompute_ok h).2]

theorem rowChange_delete {ids : List ℤ} {deleted : Bool}
    (h : deleteSessionsAndRecompute d ids = .ok (deleted, d')) {a' : Application}
    (ha' : a' ∈ d'.applications) :
    RowChange d d' (.done (.deleteSessionsAndRecompute ids)) a' := by
  rw [applications_delete h] at ha'
  obtain ⟨a, ha, rfl⟩ := Sql.mem_updateWhere.mp ha'
  by_cases h_touched : touched d ids a.id = true
  · rw [if_pos h_touched]
    exact .recomputed ha h_touched (closedSessions_delete h a.id)
  · rw [if_neg h_touched]
    refine .kept ha ?_
    rw [closedSessions_delete h, List.filter_eq_self]
    intro s hs
    obtain ⟨hs, h_own, -⟩ := mem_closedSessions.mp hs
    -- a deleted session of `a` would have touched it
    rw [decide_eq_true_eq]
    intro h_mem
    exact h_touched (List.any_eq_true.mpr ⟨s, hs, by simp [h_mem, h_own]⟩)

/-- The closed sessions of the destination after the sessions of the source are re-parented. -/
theorem closedSessions_reparent {srcId dstId : ℤ} (hne : srcId ≠ dstId) (rows : List Session) :
    (closedSessions (reparent srcId dstId rows) dstId).Perm
      (closedSessions rows dstId
        ++ (closedSessions rows srcId).map fun s => { s with applicationId := dstId }) := by
  -- what the destination owns afterwards was its own, or the source's
  have h_select : closedSessions (reparent srcId dstId rows) dstId
      = (rows.filter fun s => isClosedOf dstId s || isClosedOf srcId s).map
          (reparentRow srcId dstId) := by
    rw [reparent_eq_map, closedSessions, List.filter_map]
    refine congrArg _ (List.filter_congr fun s _ => ?_)
    by_cases h_src : s.applicationId = srcId
    · simp [isClosedOf, reparentRow, h_src, hne, Session.isOpen]
    · simp [isClosedOf, reparentRow, h_src]
  have h_exclusive : ∀ s, isClosedOf dstId s = true → isClosedOf srcId s = false := by
    intro s hs
    rw [isClosedOf, Bool.and_eq_true, decide_eq_true_eq] at hs
    simp [isClosedOf, hs.1, hne.symm]
  have h_dst : (closedSessions rows dstId).map (reparentRow srcId dstId)
      = closedSessions rows dstId := by
    refine (List.map_congr_left fun s hs => ?_).trans (List.map_id _)
    obtain ⟨-, h_own, -⟩ := mem_closedSessions.mp hs
    rw [reparentRow, if_neg (h_own ▸ hne.symm)]
    rfl
  have h_src : (closedSessions rows srcId).map (reparentRow srcId dstId)
      = (closedSessions rows srcId).map fun s => { s with applicationId := dstId } := by
    refine List.map_congr_left fun s hs => ?_
    obtain ⟨-, h_own, -⟩ := mem_closedSessions.mp hs
    rw [reparentRow, if_pos h_own]
  rw [h_select, ← h_src, ← h_dst, ← List.map_append]
  exact (Sql.filter_or_perm h_exclusive rows).map _

/-- A column the re-parenting leaves alone has the values of both selections after a merge. -/
theorem column_merged {β : Type} {g : Session → β} {dstId : ℤ}
    (hg : ∀ s : Session, g { s with applicationId := dstId } = g s) {rows ofDst ofSrc : List Session}
    (h : rows.Perm (ofDst ++ ofSrc.map fun s => { s with applicationId := dstId })) :
    (rows.map g).Perm (ofDst.map g ++ ofSrc.map g) := by
  have h_src : ofSrc.map (g ∘ fun s => { s with applicationId := dstId }) = ofSrc.map g :=
    List.map_congr_left fun s _ => hg s
  have h_map := h.map g
  rwa [List.map_append, List.map_map, h_src] at h_map

/-- The row of the destination after a merge. -/
theorem mergeInto_row {src dst : Application} (h_src : src ∈ d.applications)
    (h_dst : dst ∈ d.applications) (h : mergeInto d src.id dst.id = .ok d') :
    applyMetadataFill src (mergeStats src dst) ∈ d'.applications ∧
      (closedSessions d'.sessions dst.id).Perm
        (closedSessions d.sessions dst.id
          ++ (closedSessions d.sessions src.id).map fun s => { s with applicationId := dst.id }) := by
  obtain ⟨h_ne, src', h_src', h_id, -, h_tables⟩ := mergeInto_ok h
  obtain rfl := d.application_unique h_src' h_src h_id
  rw [h_tables]
  -- the destination is not the row the last statement deletes
  refine ⟨List.mem_filter.mpr ⟨Sql.mem_updateWhere.mpr ⟨dst, h_dst, by simp⟩, ?_⟩,
    closedSessions_reparent h_ne d.sessions⟩
  simpa using h_ne.symm

theorem rowChange_mergeInto {srcId dstId : ℤ} (h : mergeInto d srcId dstId = .ok d')
    {a' : Application} (ha' : a' ∈ d'.applications) :
    RowChange d d' (.done (.mergeInto srcId dstId)) a' := by
  obtain ⟨h_ne, src, h_src, rfl, -, h_tables⟩ := mergeInto_ok h
  have h_sessions : d'.sessions = reparent src.id dstId d.sessions := by rw [h_tables]
  have h_apps : d'.applications = Sql.deleteWhere (fun a => a.id = src.id)
      (Sql.updateWhere (fun a => a.id = dstId)
        (fun a => applyMetadataFill src (mergeStats src a)) d.applications) := by rw [h_tables]
  rw [h_apps] at ha'
  obtain ⟨ha', h_kept⟩ := List.mem_filter.mp ha'
  obtain ⟨a, ha, rfl⟩ := Sql.mem_updateWhere.mp ha'
  by_cases h_id : a.id = dstId
  · subst h_id
    rw [if_pos (by simp)]
    exact .merged h_src ha h_ne (mergeInto_row h_src ha h).2
  · rw [if_neg (by simpa using h_id)] at h_kept ⊢
    refine .kept ha ?_
    rw [h_sessions]
    refine closedSessions_updateWhere fun s _ hp x hx h_own => ?_
    -- a moved row belongs to the source before and to the destination after
    rw [decide_eq_true_eq] at hp
    rcases hx with rfl | rfl
    · exact absurd (h_own.symm.trans hp) (by simpa using h_kept)
    · exact absurd h_own.symm h_id

/-- **Inversion of a step**, for one application row of the state after it. -/
theorem Step.rowChange {c : Call} (h : Step d c d') {a' : Application}
    (ha' : a' ∈ d'.applications) : RowChange d d' c a' := by
  cases h with
  | failed => exact .kept ha' rfl
  | @done _ op h_run =>
    cases op with
    | create new =>
      obtain ⟨⟨a, d₁⟩, h_ok, rfl⟩ := Except.map_eq_ok.mp h_run
      exact rowChange_create h_ok ha'
    | begin aid startedAt =>
      obtain ⟨⟨row, d₁⟩, h_ok, rfl⟩ := Except.map_eq_ok.mp h_run
      exact rowChange_begin h_ok ha'
    | heartbeat sid snapshot => exact rowChange_heartbeat h_run ha'
    | closeAndRollup sid aid snapshot reason => exact rowChange_closeAndRollup h_run ha'
    | deleteSessionsAndRecompute ids =>
      obtain ⟨⟨deleted, d₁⟩, h_ok, rfl⟩ := Except.map_eq_ok.mp h_run
      exact rowChange_delete h_ok ha'
    | mergeInto srcId dstId => exact rowChange_mergeInto h_run ha'

end RowChange

/-! ### Executing calls -/

/-- Execute a list of calls. -/
def Op.trace (d : Database) : List Op → List (Call × Database)
  | [] => []
  | op :: ops =>
    match op.run d with
    | .ok d' => (.done op, d') :: trace d' ops
    | .error _ => (.failed op, d) :: trace d ops

/-- An executed list of calls is a run. -/
theorem Op.isRun_trace (d : Database) (ops : List Op) : Run.IsRun Step d (Op.trace d ops) := by
  induction ops generalizing d with
  | nil => exact .nil d
  | cons op ops ih =>
    unfold Op.trace
    cases h_run : op.run d with
    | ok d' => exact .cons (.done h_run) (ih d')
    | error e => exact .cons .failed (ih d)

/-- A Steam application about which nothing but its id is known. -/
def newSteam (appid : String) (firstSeenAt : OffsetDateTime) : NewApplication where
  launcherType := .steam
  launcherId := appid
  productName := appid
  publisher := none
  version := none
  executablePath := none
  launcherExePath := none
  wineprefixPath := none
  installedFlatpakRef := none
  graphicsPlatform := .unknown
  processArchitecture := .unknown
  groupId := none
  icons := {}
  firstSeenAt := firstSeenAt

/-- Two applications are played, the first is closed twice, the second is merged into the first
while it is running again, and one of the sessions is deleted. -/
def playMergeDelete : List Op :=
  [.create (newSteam "10" (.firstDay 0)), .create (newSteam "20" (.firstDay 1)),
    .begin 1 (.firstDay 10), .heartbeat 1 ⟨60, 50, .firstDay 70⟩,
    .closeAndRollup 1 1 ⟨90, 70, .firstDay 100⟩ .terminated,
    .closeAndRollup 1 1 ⟨90, 70, .firstDay 100⟩ .terminated,
    .begin 2 (.firstDay 200), .closeAndRollup 2 2 ⟨30, 30, .firstDay 230⟩ .foregroundChanged,
    .begin 1 (.firstDay 300), .mergeInto 2 1, .deleteSessionsAndRecompute [3],
    .deleteSessionsAndRecompute [1]]

end Ludex
