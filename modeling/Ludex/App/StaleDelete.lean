import Ludex.Core.SessionDelete
import Ludex.Daemon.Tracker

/-!
# Deleting from a page that is out of date

The page of a game offers to delete a session it shows (`canDelete`), and hands the ids of its
fragments to the daemon once the user has answered the dialog. By then sessions may have been played,
deleted, or merged into another application.

`Step.sessionChange` says where a session row of the state after a call comes from. A row that has
ended is never written again, but for the application it belongs to, and no id is handed out twice.
So what is left of a span is what was shown of it, and the daemon does not find a running game behind
one of its ids (`DeletesShown`).
-/

namespace Ludex

open SessionRepo ApplicationRepo SessionMerge

/-! ### Where a session row comes from -/

/-- Where a session row of the state after a call comes from. -/
inductive SessionChange (d : Database) : Call → Session → Prop
  /-- The row is that of the state before. -/
  | kept {c : Call} {s : Session} : s ∈ d.sessions → SessionChange d c s
  | begun {aid : ℤ} {startedAt : OffsetDateTime} :
      SessionChange d (.done (.begin aid startedAt))
        (SessionRepo.newRow (Sql.newRowid d.sessionSeq (d.sessions.map Session.id)) aid startedAt)
  | beaten {s : Session} {snapshot : RuntimeSnapshot} : s ∈ d.sessions → s.isOpen = true →
      SessionChange d (.done (.heartbeat s.id snapshot)) (heartbeatRow snapshot s)
  | closed {s : Session} {aid : ℤ} {snapshot : RuntimeSnapshot} {reason : ExitReason} :
      s ∈ d.sessions → s.isOpen = true →
      SessionChange d (.done (.closeAndRollup s.id aid snapshot reason)) (closeRow snapshot reason s)
  | moved {s : Session} {dstId : ℤ} : s ∈ d.sessions →
      SessionChange d (.done (.mergeInto s.applicationId dstId)) { s with applicationId := dstId }

section SessionChange

variable {d d' : Database} {c : Call} {s' : Session}

theorem Step.sessionChange (h_step : Step d c d') (hs' : s' ∈ d'.sessions) :
    SessionChange d c s' := by
  -- one case for each call; what it does to the row of a session is one constructor
  cases h_step with
  | failed => exact .kept hs'
  | @done _ op h_run =>
    cases op with
    | create new =>
      obtain ⟨⟨a, d₁⟩, h_ok, rfl⟩ := Except.map_eq_ok.mp h_run
      rw [(create_ok h_ok).2] at hs'
      exact .kept hs'
    | begin aid startedAt =>
      obtain ⟨⟨row, d₁⟩, h_ok, rfl⟩ := Except.map_eq_ok.mp h_run
      obtain ⟨h_row, h_tables⟩ := begin_ok h_ok
      rw [h_tables] at hs'
      rcases List.mem_append.mp hs' with hs' | h_new
      · exact .kept hs'
      · -- a new row, open and without runtime
        rw [List.mem_singleton.mp h_new, h_row]
        exact .begun
    | heartbeat sid snapshot =>
      rw [heartbeat_ok h_run] at hs'
      obtain ⟨s, hs, rfl⟩ := Sql.mem_updateWhere.mp hs'
      -- only the open row with this id is written, by a heartbeat and by a close
      by_cases h_row : isOpenRow sid s = true
      · rw [if_pos h_row]
        obtain ⟨h_id, h_open⟩ := (Bool.and_eq_true _ _).mp h_row
        obtain rfl := of_decide_eq_true h_id
        exact .beaten hs h_open
      · rw [if_neg h_row]
        exact .kept hs
    | closeAndRollup sid aid snapshot reason =>
      rcases closeAndRollup_ok h_run with ⟨-, rfl⟩ | ⟨-, h_tables⟩
      · exact .kept hs'
      · rw [h_tables] at hs'
        obtain ⟨s, hs, rfl⟩ := Sql.mem_updateWhere.mp hs'
        by_cases h_row : isOpenRow sid s = true
        · rw [if_pos h_row]
          obtain ⟨h_id, h_open⟩ := (Bool.and_eq_true _ _).mp h_row
          obtain rfl := of_decide_eq_true h_id
          exact .closed hs h_open
        · rw [if_neg h_row]
          exact .kept hs
    -- the rows that stay are as they were
    | deleteSessionsAndRecompute ids =>
      obtain ⟨⟨deleted, d₁⟩, h_ok, rfl⟩ := Except.map_eq_ok.mp h_run
      rw [(deleteSessionsAndRecompute_ok h_ok).2] at hs'
      exact .kept (List.mem_of_mem_filter hs')
    | mergeInto srcId dstId =>
      obtain ⟨-, src, -, -, -, h_tables⟩ := mergeInto_ok h_run
      rw [h_tables] at hs'
      -- a merge moves the rows of the source and touches no other
      have h_moved : s' ∈ d.sessions.map (reparentRow srcId dstId) := by
        rw [← reparent_eq_map]
        exact hs'
      obtain ⟨s, hs, rfl⟩ := List.mem_map.mp h_moved
      by_cases h_src : s.applicationId = srcId
      · subst h_src
        rw [reparentRow, if_pos rfl]
        exact .moved hs
      · rw [reparentRow, if_neg h_src]
        exact .kept hs

/-- **A row that has ended** stays as it is, but for the application it belongs to, and its id is
not used again. -/
theorem SessionChange.ended (h : SessionChange d c s') :
    d.sessionSeq < s'.id ∨ ∃ s ∈ d.sessions, s.id = s'.id ∧
      (s.isOpen = true ∨ { s' with applicationId := s.applicationId } = s) := by
  cases h with
  | kept hs => exact .inr ⟨s', hs, rfl, .inr rfl⟩
  | begun => exact .inl (Int.lt_add_one_of_le (Sql.le_foldl_max _ _).1)
  | @beaten s _ hs h_open => exact .inr ⟨s, hs, rfl, .inl h_open⟩
  | @closed s _ _ _ hs h_open => exact .inr ⟨s, hs, rfl, .inl h_open⟩
  | @moved s _ hs => exact .inr ⟨s, hs, rfl, .inr rfl⟩

/-- A row has a reason for its end if and only if it has ended. -/
def Session.HasReason (s : Session) : Prop := s.exitReason.isSome = s.endedAt.isSome

theorem SessionChange.hasReason (h : SessionChange d c s') (h_inv : ∀ s ∈ d.sessions, s.HasReason) :
    s'.HasReason := by
  cases h with
  | kept hs => exact h_inv s' hs
  | begun => rfl
  | @beaten s _ hs _ => exact h_inv s hs
  | closed _ _ => rfl
  | @moved s _ hs => exact h_inv s hs

theorem Database.Reachable.hasReason (h : d.Reachable) : ∀ s ∈ d.sessions, s.HasReason := by
  induction h with
  | empty => exact fun s hs => absurd hs List.not_mem_nil
  | step _ h_step _ ih => exact fun s' hs' => (h_step.sessionChange hs').hasReason ih

end SessionChange

/-! ### What is left of some rows -/

section Left

variable {d : Database} {ids : List ℤ}

/-- The listed rows of a later state are rows of the earlier one, but for the application. -/
structure LeftOf (d : Database) (ids : List ℤ) (now : Database) : Prop where
  seq : d.sessionSeq ≤ now.sessionSeq
  rows : ∀ s' ∈ now.sessions, s'.id ∈ ids → ∃ s ∈ d.sessions, s.isClosed = true ∧
    { s' with applicationId := s.applicationId } = s

theorem LeftOf.refl (h_closed : ∀ s ∈ d.sessions, s.id ∈ ids → s.isClosed = true) :
    LeftOf d ids d where
  seq := le_rfl
  rows s hs h_id := ⟨s, hs, h_closed s hs h_id, rfl⟩

theorem LeftOf.step {now now' : Database} {c : Call} (h_step : Step now c now')
    (h_ids : ∀ id ∈ ids, id ≤ d.sessionSeq) (h : LeftOf d ids now) : LeftOf d ids now' where
  seq := h.seq.trans h_step.rowids.2.seq_le
  rows := by
    intro s' hs' h_id
    rcases (h_step.sessionChange hs').ended with h_new | ⟨s, hs, h_same, h_kept⟩
    · -- a new id is above those that have been handed out
      have h_old := (h_ids _ h_id).trans h.seq
      exact absurd h_new h_old.not_gt
    · obtain ⟨s₀, hs₀, h_closed, h_was⟩ := h.rows s hs (by rwa [h_same])
      rcases h_kept with h_open | h_moved
      · have h_end : s.endedAt = s₀.endedAt := by rw [← h_was]
        rw [Session.isClosed, ← h_end] at h_closed
        rw [Session.isOpen, Option.isNone_iff_eq_none] at h_open
        rw [h_open] at h_closed
        exact absurd h_closed Bool.false_ne_true
      · refine ⟨s₀, hs₀, h_closed, ?_⟩
        calc { s' with applicationId := s₀.applicationId }
            = { s with applicationId := s₀.applicationId } := by rw [← h_moved]
          _ = s₀ := h_was

/-- **What is left after a run** of the rows that had ended. -/
theorem LeftOf.run (h_reach : d.Reachable)
    (h_shown : ∀ id ∈ ids, ∃ s ∈ d.sessions, s.id = id)
    (h_closed : ∀ s ∈ d.sessions, s.id ∈ ids → s.isClosed = true)
    {tr : List (Call × Database)} (hrun : Run.IsRun Step d tr) :
    LeftOf d ids (Run.final d tr) := by
  have h_ids : ∀ id ∈ ids, id ≤ d.sessionSeq := by
    intro id h_id
    obtain ⟨s, hs, rfl⟩ := h_shown id h_id
    exact h_reach.sessionIds s hs
  exact hrun.final_invariant (LeftOf d ids) (fun _ _ _ h_step h => h.step h_step h_ids)
    (.refl h_closed)

end Left

/-! ### What is shown of a span -/

namespace SessionMerge

/-- A fold goes on to rows that have ended only. -/
theorem MadeOf.ended {T : Type} {c : Closures T} {gap : ℤ} {row : T} {older : List T}
    {span : T × List ℤ} (h : MadeOf c gap (row :: older) span) :
    ∀ next ∈ older, (c.endedAtOf next).isSome = true := by
  obtain ⟨_, _, h_run, -, h_chain⟩ := h
  rw [← h_run] at h_chain
  clear h_run
  induction older generalizing row with
  | nil => exact fun next h_next => absurd h_next List.not_mem_nil
  | cons next older ih =>
    obtain ⟨h_joined, h_rest⟩ := List.isChain_cons_cons.mp h_chain
    refine List.forall_mem_cons.mpr ⟨?_, ih h_rest⟩
    -- an older row that is open is cut off
    cases h_end : c.endedAtOf next with
    | none => simp [cutBetween, h_end] at h_joined
    | some end_ => rfl

end SessionMerge

namespace Pages

open Tracker

/-- The page shows a session with a button to delete it. -/
def canDelete (s : SessionSummary) : Bool := s.exitReason ≠ ""

variable {d : Database} {scan : Scan d} {productName : String} {applicationId : ℤ} {limit : ℕ}
  {summary : SessionSummary}

/-- The rows that a summary shows, newest first. -/
structure Shows (d : Database) (applicationId : ℤ) (summary : SessionSummary) (row : Session)
    (older : List Session) : Prop where
  rows : ∀ s ∈ row :: older, s ∈ d.sessions ∧ s.applicationId = applicationId
  ids : summary.fragmentIds = (row :: older).map Session.id
  ended : ∀ s ∈ older, s.isClosed = true
  exitReason : summary.exitReason = (row.exitReason.map ExitReason.toString).getD ""
  runtime : summary.fullRuntimeSeconds =
    I64.saturatingSum ((row :: older).map Session.fullRuntimeSeconds)

theorem exists_shows
    (h : summary ∈ listSessionsForApplication scan productName applicationId limit) :
    ∃ row older, Shows d applicationId summary row older := by
  obtain ⟨span, h_span, rfl⟩ := List.mem_map.mp h
  obtain ⟨run, h_run, h_made⟩ :=
    Splitting.exists_of_forall₂ (sessionColumns.fold_spans _ defaultMergeGap) h_span
  have h_isSpan := h_made.isSpan sessionColumns
  obtain ⟨row, older, rfl⟩ : ∃ row older, run = row :: older := by
    obtain ⟨row, older, h_eq, -⟩ := h_made
    exact ⟨row, older, h_eq⟩
  refine ⟨row, older, ?_, h_isSpan.fragments, h_made.ended, ?_, h_isSpan.full⟩
  · intro s hs
    -- a row of a run is one of those fetched
    have h_fetched : s ∈ listForApplication scan applicationId (max 1 (min limit 1000)) := by
      rw [← List.flatten_splitBy
        (fun newer older => !cutBetween sessionClosures defaultMergeGap.duration newer older)
        (listForApplication _ _ _)]
      exact List.mem_flatten_of_mem h_run hs
    exact mem_history.mp (List.mem_of_mem_take h_fetched)
  · obtain ⟨-, -, -, h_reason⟩ := h_isSpan.newest row rfl
    show (span.1.exitReason.map ExitReason.toString).getD "" = _
    rw [show span.1.exitReason = row.exitReason from h_reason]

/-- The rows shown are those with one of the ids. -/
theorem Shows.mem_iff {row : Session} {older : List Session}
    (h : Shows d applicationId summary row older) {s : Session} (hs : s ∈ d.sessions) :
    s.id ∈ summary.fragmentIds ↔ s ∈ row :: older := by
  rw [h.ids]
  refine ⟨?_, List.mem_map_of_mem⟩
  intro h_id
  obtain ⟨s₀, hs₀, h_same⟩ := List.mem_map.mp h_id
  rwa [← d.session_unique (h.rows s₀ hs₀).1 hs h_same]

/-- **The button is there** if and only if all sessions behind it have ended. -/
theorem canDelete_iff (h_reach : d.Reachable) {row : Session} {older : List Session}
    (h : Shows d applicationId summary row older) :
    canDelete summary = true ↔
      ∀ s ∈ d.sessions, s.id ∈ summary.fragmentIds → s.isClosed = true := by
  -- the button reads the exit reason of the newest fragment, and a closed row has one
  have h_row : canDelete summary = true ↔ row.isClosed = true := by
    rw [Session.isClosed, ← h_reach.hasReason row (h.rows row List.mem_cons_self).1, canDelete,
      h.exitReason]
    cases row.exitReason with
    | none => simp
    | some reason => cases reason <;> simp [ExitReason.toString]
  rw [h_row]
  refine ⟨?_, ?_⟩
  · intro h_closed s hs h_id
    -- the older fragments are closed in any case
    rcases List.mem_cons.mp ((h.mem_iff hs).mp h_id) with rfl | h_older
    · exact h_closed
    · exact h.ended s h_older
  · intro h_all
    -- the newest fragment is one of them
    have hs := (h.rows row List.mem_cons_self).1
    exact h_all row hs ((h.mem_iff hs).mpr List.mem_cons_self)

/-! ### The delete -/

/-- A delete of what was shown of `d`, in the state it comes to. -/
structure DeletesShown (d : Database) (applicationId : ℤ) (summary : SessionSummary)
    (now : Database) : Prop where
  /-- What is left of the span is as it was shown, though it may be another application's. -/
  left : ∀ s' ∈ now.sessions, s'.id ∈ summary.fragmentIds →
    s'.isClosed = true ∧ { s' with applicationId := applicationId } ∈ d.sessions
  /-- It has no more runtime than was shown. -/
  runtime : min (2 ^ 63 - 1) ((now.sessions.filter fun s => s.id ∈ summary.fragmentIds).map
      Session.fullRuntimeSeconds).sum ≤ summary.fullRuntimeSeconds
  /-- The delete fails only if the counters of an owner cannot be rebuilt. -/
  accepted : (∃ removed d', deleteSessionsAndRecompute now summary.fragmentIds = .ok (removed, d')) ↔
    ¬ Overflows now summary.fragmentIds
  /-- It takes what is left, and nothing else, and the counters of the owners are right after it. -/
  deleted : ∀ removed d', deleteSessionsAndRecompute now summary.fragmentIds = .ok (removed, d') →
    (removed = true ↔ ListsAny now summary.fragmentIds) ∧
      d'.sessions = now.sessions.filter (fun s => s.id ∉ summary.fragmentIds) ∧
      ∀ a ∈ d'.applications, touched now summary.fragmentIds a.id = true →
        AggregatesAgree d'.sessions a

/-- The runtime of some of the rows shown. -/
theorem Shows.runtime_le {row : Session} {older : List Session}
    (h : Shows d applicationId summary row older) {now : Database}
    (h_left : ∀ s' ∈ now.sessions, s'.id ∈ summary.fragmentIds →
      { s' with applicationId := applicationId } ∈ d.sessions) :
    min (2 ^ 63 - 1) ((now.sessions.filter fun s => s.id ∈ summary.fragmentIds).map
      Session.fullRuntimeSeconds).sum ≤ summary.fullRuntimeSeconds := by
  have h_nonneg : ∀ x ∈ (row :: older).map Session.fullRuntimeSeconds, 0 ≤ x :=
    List.forall_mem_map.mpr fun s hs => (d.checks.2 s (h.rows s hs).1).2.1
  -- as they were shown, the rows left are some of the rows shown
  have h_subperm : ((now.sessions.filter fun s => s.id ∈ summary.fragmentIds).map
      fun s => { s with applicationId := applicationId }).Subperm (row :: older) := by
    refine List.subperm_of_subset ?_ ?_
    · have h_ids : (now.sessions.filter fun s => s.id ∈ summary.fragmentIds).Pairwise
          (fun a b => a.id ≠ b.id) :=
        (List.pairwise_map.mp now.uniques.2.1).filter _
      refine List.pairwise_map.mpr (h_ids.imp fun h_ne h_eq => h_ne ?_)
      exact (Session.mk.inj h_eq).1
    · intro s hs
      obtain ⟨s', hs', rfl⟩ := List.mem_map.mp hs
      obtain ⟨hs', h_id⟩ := List.mem_filter.mp hs'
      exact (h.mem_iff (h_left s' hs' (of_decide_eq_true h_id))).mp (of_decide_eq_true h_id)
  obtain ⟨part, h_perm, h_sub⟩ := h_subperm
  calc min (2 ^ 63 - 1) ((now.sessions.filter fun s => s.id ∈ summary.fragmentIds).map
        Session.fullRuntimeSeconds).sum
      = min (2 ^ 63 - 1) (part.map Session.fullRuntimeSeconds).sum := by
        rw [(h_perm.map Session.fullRuntimeSeconds).sum_eq, List.map_map]
        rfl
    _ ≤ min (2 ^ 63 - 1) ((row :: older).map Session.fullRuntimeSeconds).sum :=
        min_le_min le_rfl ((h_sub.map Session.fullRuntimeSeconds).sum_le_sum h_nonneg)
    _ ≤ I64.saturatingSum ((row :: older).map Session.fullRuntimeSeconds) :=
        (I64.saturatingSum_bounds h_nonneg).1
    _ = summary.fullRuntimeSeconds := h.runtime.symm

/-- What a call that returns has deleted. -/
theorem deleted_of_ok {now d' : Database} {ids : List ℤ} {removed : Bool}
    (h_call : deleteSessionsAndRecompute now ids = .ok (removed, d')) :
    (removed = true ↔ ListsAny now ids) ∧
      d'.sessions = now.sessions.filter (fun s => s.id ∉ ids) ∧
      ∀ a ∈ d'.applications, touched now ids a.id = true → AggregatesAgree d'.sessions a := by
  refine ⟨?_, ?_, ?_⟩
  · -- the call says whether it found one of the rows
    have h_result := delete_result now ids
    rw [h_call] at h_result
    cases h_result with
    | nothing h_none => exact iff_of_false Bool.false_ne_true h_none
    | deleted h_any _ _ _ => exact iff_of_true rfl h_any
  · -- the rows that are left are those that were not asked for
    rw [(deleteSessionsAndRecompute_ok h_call).2]
    exact List.filter_congr fun s _ => (decide_not).symm
  · intro a' ha' h_touched
    rw [applications_delete h_call] at ha'
    obtain ⟨a, -, rfl⟩ := Sql.mem_updateWhere.mp ha'
    -- an owner of a deleted row has been recomputed, and no one else was touched
    by_cases h_own : touched now ids a.id = true
    · rw [if_pos h_own]
      exact AggregatesAgree.recomputed d'.sessions a
    · rw [if_neg h_own] at h_touched
      exact absurd h_touched h_own

/-- A call that lists no open row fails only for want of room in a counter. -/
theorem ok_iff_of_not_open {now : Database} {ids : List ℤ} (h_open : ¬ ListsOpen now ids) :
    (∃ removed d', deleteSessionsAndRecompute now ids = .ok (removed, d')) ↔ ¬ Overflows now ids := by
  have h_result := delete_result now ids
  generalize deleteSessionsAndRecompute now ids = r at h_result ⊢
  cases h_result with
  | refused h => exact absurd h h_open
  | nothing h_none =>
    refine iff_of_true ⟨false, now, rfl⟩ ?_
    -- without a listed row no counter is rebuilt
    rintro ⟨a, -, h_touched, -⟩
    obtain ⟨s, hs, h_id, -⟩ := touched_iff.mp h_touched
    exact h_none ⟨s, hs, h_id⟩
  | overflow _ h_over => exact iff_of_false (by simp) (not_not.mpr h_over)
  | @deleted d' _ _ h_fits _ => exact iff_of_true ⟨true, d', rfl⟩ h_fits

/-- **A page that is out of date deletes nothing it did not show.** It offers to delete a session if
and only if everything behind it has ended. Whatever has been called since, such a delete is not
refused for a game that runs, and takes only rows that the page showed. -/
theorem stale_delete (h_reach : d.Reachable)
    (h : summary ∈ listSessionsForApplication scan productName applicationId limit) :
    (canDelete summary = true ↔
        ∀ s ∈ d.sessions, s.id ∈ summary.fragmentIds → s.isClosed = true) ∧
      (canDelete summary = true → ∀ tr : List (Call × Database), Run.IsRun Step d tr →
        DeletesShown d applicationId summary (Run.final d tr)) := by
  obtain ⟨row, older, h_shows⟩ := exists_shows h
  refine ⟨canDelete_iff h_reach h_shows, fun h_button tr hrun => ?_⟩
  -- the rows that are shown are there when the page is drawn
  have h_exists : ∀ id ∈ summary.fragmentIds, ∃ s ∈ d.sessions, s.id = id := by
    intro id h_id
    rw [h_shows.ids] at h_id
    obtain ⟨s, hs, rfl⟩ := List.mem_map.mp h_id
    exact ⟨s, (h_shows.rows s hs).1, rfl⟩
  -- the run leaves these rows closed, and with them everything that is shown of them
  have h_run := LeftOf.run h_reach h_exists ((canDelete_iff h_reach h_shows).mp h_button) hrun
  have h_left : ∀ s' ∈ (Run.final d tr).sessions, s'.id ∈ summary.fragmentIds →
      s'.isClosed = true ∧ { s' with applicationId := applicationId } ∈ d.sessions := by
    intro s' hs' h_id
    obtain ⟨s, hs, h_closed, h_was⟩ := h_run.rows s' hs' h_id
    have h_same : s.id = s'.id := by rw [← h_was]
    -- a merge since then can only have changed the owner
    have h_owner := (h_shows.rows s ((h_shows.mem_iff hs).mp (by rwa [h_same]))).2
    rw [h_owner] at h_was
    rw [h_was]
    refine ⟨?_, hs⟩
    rw [← h_was] at h_closed
    exact h_closed
  -- so none of them is open when the call comes, and the call does not refuse
  have h_open : ¬ ListsOpen (Run.final d tr) summary.fragmentIds := by
    rintro ⟨s', hs', h_id, h_open⟩
    have h_closed := (h_left s' hs' h_id).1
    rw [Session.isClosed_eq_not_isOpen, h_open] at h_closed
    exact absurd h_closed Bool.false_ne_true
  exact ⟨h_left, h_shows.runtime_le fun s' hs' h_id => (h_left s' hs' h_id).2,
    ok_iff_of_not_open h_open, fun _ _ => deleted_of_ok⟩

/-- A game is played twice within a minute. -/
def playedTwiceAtOnce : Database :=
  Run.final .empty (Op.trace .empty
    [.create (newSteam "10" (.firstDay 0)), .create (newSteam "20" (.firstDay 1)),
      .begin 1 (.firstDay 100), .closeAndRollup 1 1 ⟨100, 90, .firstDay 200⟩ .terminated,
      .begin 1 (.firstDay 230), .closeAndRollup 2 1 ⟨70, 60, .firstDay 300⟩ .terminated])

/-- Another page deletes the older session, and the game is merged into another one, which runs. -/
theorem stale_delete_mergedAway :
    ∃ summary ∈ listSessionsForApplication playedTwiceAtOnce.scan "" 1 50,
      summary.fragmentIds = [2, 1] ∧
        DeletesShown playedTwiceAtOnce 1 summary (Run.final playedTwiceAtOnce
          (Op.trace playedTwiceAtOnce
            [.deleteSessionsAndRecompute [1], .begin 2 (.firstDay 1000), .mergeInto 1 2])) := by
  obtain ⟨summary, h_mem, h_ids, h_button⟩ :
      ∃ summary ∈ listSessionsForApplication playedTwiceAtOnce.scan "" 1 50,
        summary.fragmentIds = [2, 1] ∧ canDelete summary = true := by
    decide +kernel
  have h_reach : playedTwiceAtOnce.Reachable :=
    Database.Reachable.empty.run (Op.isRun_trace _ _) (by decide +kernel)
  exact ⟨summary, h_mem, h_ids,
    (stale_delete h_reach h_mem).2 h_button _ (Op.isRun_trace playedTwiceAtOnce _)⟩

end Pages

end Ludex
