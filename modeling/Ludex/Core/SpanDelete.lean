import Mathlib.Algebra.Order.BigOperators.Group.List
import Ludex.Core.Aggregates
import Ludex.Core.Reachable
import Ludex.Core.SessionMerge

/-!
# Deleting a displayed span

The GUI shows the folded newest sessions of an application, and deletes a span by handing its
fragment ids back. `fold_window` says what the limit does to the fold: all spans but the last are
those of the whole history, and the last one may go on. `deleteSpan` says what a delete of a span
whose fragments are closed does: exactly these rows go, and the counters are rebuilt from the rows
that are left, if the columns can hold them.
-/

namespace Ludex

open SessionRepo SessionMerge

/-! ### The fold of a window -/

section Fold

variable {T : Type} {c : Closures T}

/-- The span a run is made into, if it has a row. -/
def spanOfRun (c : Closures T) : List T → Option (T × List ℤ)
  | [] => none
  | row :: older => some (spanOf c row older)

theorem SessionMerge.Columns.fold_eq (cols : Columns c) (rows : List T) (gap : Gap) :
    fold c rows gap = (runs c gap.duration rows).filterMap (spanOfRun c) := by
  have h_spans := cols.fold_spans rows gap
  generalize runs c gap.duration rows = parts at h_spans ⊢
  generalize fold c rows gap = spans at h_spans ⊢
  induction h_spans with
  | nil => rfl
  | cons h_made _ ih =>
    obtain ⟨row, older, rfl, rfl, -⟩ := h_made
    rw [ih]
    rfl

/-- The spans of the newest rows against those of all rows: the last one may go on. -/
inductive IsWindowOf : List (T × List ℤ) → List (T × List ℤ) → Prop
  | nothing {full : List (T × List ℤ)} : IsWindowOf [] full
  | cut {spans rest : List (T × List ℤ)} {last whole : T × List ℤ} :
      last.2 <+: whole.2 → IsWindowOf (spans ++ [last]) (spans ++ whole :: rest)

/-- **The fold of a window** of the newest rows. -/
theorem SessionMerge.Columns.fold_window (cols : Columns c) (rows older : List T) (gap : Gap) :
    IsWindowOf (fold c rows gap) (fold c (rows ++ older) gap) := by
  by_cases h_rows : rows = []
  · subst h_rows
    exact .nothing
  · obtain ⟨parts, part, more, rest, h_window, h_all⟩ :=
      Splitting.splitBy_append_left (r := fun newer older => !cutBetween c gap.duration newer older)
        h_rows older
    rw [cols.fold_eq, cols.fold_eq, runs, runs, h_window, h_all, List.filterMap_append,
      List.filterMap_append]
    -- the last part has a row, and so has the part it is the beginning of
    cases part with
    | nil =>
      have h_nil : [] ∈ parts ++ [[]] := List.mem_append_right _ List.mem_cons_self
      rw [← h_window] at h_nil
      exact absurd h_nil (List.nil_notMem_splitBy _ rows)
    | cons row tail =>
      have h_ids : (spanOf c row tail).2 <+: (spanOf c row (tail ++ more)).2 := by
        show (row :: tail).map c.idOf <+: (row :: tail ++ more).map c.idOf
        rw [List.map_append]
        exact List.prefix_append _ _
      exact .cut h_ids

end Fold

/-! ### The delete -/

section Delete

variable {d d' : Database}

theorem SessionRepo.resolveOwners_of_closed {ids : List ℤ}
    (h : ∀ s ∈ d.sessions, s.id ∈ ids → s.isOpen = false) :
    ∃ owners, resolveOwners d ids = some owners := by
  -- induction on the ids: a closed row is resolved to its owner, an unknown id is passed over
  induction ids with
  | nil => exact ⟨[], rfl⟩
  | cons id ids ih =>
    obtain ⟨owners, h_owners⟩ := ih fun s hs h_mem => h s hs (List.mem_cons_of_mem _ h_mem)
    unfold resolveOwners
    cases h_find : d.sessions.find? fun s => s.id = id with
    | none => exact ⟨owners, h_owners⟩
    | some s =>
      have h_id : s.id = id := by simpa using List.find?_some h_find
      have h_open := h s (List.mem_of_find?_eq_some h_find) (by rw [h_id]; exact List.mem_cons_self)
      refine ⟨s.applicationId :: owners, ?_⟩
      simp only [h_open, h_owners]
      rfl

/-- Rows may always be deleted. -/
theorem deleteWhere_accepted (d : Database) (p : Session → Bool) :
    ∃ d', Database.execute { d.toTables with sessions := Sql.deleteWhere p d.sessions } = .ok d' := by
  have h_sub : (Sql.deleteWhere p d.sessions).Sublist d.sessions := List.filter_sublist
  refine Exists.imp (fun _ h_ok => h_ok.1) (Database.execute_succeeds ?_ ?_ ?_)
  · exact ⟨d.checks.1, fun s hs => d.checks.2 s (h_sub.subset hs)⟩
  · exact ⟨d.uniques.1, d.uniques.2.1.sublist (h_sub.map _), d.uniques.2.2.1,
      d.uniques.2.2.2.sublist ((h_sub.filter _).map _)⟩
  · exact ⟨fun s hs => d.foreignKeys.1 s (h_sub.subset hs), d.foreignKeys.2⟩

/-- The counters of a list of closed sessions fit their columns. -/
def CountersFit (closed : List Session) : Prop :=
  (closed.length : ℤ) < 2 ^ 63 ∧ (closed.map Session.fullRuntimeSeconds).sum < 2 ^ 63

/-- **The rebuilt row is accepted** if and only if its counters fit. -/
theorem recompute_checks_iff {a : Application} (h_a : Sql.FitsInteger a.id) :
    (recompute d.sessions a).Checks ↔ CountersFit (closedSessions d.sessions a.id) := by
  have h_rows : ∀ s ∈ closedSessions d.sessions a.id, s.Checks := fun s hs =>
    d.checks.2 s (mem_closedSessions.mp hs).1
  have h_agree := AggregatesAgree.recomputed d.sessions a
  have h_count : (0 : ℤ) ≤ (closedSessions d.sessions a.id).length := Int.natCast_nonneg _
  have h_full : 0 ≤ ((closedSessions d.sessions a.id).map Session.fullRuntimeSeconds).sum :=
    List.sum_nonneg (List.forall_mem_map.mpr fun s hs => (h_rows s hs).2.1)
  have h_interactive :
      0 ≤ ((closedSessions d.sessions a.id).map Session.interactiveRuntimeSeconds).sum :=
    List.sum_nonneg (List.forall_mem_map.mpr fun s hs => (h_rows s hs).2.2.2.1)
  have h_le : ((closedSessions d.sessions a.id).map Session.interactiveRuntimeSeconds).sum
      ≤ ((closedSessions d.sessions a.id).map Session.fullRuntimeSeconds).sum :=
    List.sum_le_sum fun s hs => (h_rows s hs).2.2.2.2
  -- the longest runtime is 0 or that of a row
  have h_longest : 0 ≤ ((closedSessions d.sessions a.id).map Session.fullRuntimeSeconds).max?.getD 0
      ∧ ((closedSessions d.sessions a.id).map Session.fullRuntimeSeconds).max?.getD 0 < 2 ^ 63 := by
    cases h_max : ((closedSessions d.sessions a.id).map Session.fullRuntimeSeconds).max? with
    | none => exact ⟨le_rfl, by decide⟩
    | some m =>
      obtain ⟨s, hs, rfl⟩ := List.mem_map.mp (List.max?_mem h_max)
      exact ⟨(h_rows s hs).2.1, (h_rows s hs).2.2.1.2⟩
  unfold Application.Checks CountersFit Sql.FitsInteger at *
  rw [h_agree.runCount, h_agree.totalFull, h_agree.totalInteractive, h_agree.longestFull,
    recompute_id]
  omega

/-- **The counters are rebuilt** if and only if they fit. -/
theorem recomputeApplication_ok_iff {a : Application} (ha : a ∈ d.applications) :
    (∃ d', recomputeApplication d a.id = .ok d') ↔ CountersFit (closedSessions d.sessions a.id) := by
  -- the call succeeds when the recomputed row passes its checks
  rw [← recompute_checks_iff (d.checks.1 a ha).1]
  refine ⟨?_, ?_⟩
  · -- the row is in the table afterwards, which admits no row that fails its checks
    rintro ⟨d', h_ok⟩
    have h_apps : d'.applications
        = Sql.updateWhere (fun x => x.id = a.id) (recompute d.sessions) d.applications := by
      rw [Database.execute_ok h_ok]
    have h_row : recompute d.sessions a ∈ d'.applications := by
      rw [h_apps]
      exact Sql.mem_updateWhere.mpr ⟨a, ha, by simp⟩
    exact d'.checks.1 _ h_row
  · -- nothing but the counters changes, so the other constraints hold as before
    intro h_checks
    have h_ids : (Sql.updateWhere (fun x => x.id = a.id) (recompute d.sessions) d.applications).map
        Application.id = d.applications.map Application.id := Sql.map_updateWhere fun _ _ => rfl
    have h_keys : (Sql.updateWhere (fun x => x.id = a.id) (recompute d.sessions) d.applications).map
        Application.key = d.applications.map Application.key := Sql.map_updateWhere fun _ _ => rfl
    refine Exists.imp (fun _ h_ok => h_ok.1) (Database.execute_succeeds ?_ ?_ ?_)
    · refine ⟨Sql.forall_mem_updateWhere d.checks.1 fun x hx h_id => ?_, d.checks.2⟩
      rw [d.application_unique hx ha (of_decide_eq_true h_id)]
      exact h_checks
    · refine ⟨?_, d.uniques.2.1, ?_, d.uniques.2.2.2⟩
      · rw [h_ids]
        exact d.uniques.1
      · rw [h_keys]
        exact d.uniques.2.2.1
    · refine ⟨fun s hs => ?_, ?_⟩
      · rw [h_ids]
        exact d.foreignKeys.1 s hs
      · exact Sql.forall_mem_updateWhere d.foreignKeys.2 fun x hx _ => d.foreignKeys.2 x hx

/-- The loop of deletes goes through. -/
theorem foldlM_delete_accepted (d : Database) (ids : List ℤ) :
    ∃ d', ids.foldlM (fun (d : Database) id => Database.execute
      { d.toTables with sessions := Sql.deleteWhere (fun s => s.id = id) d.sessions }) d = .ok d' := by
  induction ids generalizing d with
  | nil => exact ⟨d, rfl⟩
  | cons id ids ih =>
    obtain ⟨d₁, h_first⟩ := deleteWhere_accepted d fun s => s.id = id
    obtain ⟨d', h_rest⟩ := ih d₁
    refine ⟨d', ?_⟩
    rw [List.foldlM_cons, h_first]
    exact h_rest

/-- **A delete of closed rows of one application** goes through if and only if the counters of the
rows that are left fit. -/
theorem delete_ok_iff {a : Application} (ha : a ∈ d.applications) {ids : List ℤ}
    (h_found : ∃ s ∈ d.sessions, s.id ∈ ids)
    (h_closed : ∀ s ∈ d.sessions, s.id ∈ ids → s.isOpen = false)
    (h_owner : ∀ s ∈ d.sessions, s.id ∈ ids → s.applicationId = a.id) :
    (∃ d', deleteSessionsAndRecompute d ids = .ok (true, d')) ↔
      CountersFit ((closedSessions d.sessions a.id).filter fun s => s.id ∉ ids) := by
  obtain ⟨owners, h_owners⟩ := resolveOwners_of_closed h_closed
  obtain ⟨-, h_mem⟩ := resolveOwners_eq_some h_owners
  obtain ⟨s, hs, h_id⟩ := h_found
  -- the owners found are all the one application
  have h_dedup : owners.dedup = [a.id] := by
    have h_all : ∀ aid, aid ∈ owners.dedup ↔ aid ∈ [a.id] := by
      intro aid
      rw [List.mem_dedup, h_mem, List.mem_singleton]
      refine ⟨?_, ?_⟩
      · rintro ⟨s', hs', h_id', rfl⟩
        exact h_owner s' hs' h_id'
      · rintro rfl
        exact ⟨s, hs, h_id, h_owner s hs h_id⟩
    exact List.perm_singleton.mp
      ((List.perm_ext_iff_of_nodup owners.nodup_dedup (List.nodup_singleton _)).mpr h_all)
  obtain ⟨d₁, h_deleted⟩ := foldlM_delete_accepted d ids
  have h_tables := foldlM_delete_ok h_deleted
  have ha₁ : a ∈ d₁.applications := by
    rw [h_tables]
    exact ha
  have h_left : closedSessions d₁.sessions a.id
      = (closedSessions d.sessions a.id).filter fun s => s.id ∉ ids := by
    rw [h_tables]
    exact closedSessions_deleteWhere ids d.sessions a.id
  have h_call : deleteSessionsAndRecompute d ids
      = (recomputeApplication d₁ a.id).bind fun d' => .ok (true, d') := by
    have h_ids : ids.isEmpty = false := by
      cases ids with
      | nil => exact absurd h_id List.not_mem_nil
      | cons id ids => rfl
    obtain ⟨owner, rest, rfl⟩ : ∃ owner rest, owners = owner :: rest := by
      cases owners with
      | nil => exact absurd h_dedup (by simp)
      | cons owner rest => exact ⟨owner, rest, rfl⟩
    unfold deleteSessionsAndRecompute
    rw [h_owners, h_ids]
    simp only [h_deleted, h_dedup, Bool.false_eq_true, if_false, List.foldlM_cons, List.foldlM_nil]
    show ((recomputeApplication d₁ a.id).bind pure).bind (fun d' => pure (true, d')) = _
    cases recomputeApplication d₁ a.id <;> rfl
  rw [← h_left, ← recomputeApplication_ok_iff ha₁, h_call]
  refine exists_congr fun d' => ?_
  cases recomputeApplication d₁ a.id with
  | error e => exact iff_of_false (by simp [Except.bind]) (by simp)
  | ok d₂ => simp [Except.bind]

end Delete

/-! ### What is shown is what is deleted -/

section Shown

variable {d : Database}

/-- All sessions of an application, newest first. -/
def history (scan : Scan d) (applicationId : ℤ) : List Session :=
  Sql.orderByDesc OffsetDateTime.textLt Session.startedAt
    (scan.rows.filter fun s => s.applicationId = applicationId)

theorem listForApplication_eq (scan : Scan d) (applicationId : ℤ) (limit : ℕ) :
    listForApplication scan applicationId limit = (history scan applicationId).take limit := rfl

theorem mem_history {scan : Scan d} {applicationId : ℤ} {s : Session} :
    s ∈ history scan applicationId ↔ s ∈ d.sessions ∧ s.applicationId = applicationId := by
  rw [history, Sql.orderByDesc_perm.mem_iff, List.mem_filter, scan.perm.mem_iff, decide_eq_true_eq]

/-- The spans shown for an application. -/
def shown (scan : Scan d) (applicationId : ℤ) (limit : ℕ) (gap : Gap) : List (Session × List ℤ) :=
  mergeAdjacentSession (listForApplication scan applicationId limit) gap

/-- The ids shown are those of the newest rows. -/
theorem shown_ids (scan : Scan d) (applicationId : ℤ) (limit : ℕ) (gap : Gap) :
    (shown scan applicationId limit gap).flatMap Prod.snd
      = ((history scan applicationId).map Session.id).take limit := by
  show (fold sessionClosures _ gap).flatMap Prod.snd = _
  rw [List.flatMap_def, sessionColumns.fragments_eq, ← List.map_flatten, runs,
    List.flatten_splitBy, listForApplication_eq, List.map_take]
  rfl

/-- An id that is shown is that of a row of the application. -/
theorem exists_of_shown {scan : Scan d} {applicationId : ℤ} {limit : ℕ} {gap : Gap}
    {span : Session × List ℤ} (h : span ∈ shown scan applicationId limit gap) {id : ℤ}
    (h_id : id ∈ span.2) : ∃ s ∈ d.sessions, s.id = id ∧ s.applicationId = applicationId := by
  have h_mem : id ∈ (shown scan applicationId limit gap).flatMap Prod.snd :=
    List.mem_flatMap.mpr ⟨span, h, h_id⟩
  rw [shown_ids] at h_mem
  obtain ⟨s, hs, rfl⟩ := List.mem_map.mp (List.mem_of_mem_take h_mem)
  obtain ⟨hs, h_app⟩ := mem_history.mp hs
  exact ⟨s, hs, rfl, h_app⟩

/-- A span has a fragment. -/
theorem exists_fragment {scan : Scan d} {applicationId : ℤ} {limit : ℕ} {gap : Gap}
    {span : Session × List ℤ} (h : span ∈ shown scan applicationId limit gap) :
    ∃ id, id ∈ span.2 := by
  obtain ⟨run, -, row, older, -, rfl, -⟩ :=
    Splitting.exists_of_forall₂ (sessionColumns.fold_spans _ gap) h
  exact ⟨row.id, List.mem_cons_self⟩

/-- What a call that deletes a span has done. -/
structure SpanDeleted (d d' : Database) (applicationId : ℤ) (span : Session × List ℤ) : Prop where
  /-- Exactly the rows of the span are gone. -/
  rows : d'.sessions = d.sessions.filter fun s => s.id ∉ span.2
  /-- No fold of the rows left, in any order and under any limit and gap, has one of the ids. -/
  shown : ∀ (scan : Scan d') (limit : ℕ) (gap : Gap), ∀ span' ∈ shown scan applicationId limit gap,
    ∀ id ∈ span'.2, id ∉ span.2
  /-- The counters of the application are those of its closed rows. -/
  counters : ∀ a ∈ d'.applications, a.id = applicationId → AggregatesAgree d'.sessions a

theorem spanDeleted {d' : Database} {scan : Scan d} {applicationId : ℤ} {limit : ℕ} {gap : Gap}
    {span : Session × List ℤ} (h : span ∈ shown scan applicationId limit gap) {removed : Bool}
    (h_call : deleteSessionsAndRecompute d span.2 = .ok (removed, d')) :
    SpanDeleted d d' applicationId span := by
  have h_rows : d'.sessions = d.sessions.filter fun s => s.id ∉ span.2 := by
    rw [(deleteSessionsAndRecompute_ok h_call).2]
    exact List.filter_congr fun s _ => by rw [decide_not]
  refine ⟨h_rows, ?_, ?_⟩
  · intro scan' limit' gap' span' h_span' id h_id h_gone
    obtain ⟨s, hs, rfl, -⟩ := exists_of_shown h_span' h_id
    rw [h_rows] at hs
    exact absurd h_gone (by simpa using (List.mem_filter.mp hs).2)
  · intro a' ha' h_app
    rw [applications_delete h_call] at ha'
    obtain ⟨a, -, rfl⟩ := Sql.mem_updateWhere.mp ha'
    -- a fragment is a row of the application, so its counters are rebuilt
    obtain ⟨id, h_id⟩ := exists_fragment h
    obtain ⟨s, hs, rfl, h_owner⟩ := exists_of_shown h h_id
    have h_touched : touched d span.2 a.id = true := by
      have h_a : a.id = applicationId := by
        split at h_app
        · exact h_app
        · exact h_app
      exact List.any_eq_true.mpr ⟨s, hs, by simp [h_id, h_a, h_owner]⟩
    rw [if_pos h_touched]
    exact AggregatesAgree.recomputed d'.sessions a

/-- **What is shown is what is deleted, whatever the limit.** The spans shown are those of the whole
history, but for the last one, which may go on there; their ids are those of the newest rows. A
delete of a shown span whose fragments are closed goes through if and only if the counters of the
closed rows that are left fit their columns, and then it has deleted the span. -/
theorem shown_is_deleted (d : Database) (scan : Scan d) (applicationId : ℤ) (limit : ℕ) (gap : Gap) :
    IsWindowOf (shown scan applicationId limit gap)
        (mergeAdjacentSession (history scan applicationId) gap) ∧
      (shown scan applicationId limit gap).flatMap Prod.snd
        = ((history scan applicationId).map Session.id).take limit ∧
      ∀ span ∈ shown scan applicationId limit gap,
        (∀ s ∈ d.sessions, s.id ∈ span.2 → s.isClosed = true) →
          ((∃ d', deleteSessionsAndRecompute d span.2 = .ok (true, d')) ↔
            CountersFit ((closedSessions d.sessions applicationId).filter fun s => s.id ∉ span.2)) ∧
          ∀ removed d', deleteSessionsAndRecompute d span.2 = .ok (removed, d') →
            SpanDeleted d d' applicationId span := by
  refine ⟨?_, shown_ids scan applicationId limit gap, ?_⟩
  · -- the fold sees the first `limit` rows, in the order of the listing
    have h_window := sessionColumns.fold_window ((history scan applicationId).take limit)
      ((history scan applicationId).drop limit) gap
    rw [List.take_append_drop] at h_window
    exact h_window
  · intro span h_span h_closed
    refine ⟨?_, fun removed d' h_call => spanDeleted h_span h_call⟩
    -- the span is not empty, and its owner is the application
    obtain ⟨id, h_id⟩ := exists_fragment h_span
    obtain ⟨s, hs, rfl, h_app⟩ := exists_of_shown h_span h_id
    obtain ⟨a, ha, h_owner⟩ := d.exists_owner hs
    obtain rfl : a.id = applicationId := h_owner.trans h_app
    refine delete_ok_iff ha ⟨s, hs, h_id⟩ ?_ ?_
    · -- the rows of the span are closed, by the button
      intro s' hs' h_id'
      simpa using h_closed s' hs' h_id'
    · intro s' hs' h_id'
      obtain ⟨s'', hs'', h_eq, h_app''⟩ := exists_of_shown h_span h_id'
      rw [← d.session_unique hs'' hs' h_eq]
      exact h_app''

/-- Two sessions are closed for an application that is not there, with runtimes whose sum does not
fit a column, and a third one for its own. -/
def unchargedOverflow : List Op :=
  [.create (newSteam "10" (.firstDay 0)),
    .begin 1 (.firstDay 100), .closeAndRollup 1 7 ⟨2 ^ 62, 0, .firstDay 200⟩ .recovered,
    .begin 1 (.firstDay 1000), .closeAndRollup 2 7 ⟨2 ^ 62, 0, .firstDay 1100⟩ .recovered,
    .begin 1 (.firstDay 2000), .closeAndRollup 3 1 ⟨100, 100, .firstDay 2100⟩ .terminated]

/-- The third session is shown, but it cannot be deleted: the sum of the others is not a 64-bit
number. -/
theorem overflow_keeps_span :
    ¬ ∀ (d : Database) (scan : Scan d) (applicationId : ℤ) (limit : ℕ) (gap : Gap),
      -- the overflow was written by closes that the counters were not charged for
      IsWindowOf (shown scan applicationId limit gap)
          (mergeAdjacentSession (history scan applicationId) gap) ∧
        ∀ span ∈ shown scan applicationId limit gap,
          (∀ s ∈ d.sessions, s.id ∈ span.2 → s.isClosed = true) →
            ∃ d', deleteSessionsAndRecompute d span.2 = .ok (true, d') ∧
              SpanDeleted d d' applicationId span := by
  intro h
  have h_shown : ∃ span ∈ shown
      -- so the rows are closed, and the delete of the span fails all the same
      (Run.final Database.empty (Op.trace .empty unchargedOverflow)).scan 1 1 defaultMergeGap,
      (∀ s ∈ (Run.final Database.empty (Op.trace .empty unchargedOverflow)).sessions,
        s.id ∈ span.2 → s.isClosed = true) ∧
      (deleteSessionsAndRecompute (Run.final Database.empty (Op.trace .empty unchargedOverflow))
        span.2).isOk = false := by
    decide +kernel
  obtain ⟨span, h_span, h_closed, h_error⟩ := h_shown
  obtain ⟨d', h_ok, -⟩ := (h _ _ 1 1 defaultMergeGap).2 span h_span h_closed
  rw [h_ok] at h_error
  exact absurd h_error (by simp [Except.isOk, Except.toBool])

end Shown

end Ludex
