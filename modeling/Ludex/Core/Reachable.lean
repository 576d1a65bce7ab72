import Mathlib.Data.Int.Interval
import Ludex.Core.Aggregates
import Ludex.Core.OpenRows

/-!
# Reachable databases

The databases that the repository calls of all writers can lead to, from the empty one. A session is
closed by the process that opened it, which remembers the application it opened it for; another
process may have merged that application away in the meantime, and the statement then charges no
application (`Call.OwnedOrGone`). So the statistics of an application can fall behind its closed
sessions, but never exceed them (`Database.Reachable.aggregates`).

A call inserts the next rowid or none (`Step.rowids`). Row ids start at one
(`Database.Reachable.ids`), so a table has fewer than `2 ^ 63` sessions and a run count can be
incremented (`Database.Reachable.runCount_fits`). What a call can do to an open row it does not close
is said by `Step.openRow` and `Step.fullRuntime`.

`heartbeat_succeeds` and `closeAndRollup_succeeds` say when the two statements that store a runtime
are accepted by the schema.
-/

namespace Ludex

open SessionRepo ApplicationRepo

/-- A close names the owner of the session, or an application that does not exist. -/
def Call.OwnedOrGone (d : Database) : Call → Prop
  | done (.closeAndRollup sessionId applicationId _ _) =>
    ∀ s ∈ d.sessions, s.id = sessionId →
      s.applicationId = applicationId ∨ ∀ a ∈ d.applications, a.id ≠ applicationId
  | _ => True

instance (d : Database) : (c : Call) → Decidable (c.OwnedOrGone d)
  | .done (.closeAndRollup sessionId applicationId _ _) =>
    inferInstanceAs (Decidable (∀ s ∈ d.sessions, s.id = sessionId →
      s.applicationId = applicationId ∨ ∀ a ∈ d.applications, a.id ≠ applicationId))
  | .done (.create _) | .done (.begin _ _) | .done (.heartbeat _ _)
  | .done (.deleteSessionsAndRecompute _) | .done (.mergeInto _ _) | .failed _ => instDecidableTrue

/-- A database that repository calls lead to. -/
inductive Database.Reachable : Database → Prop
  | empty : Reachable .empty
  | step {d d' : Database} {c : Call} :
      Reachable d → Step d c d' → c.OwnedOrGone d → Reachable d'

/-- What a run leads to is reachable. -/
theorem Database.Reachable.run {d : Database} (h : d.Reachable) {tr : List (Call × Database)}
    (hrun : Run.IsRun Step d tr) (h_owned : ∀ x ∈ Run.steps d tr, x.2.1.OwnedOrGone x.1) :
    (Run.final d tr).Reachable :=
  hrun.invariant_of_steps Database.Reachable (fun d c => c.OwnedOrGone d)
    (fun _ _ _ h_step h_ok h_reach => h_reach.step h_step h_ok) h_owned h _
    (Run.final_mem_states d tr)

/-! ### Row ids -/

/-- **The rowids after a call.** -/
theorem Step.rowids {d d' : Database} {c : Call} (h_step : Step d c d') :
    Sql.RowidChange d.applicationSeq (d.applications.map Application.id)
        d'.applicationSeq (d'.applications.map Application.id) ∧
      Sql.RowidChange d.sessionSeq (d.sessions.map Session.id)
        d'.sessionSeq (d'.sessions.map Session.id) := by
  cases h_step with
  | failed => exact ⟨.of_eq rfl, .of_eq rfl⟩
  | @done _ op h_run =>
    cases op with
    | create new =>
      obtain ⟨⟨a, d₁⟩, h_ok, rfl⟩ := Except.map_eq_ok.mp h_run
      obtain ⟨h_row, h_tables⟩ := create_ok h_ok
      rw [h_tables]
      refine ⟨?_, .of_eq rfl⟩
      show Sql.RowidChange _ _ a.id ((d.applications ++ [a]).map Application.id)
      rw [List.map_append, h_row]
      exact .inserted
    | begin aid startedAt =>
      obtain ⟨⟨row, d₁⟩, h_ok, rfl⟩ := Except.map_eq_ok.mp h_run
      obtain ⟨h_row, h_tables⟩ := begin_ok h_ok
      rw [h_tables]
      refine ⟨.of_eq rfl, ?_⟩
      show Sql.RowidChange _ _ row.id ((d.sessions ++ [row]).map Session.id)
      rw [List.map_append, h_row]
      exact .inserted
    | heartbeat sid snapshot =>
      rw [heartbeat_ok h_run]
      exact ⟨.of_eq rfl, .of_eq (Sql.map_updateWhere fun _ _ => rfl)⟩
    | closeAndRollup sid aid snapshot reason =>
      rcases closeAndRollup_ok h_run with ⟨-, rfl⟩ | ⟨-, h_tables⟩
      · exact ⟨.of_eq rfl, .of_eq rfl⟩
      · rw [h_tables]
        exact ⟨.of_eq (Sql.map_updateWhere fun _ _ => rfl),
          .of_eq (Sql.map_updateWhere fun _ _ => rfl)⟩
    | deleteSessionsAndRecompute ids =>
      obtain ⟨⟨deleted, d₁⟩, h_ok, rfl⟩ := Except.map_eq_ok.mp h_run
      obtain ⟨-, h_tables⟩ := deleteSessionsAndRecompute_ok h_ok
      rw [h_tables]
      exact ⟨.of_eq (Sql.map_updateWhere fun _ _ => rfl), .kept (List.filter_sublist.map _)⟩
    | mergeInto srcId dstId =>
      obtain ⟨-, src, -, -, -, h_tables⟩ := mergeInto_ok h_run
      rw [h_tables]
      refine ⟨.kept ?_, .of_eq ?_⟩
      · -- the destination keeps its id, and the source is deleted
        refine (List.filter_sublist.map _).trans ?_
        have h_updated : (Sql.updateWhere (fun a => decide (a.id = dstId))
            (fun a => applyMetadataFill src (mergeStats src a)) d.applications).map Application.id =
              d.applications.map Application.id := Sql.map_updateWhere fun a _ => by simp
        rw [h_updated]
      · show (reparent srcId dstId d.sessions).map Session.id = d.sessions.map Session.id
        rw [reparent_eq_map, List.map_map]
        refine List.map_congr_left fun s _ => ?_
        show (reparentRow srcId dstId s).id = s.id
        rw [reparentRow_eq]

/-- The rowids handed out so far, and those of the table. -/
structure Tables.PositiveIds (t : Tables) : Prop where
  seq : 0 ≤ t.sessionSeq
  ids : ∀ s ∈ t.sessions, 1 ≤ s.id

theorem Step.positiveIds {d d' : Database} {c : Call} (h_step : Step d c d')
    (h : d.PositiveIds) : d'.PositiveIds where
  seq := h.seq.trans h_step.rowids.2.seq_le
  ids := by
    intro s' hs'
    rcases h_step.rowids.2.mem (List.mem_map_of_mem hs') with h_mem | ⟨h_above, -⟩
    · obtain ⟨s, hs, h_id⟩ := List.mem_map.mp h_mem
      rw [← h_id]
      exact h.ids s hs
    · exact lt_of_le_of_lt h.seq h_above

/-- The ids of the applications after a call: those of before, and a new one above the counter. -/
theorem Step.applicationIds {d d' : Database} {c : Call} (h_step : Step d c d') :
    d.applicationSeq ≤ d'.applicationSeq ∧ ∀ a' ∈ d'.applications,
      (∃ a ∈ d.applications, a.id = a'.id) ∨
        d.applicationSeq < a'.id ∧ a'.id = d'.applicationSeq := by
  refine ⟨h_step.rowids.1.seq_le, fun a' ha' => ?_⟩
  exact (h_step.rowids.1.mem (List.mem_map_of_mem ha')).imp_left List.mem_map.mp

/-- The application existed and does no longer. Its id is not used again. -/
def Database.Gone (d : Database) (aid : ℤ) : Prop :=
  aid ≤ d.applicationSeq ∧ ∀ a ∈ d.applications, a.id ≠ aid

theorem Database.Gone.step {d d' : Database} {c : Call} {aid : ℤ} (h : d.Gone aid)
    (h_step : Step d c d') : d'.Gone aid := by
  obtain ⟨h_seq, h_ids⟩ := h_step.applicationIds
  refine ⟨h.1.trans h_seq, fun a' ha' h_id => ?_⟩
  rcases h_ids a' ha' with ⟨a, ha, h_same⟩ | ⟨h_above, -⟩
  · exact h.2 a ha (h_same.trans h_id)
  · have h_le := h.1
    omega

/-- The source of a merge is gone. -/
theorem mergeInto_gone {d d' : Database} {srcId dstId : ℤ} (h : mergeInto d srcId dstId = .ok d')
    (h_ids : ∀ a ∈ d.applications, a.id ≤ d.applicationSeq) : d'.Gone srcId := by
  obtain ⟨-, src, h_src, rfl, -, h_tables⟩ := mergeInto_ok h
  unfold Database.Gone
  rw [h_tables]
  refine ⟨h_ids src h_src, fun a ha => ?_⟩
  simpa using (List.mem_filter.mp ha).2

/-! ### Statistics -/

/-- The statistics of an application row do not exceed those of its closed sessions. -/
structure AggregatesBounded (sessions : List Session) (a : Application) : Prop where
  runCount : a.statRunCount ≤ (closedSessions sessions a.id).length
  totalFull :
    a.statTotalFull ≤ ((closedSessions sessions a.id).map Session.fullRuntimeSeconds).sum

section

variable {d d' : Database}

theorem AggregatesAgree.bounded {rows : List Session} {a : Application}
    (h : AggregatesAgree rows a) : AggregatesBounded rows a := ⟨h.runCount.le, h.totalFull.le⟩

/-- A session more among the closed ones, with the application charged or not. -/
theorem AggregatesBounded.closed {a a' : Application} {s : Session}
    (h : AggregatesBounded d.sessions a) (h_id : a'.id = a.id)
    (h_perm : (closedSessions d'.sessions a.id).Perm (s :: closedSessions d.sessions a.id))
    (h_count : a'.statRunCount ≤ a.statRunCount + 1)
    (h_total : a'.statTotalFull ≤ a.statTotalFull + s.fullRuntimeSeconds) :
    AggregatesBounded d'.sessions a' where
  -- one more closed row against at most one more run
  runCount := by
    have h_before := h.runCount
    rw [h_id, h_perm.length_eq, List.length_cons, Nat.cast_add, Nat.cast_one]
    omega
  totalFull := by
    have h_before := h.totalFull
    -- and its runtime against at most as much more in the total
    have h_sum := (h_perm.map Session.fullRuntimeSeconds).sum_eq
    rw [h_id, h_sum, List.map_cons, List.sum_cons]
    omega

/-- The addition of a merge. -/
theorem AggregatesBounded.merged {src dst : Application} (h_src : AggregatesBounded d.sessions src)
    (h_dst : AggregatesBounded d.sessions dst)
    (h_perm : (closedSessions d'.sessions dst.id).Perm
      (closedSessions d.sessions dst.id
        ++ (closedSessions d.sessions src.id).map fun s => { s with applicationId := dst.id })) :
    AggregatesBounded d'.sessions (applyMetadataFill src (mergeStats src dst)) := by
  have h_id : (applyMetadataFill src (mergeStats src dst)).id = dst.id := by simp
  -- both sides are sums over disjoint rows, so the bounds add up
  refine ⟨?_, ?_⟩
  · have h_len := h_perm.length_eq
    rw [List.length_append, List.length_map] at h_len
    rw [h_id, h_len, Nat.cast_add]
    exact add_le_add h_dst.runCount h_src.runCount
  · have h_sum := (column_merged (g := Session.fullRuntimeSeconds) (fun _ => rfl) h_perm).sum_eq
    rw [h_id, h_sum, List.sum_append]
    exact add_le_add h_dst.totalFull h_src.totalFull

theorem AggregatesBounded.step {c : Call} (h : Step d c d') (h_owned : c.OwnedOrGone d)
    (h_inv : ∀ a ∈ d.applications, AggregatesBounded d.sessions a) :
    ∀ a' ∈ d'.applications, AggregatesBounded d'.sessions a' := by
  intro a' ha'
  cases h.rowChange ha' with
  | kept ha h_rows =>
    refine ⟨?_, ?_⟩
    · rw [h_rows]; exact (h_inv a' ha).runCount
    · rw [h_rows]; exact (h_inv a' ha).totalFull
  | created h_none => exact (AggregatesAgree.created h_none).bounded
  | closed ha hs ho h_own h_perm => exact (h_inv _ ha).closed rfl h_perm (le_refl _) (le_refl _)
  | charged ha hs ho h_other h_rows =>
    rcases h_owned _ hs rfl with h_owner | h_gone
    · exact absurd h_owner h_other
    · exact absurd rfl (h_gone _ ha)
  | @uncharged _ s aid snapshot reason ha hs ho h_own h_other h_perm =>
    -- the runtime the row was closed with is not negative
    have h_mem : closeRow snapshot reason s ∈ closedSessions d'.sessions a'.id :=
      h_perm.mem_iff.mpr List.mem_cons_self
    have h_checks := d'.checks.2 _ (mem_closedSessions.mp h_mem).1
    refine (h_inv _ ha).closed rfl h_perm (by omega) ?_
    exact le_add_of_nonneg_right h_checks.2.1
  | recomputed ha h_touched h_rows => exact (AggregatesAgree.recomputed d'.sessions _).bounded
  | merged h_src h_dst h_ne h_perm => exact (h_inv _ h_src).merged (h_inv _ h_dst) h_perm

end

/-- There are fewer distinct ids from one on than their bound. -/
theorem length_lt_of_nodup {ids : List ℤ} (h_nodup : ids.Nodup) {n : ℤ} (hn : 1 ≤ n)
    (h_ids : ∀ i ∈ ids, 1 ≤ i ∧ i < n) : (ids.length : ℤ) < n := by
  have h_sub : ids.toFinset ⊆ Finset.Ico 1 n := by
    intro i hi
    exact Finset.mem_Ico.mpr (h_ids i (List.mem_toFinset.mp hi))
  have h_card := Finset.card_le_card h_sub
  rw [Int.card_Ico, List.toFinset_card_of_nodup h_nodup] at h_card
  omega

namespace Database.Reachable

variable {d : Database}

/-- **The statistics of a reachable database** do not exceed those of its sessions. -/
theorem aggregates (h : d.Reachable) :
    ∀ a ∈ d.applications, AggregatesBounded d.sessions a := by
  induction h with
  | empty => exact fun a ha => absurd ha List.not_mem_nil
  | step _ h_step h_owned ih => exact AggregatesBounded.step h_step h_owned ih

theorem ids (h : d.Reachable) : d.PositiveIds := by
  induction h with
  | empty => exact ⟨le_refl 0, fun s hs => absurd hs List.not_mem_nil⟩
  | step _ h_step _ ih => exact h_step.positiveIds ih

theorem sessionIds (h : d.Reachable) : ∀ s ∈ d.sessions, s.id ≤ d.sessionSeq := by
  induction h with
  | empty => exact fun s hs => absurd hs List.not_mem_nil
  | step _ h_step _ ih =>
    intro s' hs'
    rcases h_step.rowids.2.mem (List.mem_map_of_mem hs') with h_mem | ⟨-, h_new⟩
    · obtain ⟨s, hs, h_id⟩ := List.mem_map.mp h_mem
      rw [← h_id]
      exact (ih s hs).trans h_step.rowids.2.seq_le
    · exact h_new.le

theorem applicationIds (h : d.Reachable) : ∀ a ∈ d.applications, a.id ≤ d.applicationSeq := by
  induction h with
  | empty => exact fun a ha => absurd ha List.not_mem_nil
  | step _ h_step _ ih =>
    obtain ⟨h_seq, h_ids⟩ := h_step.applicationIds
    intro a' ha'
    rcases h_ids a' ha' with ⟨a, ha, h_same⟩ | ⟨-, h_new⟩
    · rw [← h_same]
      exact (ih a ha).trans h_seq
    · exact h_new.le

end Database.Reachable

/-! ### Open rows -/

section

variable {d d' : Database} {c : Call} {sid owner : ℤ}

/-- **An open row stays open** unless the call closes it, and changes its owner only if that is
gone. -/
theorem Step.openRow (h_step : Step d c d') (h_reach : d.Reachable)
    (h_open : (sid, owner) ∈ d.openRows)
    (h_closes : ∀ aid snapshot reason, c ≠ .done (.closeAndRollup sid aid snapshot reason)) :
    ∃ owner', (sid, owner') ∈ d'.openRows ∧ (owner' = owner ∨ d'.Gone owner) := by
  cases h_step with
  | failed => exact ⟨owner, h_open, Or.inl rfl⟩
  | @done _ op h_run =>
    cases op with
    | create new =>
      obtain ⟨⟨a, d₁⟩, h_ok, rfl⟩ := Except.map_eq_ok.mp h_run
      rw [(create_rows h_ok).1]
      exact ⟨owner, h_open, Or.inl rfl⟩
    | begin aid startedAt =>
      obtain ⟨⟨row, d₁⟩, h_ok, rfl⟩ := Except.map_eq_ok.mp h_run
      -- a row is added
      rw [(begin_rows h_ok).1]
      exact ⟨owner, List.mem_append_left _ h_open, Or.inl rfl⟩
    | heartbeat sid' snapshot =>
      rw [(heartbeat_rows h_run).1]
      exact ⟨owner, h_open, Or.inl rfl⟩
    | closeAndRollup sid' aid snapshot reason =>
      -- one row is taken away, and it is not this one
      rw [(closeAndRollup_rows h_run).1]
      refine ⟨owner, List.mem_filter.mpr ⟨h_open, decide_eq_true ?_⟩, Or.inl rfl⟩
      rintro rfl
      exact h_closes aid snapshot reason rfl
    | deleteSessionsAndRecompute ids =>
      obtain ⟨⟨deleted, d₁⟩, h_ok, rfl⟩ := Except.map_eq_ok.mp h_run
      -- only closed rows are deleted
      rw [deleteSessionsAndRecompute_rows h_ok]
      exact ⟨owner, h_open, Or.inl rfl⟩
    | mergeInto srcId dstId =>
      -- the row follows the merge, which leaves the source behind
      refine ⟨_, mergeInto_rows h_run h_open, ?_⟩
      by_cases h_moved : owner = srcId
      · rw [h_moved]
        exact Or.inr (mergeInto_gone h_run h_reach.applicationIds)
      · exact Or.inl (if_neg h_moved)

/-- **The runtime of an open row** is the old one, unless the call closes the row, or stores one. -/
theorem Step.fullRuntime (h_step : Step d c d') (h_open : (sid, owner) ∈ d.openRows)
    (h_closes : ∀ aid snapshot reason, c ≠ .done (.closeAndRollup sid aid snapshot reason))
    {s' : Session} (hs' : s' ∈ d'.sessions) (h_id : s'.id = sid) :
    (∃ s ∈ d.sessions, s.id = sid ∧ s.fullRuntimeSeconds = s'.fullRuntimeSeconds) ∨
      ∃ snapshot, c = .done (.heartbeat sid snapshot) ∧
        s'.fullRuntimeSeconds = snapshot.fullRuntimeSeconds := by
  cases h_step with
  | failed => exact Or.inl ⟨s', hs', h_id, rfl⟩
  | @done _ op h_run =>
    cases op with
    | create new =>
      obtain ⟨⟨a, d₁⟩, h_ok, rfl⟩ := Except.map_eq_ok.mp h_run
      rw [(create_ok h_ok).2] at hs'
      exact Or.inl ⟨s', hs', h_id, rfl⟩
    | begin aid startedAt =>
      obtain ⟨⟨row, d₁⟩, h_ok, rfl⟩ := Except.map_eq_ok.mp h_run
      rw [(begin_ok h_ok).2] at hs'
      rcases List.mem_append.mp hs' with hs | hs
      · exact Or.inl ⟨s', hs, h_id, rfl⟩
      · -- the new row has an id that no row had
        obtain ⟨s, hs₀, -, h_same, -⟩ := Database.mem_openRows.mp h_open
        obtain ⟨-, -, h_fresh⟩ := begin_rows h_ok
        rw [← List.mem_singleton.mp hs, h_id, ← h_same] at h_fresh
        exact absurd (List.mem_map_of_mem hs₀) h_fresh
    | heartbeat sid' snapshot =>
      -- the one call that stores a runtime and leaves the row open
      rw [heartbeat_ok h_run] at hs'
      obtain ⟨s, hs, rfl⟩ := Sql.mem_updateWhere.mp hs'
      by_cases h_row : isOpenRow sid' s = true
      · rw [if_pos h_row] at h_id ⊢
        have h_sid : s.id = sid' := of_decide_eq_true (Bool.and_eq_true_iff.mp h_row).1
        exact Or.inr ⟨snapshot, by rw [← h_sid, ← h_id], rfl⟩
      · rw [if_neg h_row] at h_id ⊢
        exact Or.inl ⟨s, hs, h_id, rfl⟩
    | closeAndRollup sid' aid snapshot reason =>
      -- the row that is written is another one
      rcases closeAndRollup_ok h_run with ⟨-, rfl⟩ | ⟨-, h_tables⟩
      · exact Or.inl ⟨s', hs', h_id, rfl⟩
      rw [h_tables] at hs'
      obtain ⟨s, hs, rfl⟩ := Sql.mem_updateWhere.mp hs'
      by_cases h_row : isOpenRow sid' s = true
      · rw [if_pos h_row] at h_id
        have h_sid : s.id = sid' := of_decide_eq_true (Bool.and_eq_true_iff.mp h_row).1
        obtain rfl : sid' = sid := h_sid.symm.trans h_id
        exact absurd rfl (h_closes aid snapshot reason)
      · rw [if_neg h_row] at h_id ⊢
        exact Or.inl ⟨s, hs, h_id, rfl⟩
    | deleteSessionsAndRecompute ids =>
      obtain ⟨⟨deleted, d₁⟩, h_ok, rfl⟩ := Except.map_eq_ok.mp h_run
      rw [(deleteSessionsAndRecompute_ok h_ok).2] at hs'
      exact Or.inl ⟨s', (List.mem_filter.mp hs').1, h_id, rfl⟩
    | mergeInto srcId dstId =>
      obtain ⟨-, src, -, -, -, h_tables⟩ := mergeInto_ok h_run
      rw [h_tables] at hs'
      change s' ∈ reparent srcId dstId d.sessions at hs'
      rw [reparent_eq_map] at hs'
      obtain ⟨s, hs, rfl⟩ := List.mem_map.mp hs'
      -- only the owner changes
      rw [reparentRow_eq] at h_id ⊢
      exact Or.inl ⟨s, hs, h_id, rfl⟩

end

namespace Database.Reachable

variable {d : Database}

/-- A table has fewer sessions than there are rowids. -/
theorem sessions_length_lt (h : d.Reachable) : (d.sessions.length : ℤ) < 2 ^ 63 := by
  rw [← List.length_map (f := Session.id)]
  refine length_lt_of_nodup d.session_ids_nodup (by decide) fun i hi => ?_
  obtain ⟨s, hs, rfl⟩ := List.mem_map.mp hi
  exact ⟨h.ids.ids s hs, (d.checks.2 s hs).1.2⟩

/-- While a session is open, the run count of an application is not the greatest one. -/
theorem runCount_fits (h : d.Reachable) {a : Application} (ha : a ∈ d.applications) {s : Session}
    (hs : s ∈ d.sessions) (h_open : s.isOpen = true) : a.statRunCount + 1 < 2 ^ 63 := by
  have h_all := h.sessions_length_lt
  -- the open session is not among the closed ones
  have h_count : (closedSessions d.sessions a.id).length < d.sessions.length := by
    unfold closedSessions
    rw [List.length_filter_lt_length_iff_exists]
    refine ⟨s, hs, ?_⟩
    unfold isClosedOf
    rw [Session.isClosed_eq_not_isOpen, h_open]
    simp
  have h_le := (h.aggregates a ha).runCount
  omega

end Database.Reachable

/-- The run counts of two applications have a sum that fits a column. -/
theorem Database.Reachable.runCounts_fit {d : Database} (h : d.Reachable) {a b : Application}
    (ha : a ∈ d.applications) (hb : b ∈ d.applications) (hne : a.id ≠ b.id) :
    a.statRunCount + b.statRunCount < 2 ^ 63 := by
  -- no session is closed for both
  have h_disjoint : ∀ s, isClosedOf a.id s = true → isClosedOf b.id s = false := by
    intro s hs
    rw [isClosedOf, Bool.and_eq_true, decide_eq_true_eq] at hs
    simp [isClosedOf, hs.1, hne]
  have h_both := (Sql.filter_or_perm h_disjoint d.sessions).length_eq
  rw [List.length_append] at h_both
  have h_le := List.length_filter_le (fun s => isClosedOf a.id s || isClosedOf b.id s) d.sessions
  have h_all := h.sessions_length_lt
  have h_a := (h.aggregates a ha).runCount
  have h_b := (h.aggregates b hb).runCount
  unfold closedSessions at h_a h_b
  omega

/-! ### Statements the schema accepts -/

/-- The runtimes of a snapshot are in range, and the interactive one does not exceed the full
one. -/
def RuntimeSnapshot.Checks (snapshot : RuntimeSnapshot) : Prop :=
  0 ≤ snapshot.fullRuntimeSeconds ∧ Sql.FitsInteger snapshot.fullRuntimeSeconds ∧
    0 ≤ snapshot.interactiveRuntimeSeconds ∧
    snapshot.interactiveRuntimeSeconds ≤ snapshot.fullRuntimeSeconds

/-- The session row after a heartbeat. -/
def heartbeatRow (snapshot : RuntimeSnapshot) (s : Session) : Session :=
  { s with
    heartbeatAt := snapshot.at_
    fullRuntimeSeconds := snapshot.fullRuntimeSeconds
    interactiveRuntimeSeconds := snapshot.interactiveRuntimeSeconds }

theorem Database.execute_succeeds {t : Tables} (hc : t.Checks) (hu : t.Uniques)
    (hf : t.ForeignKeys) : ∃ d, Database.execute t = .ok d ∧ d.toTables = t := by
  refine ⟨⟨t, hc, hu, hf⟩, ?_, rfl⟩
  unfold Database.execute Database.write
  rw [dif_pos hc, dif_pos hu, dif_pos hf]
  rfl

section Writes

variable {d : Database}

/-- A row can only leave the open ones. -/
theorem openRow_sublist {sid : ℤ} {f : Session → Session}
    (h_id : ∀ s, (f s).id = s.id ∧ (f s).applicationId = s.applicationId) (rows : List Session) :
    (((Sql.updateWhere (isOpenRow sid) f rows).filter Session.isOpen).map
      Session.applicationId).Sublist ((rows.filter Session.isOpen).map Session.applicationId) := by
  -- induction on the rows: the update may close the one it changes, which only drops an id
  induction rows with
  | nil => exact List.Sublist.refl _
  | cons s rows ih =>
    unfold Sql.updateWhere at ih ⊢
    rw [List.map_cons]
    by_cases h_row : isOpenRow sid s = true
    · -- only an open row is changed
      have h_open : s.isOpen = true := (Bool.and_eq_true_iff.mp h_row).2
      rw [if_pos h_row, List.filter_cons_of_pos h_open, List.map_cons]
      by_cases h_after : (f s).isOpen = true
      · rw [List.filter_cons_of_pos h_after, List.map_cons, (h_id s).2]
        exact ih.cons_cons _
      · rw [List.filter_cons_of_neg h_after]
        exact ih.cons _
    · rw [if_neg h_row]
      by_cases h_open : s.isOpen = true
      · rw [List.filter_cons_of_pos h_open, List.filter_cons_of_pos h_open]
        exact ih.cons_cons _
      · rw [List.filter_cons_of_neg h_open, List.filter_cons_of_neg h_open]
        exact ih

/-- **An update of one open row is accepted** when it keeps the identity of the row and leaves it in
range. -/
theorem updateOpenRow_accepted (d : Database) (sid : ℤ) {f : Session → Session}
    (h_id : ∀ s, (f s).id = s.id ∧ (f s).applicationId = s.applicationId)
    (h_checks : ∀ s, s.Checks → (f s).Checks) :
    ∃ d', Database.execute
        { d.toTables with sessions := Sql.updateWhere (isOpenRow sid) f d.sessions } = .ok d' ∧
      d'.toTables =
        { d.toTables with sessions := Sql.updateWhere (isOpenRow sid) f d.sessions } := by
  have h_ids : (Sql.updateWhere (isOpenRow sid) f d.sessions).map Session.id =
      d.sessions.map Session.id := Sql.map_updateWhere fun s _ => (h_id s).1
  apply Database.execute_succeeds
  · -- the checks of the rows that change are the caller's premise
    exact ⟨d.checks.1, Sql.forall_mem_updateWhere d.checks.2 fun s hs _ =>
      h_checks s (d.checks.2 s hs)⟩
  · refine ⟨d.uniques.1, ?_, d.uniques.2.2.1, ?_⟩
    · rw [h_ids]
      exact d.uniques.2.1
    · -- the open rows are at most those of before, one for each application
      exact d.uniques.2.2.2.sublist (openRow_sublist h_id d.sessions)
  · -- every session still names an application that is there
    refine ⟨Sql.forall_mem_updateWhere d.foreignKeys.1 fun s hs _ => ?_, d.foreignKeys.2⟩
    rw [(h_id s).2]
    exact d.foreignKeys.1 s hs

/-- **A heartbeat is accepted** when the runtimes of its snapshot are. -/
theorem heartbeat_succeeds (d : Database) (sid : ℤ) {snapshot : RuntimeSnapshot}
    (h_snapshot : snapshot.Checks) : ∃ d', heartbeat d sid snapshot = .ok d' := by
  obtain ⟨d', h_ok, -⟩ := updateOpenRow_accepted d sid (f := heartbeatRow snapshot)
    (fun _ => ⟨rfl, rfl⟩) fun _ h_row => ⟨h_row.1, h_snapshot⟩
  exact ⟨d', h_ok⟩

/-- The aggregates stay in range when a close is added to them. -/
theorem rollup_checks {a : Application} (h : a.Checks) {snapshot : RuntimeSnapshot}
    (h_snapshot : snapshot.Checks) (h_count : a.statRunCount + 1 < 2 ^ 63)
    (h_total : a.statTotalFull + snapshot.fullRuntimeSeconds < 2 ^ 63) :
    (rollup snapshot a).Checks := by
  obtain ⟨h_id, h_runs, -, h_full, -, h_interactive, h_le, h_longest, h_longest_fits⟩ := h
  obtain ⟨h₀, h_fits, h₁, h₂⟩ := h_snapshot
  unfold Sql.FitsInteger at h_fits h_longest_fits
  refine ⟨h_id, ?_, ⟨?_, h_count⟩, ?_, ⟨?_, h_total⟩, ?_, ?_, ?_, ⟨?_, ?_⟩⟩ <;>
    simp only [rollup] <;> omega

/-- The statement that adds a close to its application is accepted when the row it leaves is in
range, or there is none. -/
theorem rollup_accepted {aid : ℤ} {snapshot : RuntimeSnapshot}
    (h_checks : ∀ a ∈ d.applications, a.id = aid → (rollup snapshot a).Checks) :
    ∃ d', Database.execute
        { d.toTables with
          applications := Sql.updateWhere (fun a => a.id = aid) (rollup snapshot)
            d.applications } = .ok d' := by
  -- neither ids nor keys change, so the unique indexes and the foreign keys stand
  have h_ids : (Sql.updateWhere (fun a => a.id = aid) (rollup snapshot) d.applications).map
      Application.id = d.applications.map Application.id := Sql.map_updateWhere fun _ _ => rfl
  have h_keys : (Sql.updateWhere (fun a => a.id = aid) (rollup snapshot) d.applications).map
      Application.key = d.applications.map Application.key := Sql.map_updateWhere fun _ _ => rfl
  refine Exists.imp (fun _ h_ok => h_ok.1) (Database.execute_succeeds ?_ ?_ ?_)
  · exact ⟨Sql.forall_mem_updateWhere d.checks.1 fun a ha h_id =>
      h_checks a ha (of_decide_eq_true h_id), d.checks.2⟩
  · refine ⟨?_, d.uniques.2.1, ?_, d.uniques.2.2.2⟩
    · rw [h_ids]
      exact d.uniques.1
    · rw [h_keys]
      exact d.uniques.2.2.1
  · refine ⟨fun s hs => ?_, ?_⟩
    · rw [h_ids]
      exact d.foreignKeys.1 s hs
    · exact Sql.forall_mem_updateWhere d.foreignKeys.2 fun a ha _ => d.foreignKeys.2 a ha

/-- The runtime of the closed sessions of an application. -/
def Database.closedRuntime (d : Database) (aid : ℤ) : ℤ :=
  ((closedSessions d.sessions aid).map Session.fullRuntimeSeconds).sum

/-- **A close is accepted** when the runtimes of its snapshot are, and the application it is added
to has room for them. -/
theorem closeAndRollup_succeeds (h_reach : d.Reachable) {s : Session} (hs : s ∈ d.sessions)
    (h_open : s.isOpen = true) (aid : ℤ) {snapshot : RuntimeSnapshot}
    (h_snapshot : snapshot.Checks) (reason : ExitReason)
    (h_room : d.closedRuntime aid + snapshot.fullRuntimeSeconds < 2 ^ 63) :
    ∃ d', closeAndRollup d s.id aid snapshot reason = .ok d' := by
  obtain ⟨closed, h_closed, h_tables⟩ := updateOpenRow_accepted d s.id
    (f := closeRow snapshot reason) (fun _ => ⟨rfl, rfl⟩) fun _ h_row => ⟨h_row.1, h_snapshot⟩
  -- the total after the close stays below the integer limit, by the room that is left
  have h_checks : ∀ a ∈ closed.applications, a.id = aid → (rollup snapshot a).Checks := by
    intro a ha h_id
    rw [h_tables] at ha
    have h_total : a.statTotalFull ≤ d.closedRuntime aid := by
      rw [← h_id]
      exact (h_reach.aggregates a ha).totalFull
    exact rollup_checks (d.checks.1 a ha) h_snapshot (h_reach.runCount_fits ha hs h_open) (by omega)
  obtain ⟨d', h_ok⟩ := rollup_accepted h_checks
  -- the row is open, so the update does change one and the call goes on to the rollup
  have h_affected : d.sessions.countP (isOpenRow s.id) ≠ 0 := by
    refine (List.countP_pos_iff.mpr ⟨s, hs, ?_⟩).ne'
    unfold isOpenRow
    rw [h_open, decide_eq_true rfl]
    rfl
  refine ⟨d', Except.bind_eq_ok.mpr ⟨closed, h_closed, ?_⟩⟩
  rw [if_neg h_affected]
  exact h_ok

/-- A close leaves the closed sessions of an application alone that is not the owner. -/
theorem closedRuntime_close {d' : Database} {sid aid owner other : ℤ} {snapshot : RuntimeSnapshot}
    {reason : ExitReason} (h : closeAndRollup d sid aid snapshot reason = .ok d')
    (h_row : (sid, owner) ∈ d.openRows) (h_other : owner ≠ other) :
    d'.closedRuntime other = d.closedRuntime other := by
  rcases closeAndRollup_ok h with ⟨-, rfl⟩ | ⟨-, h_tables⟩
  · rfl
  obtain ⟨s₀, hs₀, -, h_id₀, h_app⟩ := Database.mem_openRows.mp h_row
  unfold Database.closedRuntime
  rw [h_tables]
  refine congrArg _ (congrArg _ (closedSessions_updateWhere fun s hs h_open x h_x h_own => ?_))
  -- the row that is closed belongs to the owner
  have h_sid : s.id = sid := of_decide_eq_true (Bool.and_eq_true_iff.mp h_open).1
  obtain rfl := d.session_unique hs hs₀ (h_sid.trans h_id₀.symm)
  have h_same : x.applicationId = s.applicationId := by
    rcases h_x with rfl | rfl
    · rfl
    · rfl
  exact absurd (h_app.symm.trans (h_same.symm.trans h_own)) h_other

/-- An application that is gone has no session. -/
theorem Database.Gone.closedRuntime {aid : ℤ} (h : d.Gone aid) : d.closedRuntime aid = 0 := by
  have h_none : closedSessions d.sessions aid = [] := by
    refine List.filter_eq_nil_iff.mpr fun s hs h_s => ?_
    obtain ⟨a, ha, h_owner⟩ := d.exists_owner hs
    have h_app : s.applicationId = aid := of_decide_eq_true (Bool.and_eq_true_iff.mp h_s).1
    exact h.2 a ha (h_owner.trans h_app)
  unfold Database.closedRuntime
  rw [h_none]
  rfl

end Writes

end Ludex
