import Ludex.Core.Aggregates
import Ludex.Lib.GroupBy

/-!
# The migration to one open session

Migration `0003_one_open_session_per_app.sql` closes the open sessions of an application other than
the latest one, and then creates the unique index that `Tables.Uniques` has from there on.

The tables are those of the schema before it (`OldDatabase`), where an application may have any
number of open sessions and a timestamp is any text. The migration always applies, and changes
nothing but the rows it closes (`migrate_collapses`). The statistics of the applications are not
touched, although sessions are closed: they stay right exactly if there is nothing to close
(`statsAgree_migrate_iff`).
-/

namespace Ludex

namespace Migration

/-! ### The tables before the migration -/

/-- A row of `sessions`. A timestamp is a text. -/
structure SessionRow where
  id : ℤ
  applicationId : ℤ
  startedAt : String
  endedAt : Option String
  heartbeatAt : String
  fullRuntimeSeconds : ℤ
  interactiveRuntimeSeconds : ℤ
  exitReason : Option ExitReason
deriving DecidableEq

/-- The row has `ended_at IS NULL`. -/
def SessionRow.isOpen (s : SessionRow) : Bool := s.endedAt.isNone

/-- The types and `CHECK` constraints of a row of `sessions`. -/
def SessionRow.Checks (s : SessionRow) : Prop :=
  Sql.FitsInteger s.id ∧ Sql.FitsInteger s.fullRuntimeSeconds ∧ 0 ≤ s.fullRuntimeSeconds ∧
    0 ≤ s.interactiveRuntimeSeconds ∧ s.interactiveRuntimeSeconds ≤ s.fullRuntimeSeconds

instance instDecidableSessionRowChecks (s : SessionRow) : Decidable s.Checks :=
  inferInstanceAs (Decidable (_ ∧ _))

/-- The statistics in a row of `applications`. -/
structure StatRow where
  id : ℤ
  statRunCount : ℤ
  statTotalFull : ℤ
  statTotalInteractive : ℤ
  statLongestFull : ℤ
deriving DecidableEq

/-- The `CHECK` constraints of the statistics. -/
def StatRow.Checks (a : StatRow) : Prop :=
  0 ≤ a.statRunCount ∧ 0 ≤ a.statTotalFull ∧ 0 ≤ a.statTotalInteractive ∧
    a.statTotalInteractive ≤ a.statTotalFull ∧ 0 ≤ a.statLongestFull

instance instDecidableStatRowChecks (a : StatRow) : Decidable a.Checks :=
  inferInstanceAs (Decidable (_ ∧ _))

/-- The rows of the two tables. -/
structure OldTables where
  applications : List StatRow
  sessions : List SessionRow
deriving DecidableEq

/-- The schema before the migration. -/
structure OldTables.Admitted (t : OldTables) : Prop where
  statChecks : ∀ a ∈ t.applications, a.Checks
  sessionChecks : ∀ s ∈ t.sessions, s.Checks
  applicationIds : (t.applications.map StatRow.id).Nodup
  sessionIds : (t.sessions.map SessionRow.id).Nodup
  owners : ∀ s ∈ t.sessions, s.applicationId ∈ t.applications.map StatRow.id

/-- A database before the migration. -/
structure OldDatabase extends OldTables where
  admitted : toOldTables.Admitted

/-- The open sessions. -/
def openRows (rows : List SessionRow) : List SessionRow := rows.filter SessionRow.isOpen

/-! ### The statements -/

/-- `SELECT MAX(id) FROM sessions WHERE ended_at IS NULL GROUP BY application_id` -/
def latestOpen (rows : List SessionRow) : List ℤ :=
  (Sql.groupBy SessionRow.applicationId (openRows rows)).filterMap fun group =>
    Sql.maxAgg (fun i j => decide (i < j)) (group.2.map SessionRow.id)

/-- `SET ended_at = COALESCE(heartbeat_at, started_at), exit_reason = 'recovered'` -/
def closeDuplicate (s : SessionRow) : SessionRow :=
  { s with
    endedAt := some ((some s.heartbeatAt).getD s.startedAt)
    exitReason := some .recovered }

/-- `WHERE ended_at IS NULL AND id NOT IN (..)`. The subquery is evaluated on the rows before the
statement. -/
def isDuplicate (rows : List SessionRow) (s : SessionRow) : Bool :=
  s.isOpen && !(latestOpen rows).contains s.id

/-- The `UPDATE`. -/
def collapse (rows : List SessionRow) : List SessionRow :=
  Sql.updateWhere (isDuplicate rows) closeDuplicate rows

/-- The migration: the `UPDATE`, and the unique index in place of the one that is not. -/
def migrate (d : OldDatabase) : Except SqlError OldTables :=
  let rows := collapse d.sessions
  if ∀ s ∈ rows, s.Checks then
    if ((openRows rows).map SessionRow.applicationId).Nodup then
      .ok { d.toOldTables with sessions := rows }
    else .error .unique
  else .error .check

/-! ### The latest open session -/

/-- The session is the open one with the greatest id of its application. -/
def IsLatestOpen (rows : List SessionRow) (s : SessionRow) : Prop :=
  s ∈ rows ∧ s.isOpen = true ∧
    ∀ r ∈ rows, r.isOpen = true → r.applicationId = s.applicationId → r.id ≤ s.id

/-- What becomes of a row: it is closed at its heartbeat if it is open and not the latest one. -/
structure Collapsed (rows : List SessionRow) (s s' : SessionRow) : Prop where
  closed : s.isOpen = false → s' = s
  latest : IsLatestOpen rows s → s' = s
  duplicate : s.isOpen = true → ¬ IsLatestOpen rows s →
    s' = { s with endedAt := some s.heartbeatAt, exitReason := some .recovered }

section Rows

variable {rows : List SessionRow}

/-- **The subquery** selects the ids of the latest open sessions. -/
theorem mem_latestOpen_iff {i : ℤ} : i ∈ latestOpen rows ↔ ∃ s, IsLatestOpen rows s ∧ s.id = i := by
  unfold latestOpen
  rw [List.mem_filterMap]
  have h_asymm : ∀ i j : ℤ, decide (i < j) = true → decide (j < i) = false := Sql.collation_lt.asymm
  have h_trans : ∀ i j k : ℤ, decide (i < j) = false → decide (j < k) = false →
      decide (i < k) = false := Sql.collation_lt.trans
  refine ⟨?_, ?_⟩
  · rintro ⟨⟨owner, members⟩, h_group, h_max⟩
    obtain ⟨-, h_members⟩ := Sql.mem_groupBy.mp h_group
    rw [h_members] at h_max
    obtain ⟨s, h_s, rfl⟩ := List.mem_map.mp (Sql.mem_of_maxAgg _ h_max)
    obtain ⟨h_open, h_owner⟩ := List.mem_filter.mp h_s
    obtain ⟨h_mem, h_isOpen⟩ := List.mem_filter.mp h_open
    refine ⟨s, ⟨h_mem, h_isOpen, fun r hr hr_open hr_owner => ?_⟩, rfl⟩
    -- the other sessions are in the same group
    have h_r : r.id ∈ ((openRows rows).filter fun r => r.applicationId = owner).map SessionRow.id := by
      refine List.mem_map_of_mem (List.mem_filter.mpr ⟨List.mem_filter.mpr ⟨hr, hr_open⟩, ?_⟩)
      rw [hr_owner]
      exact h_owner
    have h_le := Sql.not_lt_maxAgg _ h_asymm h_trans h_max r.id h_r
    exact not_lt.mp (of_decide_eq_false h_le)
  · rintro ⟨s, ⟨h_mem, h_open, h_latest⟩, rfl⟩
    have h_s : s ∈ openRows rows := List.mem_filter.mpr ⟨h_mem, h_open⟩
    have h_group : (s.applicationId,
        (openRows rows).filter fun r => r.applicationId = s.applicationId) ∈
          Sql.groupBy SessionRow.applicationId (openRows rows) :=
      Sql.mem_groupBy.mpr ⟨⟨s, h_s, rfl⟩, rfl⟩
    refine ⟨_, h_group, ?_⟩
    have h_members : s ∈ (openRows rows).filter fun r => r.applicationId = s.applicationId :=
      List.mem_filter.mpr ⟨h_s, by simp⟩
    cases h_max : Sql.maxAgg (fun i j => decide (i < j))
        (((openRows rows).filter fun r => r.applicationId = s.applicationId).map SessionRow.id) with
    | none =>
      rw [Sql.maxAgg_eq_none_iff, List.map_eq_nil_iff] at h_max
      rw [h_max] at h_members
      exact absurd h_members List.not_mem_nil
    | some i =>
      -- no id in the group is greater than that of the latest session
      obtain ⟨r, hr, rfl⟩ := List.mem_map.mp (Sql.mem_of_maxAgg _ h_max)
      obtain ⟨hr_open, hr_owner⟩ := List.mem_filter.mp hr
      obtain ⟨hr_mem, hr_isOpen⟩ := List.mem_filter.mp hr_open
      have h_le := h_latest r hr_mem hr_isOpen (of_decide_eq_true hr_owner)
      have h_ge := Sql.not_lt_maxAgg _ h_asymm h_trans h_max s.id (List.mem_map_of_mem h_members)
      exact congrArg some (le_antisymm h_le (not_lt.mp (of_decide_eq_false h_ge)))

theorem map_id_collapse (rows : List SessionRow) :
    (collapse rows).map SessionRow.id = rows.map SessionRow.id :=
  Sql.map_updateWhere fun _ _ => rfl

/-- An application has one latest open session. -/
theorem IsLatestOpen.unique {s r : SessionRow} (hs : IsLatestOpen rows s)
    (h_ids : (rows.map SessionRow.id).Nodup) (hr : IsLatestOpen rows r)
    (h_owner : s.applicationId = r.applicationId) : s = r := by
  obtain ⟨hs_mem, hs_open, hs_latest⟩ := hs
  obtain ⟨hr_mem, hr_open, hr_latest⟩ := hr
  -- each of the two has the greatest id
  have h_id := le_antisymm (hr_latest s hs_mem hs_open h_owner)
    (hs_latest r hr_mem hr_open h_owner.symm)
  exact Sql.eq_of_key_eq h_ids hs_mem hr_mem h_id

variable (h_ids : (rows.map SessionRow.id).Nodup)

include h_ids

theorem isDuplicate_iff {s : SessionRow} (hs : s ∈ rows) :
    isDuplicate rows s = true ↔ s.isOpen = true ∧ ¬ IsLatestOpen rows s := by
  unfold isDuplicate
  rw [Bool.and_eq_true, Bool.not_eq_true', ← Bool.not_eq_true, List.contains_iff_mem,
    mem_latestOpen_iff]
  refine and_congr_right fun _ => not_congr ⟨?_, fun h => ⟨s, h, rfl⟩⟩
  rintro ⟨r, h_latest, h_id⟩
  rwa [← Sql.eq_of_key_eq h_ids h_latest.1 hs h_id]

/-- **Row by row**, the `UPDATE` closes what is open and not the latest. -/
theorem forall₂_collapse : List.Forall₂ (Collapsed rows) rows (collapse rows) := by
  unfold collapse Sql.updateWhere
  rw [List.forall₂_map_right_iff, List.forall₂_same]
  intro s hs
  refine ⟨fun h_closed => if_neg ?_, fun h_latest => if_neg ?_, fun h_open h_latest => if_pos ?_⟩
  · rw [isDuplicate_iff h_ids hs, h_closed]
    exact fun h => Bool.false_ne_true h.1
  · rw [isDuplicate_iff h_ids hs]
    exact fun h => h.2 h_latest
  · exact (isDuplicate_iff h_ids hs).mpr ⟨h_open, h_latest⟩

/-- **The open sessions that are left** are the latest ones. -/
theorem mem_openRows_collapse {s : SessionRow} :
    s ∈ openRows (collapse rows) ↔ IsLatestOpen rows s := by
  unfold openRows collapse
  rw [List.mem_filter, Sql.mem_updateWhere]
  refine ⟨?_, ?_⟩
  · rintro ⟨⟨r, hr, rfl⟩, h_open⟩
    split at h_open
    · -- a duplicate is closed
      exact nomatch h_open
    next h_kept =>
      rw [if_neg h_kept]
      rw [isDuplicate_iff h_ids hr, not_and, not_not] at h_kept
      exact h_kept h_open
  · intro h_latest
    refine ⟨⟨s, h_latest.1, if_neg ?_⟩, h_latest.2.1⟩
    rw [isDuplicate_iff h_ids h_latest.1]
    exact fun h => h.2 h_latest

/-- **At most one open session** is left to an application. -/
theorem nodup_openRows_collapse : ((openRows (collapse rows)).map SessionRow.applicationId).Nodup := by
  have h_nodup : (openRows (collapse rows)).Nodup := by
    refine List.Nodup.filter _ (List.Nodup.of_map SessionRow.id ?_)
    rw [map_id_collapse]
    exact h_ids
  -- two open sessions that are left to one application are both its latest one
  refine List.Nodup.map_on (fun s hs r hr h_owner => ?_) h_nodup
  exact ((mem_openRows_collapse h_ids).mp hs).unique h_ids ((mem_openRows_collapse h_ids).mp hr)
    h_owner

end Rows

/-- The migration goes through. -/
theorem migrate_eq (d : OldDatabase) :
    migrate d = .ok { d.toOldTables with sessions := collapse d.sessions } := by
  unfold migrate
  have h_checks : ∀ s ∈ collapse d.sessions, s.Checks :=
    Sql.forall_mem_updateWhere d.admitted.sessionChecks fun s hs _ => d.admitted.sessionChecks s hs
  simp only
  -- the checks of the table, and then the unique index
  rw [if_pos h_checks, if_pos (nodup_openRows_collapse d.admitted.sessionIds)]

/-- **The migration always applies and loses nothing.** -/
theorem migrate_collapses (d : OldDatabase) :
    ∃ t, migrate d = .ok t ∧ t.applications = d.applications ∧
      List.Forall₂ (Collapsed d.sessions) d.sessions t.sessions ∧
      (∀ s, s ∈ openRows t.sessions ↔ IsLatestOpen d.sessions s) ∧
      ((openRows t.sessions).map SessionRow.applicationId).Nodup :=
  ⟨_, migrate_eq d, rfl, forall₂_collapse d.admitted.sessionIds,
    fun _ => mem_openRows_collapse d.admitted.sessionIds,
    nodup_openRows_collapse d.admitted.sessionIds⟩

/-! ### The statistics -/

/-- The row is a closed session of the application. -/
def isClosedRow (applicationId : ℤ) (s : SessionRow) : Bool :=
  decide (s.applicationId = applicationId) && !s.isOpen

/-- The closed sessions of an application. -/
def closedRows (rows : List SessionRow) (applicationId : ℤ) : List SessionRow :=
  rows.filter (isClosedRow applicationId)

/-- The statistics of an application are those of its closed sessions. -/
structure StatsAgree (rows : List SessionRow) (a : StatRow) : Prop where
  runCount : a.statRunCount = (closedRows rows a.id).length
  totalFull : a.statTotalFull = ((closedRows rows a.id).map SessionRow.fullRuntimeSeconds).sum
  totalInteractive :
    a.statTotalInteractive = ((closedRows rows a.id).map SessionRow.interactiveRuntimeSeconds).sum
  longestFull :
    a.statLongestFull = ((closedRows rows a.id).map SessionRow.fullRuntimeSeconds).max?.getD 0

section Statistics

variable {rows : List SessionRow}

/-- Where every application has one open session at most, nothing is closed. -/
theorem collapse_eq_self (h_ids : (rows.map SessionRow.id).Nodup)
    (h : ((openRows rows).map SessionRow.applicationId).Nodup) : collapse rows = rows := by
  refine Sql.updateWhere_of_forall_not fun s hs => ?_
  rw [← Bool.not_eq_true, isDuplicate_iff h_ids hs, not_and, not_not]
  intro h_open
  refine ⟨hs, h_open, fun r hr hr_open hr_owner => ?_⟩
  -- the other open session of the application is the session itself
  rw [Sql.eq_of_key_eq h (List.mem_filter.mpr ⟨hr, hr_open⟩) (List.mem_filter.mpr ⟨hs, h_open⟩)
    hr_owner]

/-- The migration closes no session again, and moves none to another application. -/
theorem closedRows_collapse (rows : List SessionRow) (aid : ℤ) :
    ((closedRows (collapse rows) aid).length =
      (rows.filter fun s => isClosedRow aid s ||
        (decide (s.applicationId = aid) && isDuplicate rows s)).length) := by
  unfold closedRows collapse Sql.updateWhere
  rw [List.filter_map, List.length_map]
  refine congrArg List.length (List.filter_congr fun s _ => ?_)
  show isClosedRow aid (if isDuplicate rows s then closeDuplicate s else s) = _
  cases h_duplicate : isDuplicate rows s with
  | false => simp
  | true =>
    by_cases h_owner : s.applicationId = aid
    · simp [isClosedRow, closeDuplicate, SessionRow.isOpen, h_owner]
    · simp [isClosedRow, closeDuplicate, h_owner]

/-- **An application whose duplicate is closed** has more closed sessions than before. -/
theorem length_closedRows_lt {s : SessionRow} (hs : s ∈ rows) (h : isDuplicate rows s = true) :
    (closedRows rows s.applicationId).length <
      (closedRows (collapse rows) s.applicationId).length := by
  rw [closedRows_collapse]
  unfold closedRows
  have h_sub : (rows.filter (isClosedRow s.applicationId)).Sublist
      (rows.filter fun r => isClosedRow s.applicationId r ||
        (decide (r.applicationId = s.applicationId) && isDuplicate rows r)) :=
    List.monotone_filter_right rows fun r h_r => by rw [h_r, Bool.true_or]
  refine lt_of_le_of_ne h_sub.length_le fun h_length => ?_
  -- the duplicate is among the sessions afterwards only
  have h_mem : s ∈ rows.filter (isClosedRow s.applicationId) := by
    rw [h_sub.eq_of_length h_length]
    exact List.mem_filter.mpr ⟨hs, by simp [h]⟩
  have h_closed := (List.mem_filter.mp h_mem).2
  unfold isClosedRow at h_closed
  rw [(Bool.and_eq_true_iff.mp h).1] at h_closed
  simp at h_closed

end Statistics

/-- **The statistics stay right** exactly if every application has one open session at most. -/
theorem statsAgree_migrate_iff (d : OldDatabase)
    (h : ∀ a ∈ d.applications, StatsAgree d.sessions a) :
    (∀ t, migrate d = .ok t → ∀ a ∈ t.applications, StatsAgree t.sessions a) ↔
      ((openRows d.sessions).map SessionRow.applicationId).Nodup := by
  refine ⟨fun h_after => ?_, fun h_nodup t h_t => ?_⟩
  · have h_agree := h_after _ (migrate_eq d)
    have h_nodup : (openRows d.sessions).Nodup :=
      List.Nodup.filter _ (List.Nodup.of_map SessionRow.id d.admitted.sessionIds)
    -- no session is closed, for the number of closed sessions is the same
    have h_latest : ∀ s ∈ openRows d.sessions, IsLatestOpen d.sessions s := by
      intro s hs
      obtain ⟨h_mem, h_open⟩ := List.mem_filter.mp hs
      by_contra h_not
      have h_more := length_closedRows_lt h_mem
        ((isDuplicate_iff d.admitted.sessionIds h_mem).mpr ⟨h_open, h_not⟩)
      obtain ⟨a, ha, h_id⟩ := List.mem_map.mp (d.admitted.owners s h_mem)
      have h_before := (h a ha).runCount
      have h_count := (h_agree a ha).runCount
      rw [h_before, h_id] at h_count
      exact absurd (Nat.cast_inj.mp h_count) h_more.ne
    refine List.Nodup.map_on (fun s hs r hr h_owner => ?_) h_nodup
    exact (h_latest s hs).unique d.admitted.sessionIds (h_latest r hr) h_owner
  · rw [migrate_eq, collapse_eq_self d.admitted.sessionIds h_nodup] at h_t
    obtain rfl := Except.ok.inj h_t
    exact h

/-- A session as the first schema stores it. -/
def storedSession (id : ℤ) (endedAt : Option String) : SessionRow where
  id := id
  applicationId := 1
  startedAt := "2025-01-01T00:00:00Z"
  endedAt := endedAt
  heartbeatAt := "2025-01-01T00:01:00Z"
  fullRuntimeSeconds := 60
  interactiveRuntimeSeconds := 40
  exitReason := none

/-- One session is over, another is running. -/
def oneOpen : OldDatabase where
  applications := [⟨1, 1, 60, 40, 60⟩]
  sessions := [storedSession 1 (some "2025-01-01T00:01:00Z"), storedSession 2 none]
  admitted := ⟨by decide, by decide, by decide, by decide, by decide⟩

theorem statsAgree_migrate_oneOpen :
    (∀ a ∈ oneOpen.applications, StatsAgree oneOpen.sessions a) ∧
      ∀ t, migrate oneOpen = .ok t → ∀ a ∈ t.applications, StatsAgree t.sessions a := by
  have h : ∀ a ∈ oneOpen.applications, StatsAgree oneOpen.sessions a := by
    intro a ha
    obtain rfl := List.mem_singleton.mp ha
    exact ⟨by decide, by decide, by decide, by decide⟩
  exact ⟨h, (statsAgree_migrate_iff oneOpen h).mpr (by decide)⟩

/-- Two daemons have opened a session each. -/
def twoOpen : OldDatabase where
  applications := [⟨1, 0, 0, 0, 0⟩]
  sessions := [storedSession 1 none, storedSession 2 none]
  admitted := ⟨by decide, by decide, by decide, by decide, by decide⟩

/-- The one that is closed is not counted. -/
theorem statsAgree_migrate_twoOpen :
    (∀ a ∈ twoOpen.applications, StatsAgree twoOpen.sessions a) ∧
      ∃ t, migrate twoOpen = .ok t ∧ ∃ a ∈ t.applications, ¬ StatsAgree t.sessions a := by
  refine ⟨?_, _, migrate_eq twoOpen, ⟨1, 0, 0, 0, 0⟩, List.mem_cons_self, fun h => ?_⟩
  · intro a ha
    obtain rfl := List.mem_singleton.mp ha
    exact ⟨by decide, by decide, by decide, by decide⟩
  · exact absurd h.runCount (by decide)

end Migration

end Ludex
