import Ludex.Core.DailyPlaytime

/-!
# The year on the activity page

`list_daily_playtime` of `dbus.rs`, and what the activity page makes of its rows: the heatmap of
`dashboardCharts.ts` and the totals of the year. The daemon goes back `days` times 24 hours and
starts with the local day it arrives at; the page counts `days` local days that end with today.

In a zone whose offset does not change the daemon arrives at the day *before* the first one of the
page (`firstDay_of_offset_eq`), so `days + 1` days are covered. `listDailyPlaytime_covers_iff` says
for which sessions this makes no difference, in any zone, and `yearTotals_eq_heatmapTotals` that the
totals are those of the heatmap when all rows are inside its window. `extraDay_counted` is a session
of the extra day.
-/

namespace Ludex

open SessionRepo

/-- A time zone: how far its local time is ahead of UTC at each instant. -/
structure Zone where
  offsetSeconds : ℤ → ℤ

namespace Zone

def nanosPerDay : ℤ := 86400 * Calendar.nanosPerSecond

/-- The local calendar day of an instant, as the number of days since 1970-01-01. -/
def dayAt (zone : Zone) (nanos : ℤ) : ℤ :=
  (nanos + zone.offsetSeconds nanos * Calendar.nanosPerSecond) / nanosPerDay

/-- `DATE(t, 'localtime')`. -/
def day (zone : Zone) (t : OffsetDateTime) : ℤ := zone.dayAt t.unixNanos

/-- The zone of UTC. -/
def utc : Zone := ⟨fun _ => 0⟩

end Zone

/-! ### The daemon -/

namespace Tracker

/-- `days.clamp(1, 3650)`. -/
def clampDays (days : ℕ) : ℕ := min 3650 (max 1 days)

/-- `OffsetDateTime::now_utc() - Duration::days(days)`, encoded as a parameter of the query. -/
def dailyCutoff (now : OffsetDateTime) (days : ℕ) : Option OffsetDateTime :=
  LocalDateTime.toUtc ⟨now.unixNanos - clampDays days * Zone.nanosPerDay, 0⟩

/-- Per-day aggregate runtime for the last `days` days. `none` is a call that fails. -/
def listDailyPlaytime (zone : Zone) {d : Database} (scan : Scan d) (blocked : BlockedTable)
    (now : OffsetDateTime) (days : ℕ) : Option (List (DailyPlaytime ℤ)) := do
  let cutoff ← dailyCutoff now days
  dailyPlaytimeSince zone.day scan blocked cutoff

end Tracker

/-! ### The page -/

namespace DashboardCharts

/-- Shift a date by a number of days. -/
def shiftDate (iso deltaDays : ℤ) : ℤ := iso + deltaDays

/-- Today's local calendar date. -/
def today (zone : Zone) (now : OffsetDateTime) : ℤ := zone.day now

/-- `m.set(r.date, r)`. A later row takes the place of an earlier one. -/
def setRow (byDate : ℤ → Option (DailyPlaytime ℤ)) (row : DailyPlaytime ℤ) :
    ℤ → Option (DailyPlaytime ℤ) :=
  Function.update byDate row.date (some row)

/-- The rows by their date. -/
def indexByDate (rows : List (DailyPlaytime ℤ)) : ℤ → Option (DailyPlaytime ℤ) :=
  rows.foldl setRow fun _ => none

/-- A day of the heatmap, with the seconds that `hoursOf` is applied to, and the number of sessions
in its tooltip. -/
structure HeatmapCell where
  date : ℤ
  fullRuntimeSeconds : ℤ
  sessionCount : ℤ
deriving DecidableEq, Repr

/-- The cell of a date. -/
def heatmapCell (byDate : ℤ → Option (DailyPlaytime ℤ)) (date : ℤ) : HeatmapCell where
  date := date
  fullRuntimeSeconds := ((byDate date).map DailyPlaytime.fullRuntimeSeconds).getD 0
  sessionCount := ((byDate date).map DailyPlaytime.sessionCount).getD 0

/-- The dates of `buildHeatmapOption`, `for (let i = 364; i >= 0; i--)`. -/
def heatmapDates (zone : Zone) (now : OffsetDateTime) : List ℤ :=
  (List.range 365).reverse.map fun i : ℕ => shiftDate (today zone now) (-(i : ℤ))

/-- The days that `buildHeatmapOption` draws. -/
def buildHeatmapOption (zone : Zone) (now : OffsetDateTime) (rows : List (DailyPlaytime ℤ)) :
    List HeatmapCell :=
  (heatmapDates zone now).map (heatmapCell (indexByDate rows))

/-- Totals across the fetched year. -/
structure YearTotals where
  full : ℤ
  sessions : ℤ
  activeDays : ℤ
deriving DecidableEq, Repr

/-- One turn of the loop over the rows, for a day with the given seconds and sessions. -/
def YearTotals.count (totals : YearTotals) (seconds sessions : ℤ) : YearTotals where
  full := totals.full + seconds
  sessions := totals.sessions + sessions
  activeDays := if 0 < seconds then totals.activeDays + 1 else totals.activeDays

/-- The totals shown on the consistency card. -/
def yearTotals (rows : List (DailyPlaytime ℤ)) : YearTotals :=
  rows.foldl (fun totals row => totals.count row.fullRuntimeSeconds row.sessionCount) ⟨0, 0, 0⟩

/-- The same totals over the days that are drawn. -/
def heatmapTotals (cells : List HeatmapCell) : YearTotals :=
  cells.foldl (fun totals cell => totals.count cell.fullRuntimeSeconds cell.sessionCount) ⟨0, 0, 0⟩

end DashboardCharts

open Tracker DashboardCharts

/-! ### The window -/

section Window

variable (zone : Zone) (d : Database) (blocked : Finset GameKey) (now : OffsetDateTime) (days : ℕ)

/-- The date is one of the last `days` local days, today included. -/
def InLastDays (date : ℤ) : Prop := today zone now - days < date ∧ date ≤ today zone now

/-- The rows are about the last `days` days, and all of the sessions of these days are in them. The
totals of a year are those of the days that are drawn. -/
structure CoversWindow (rows : List (DailyPlaytime ℤ)) : Prop where
  within : ∀ row ∈ rows, InLastDays zone now days row.date
  counted : ∀ date, InLastDays zone now days date → DailyPlaytime.on rows date =
    (DailyPlaytime.zero date).add (startedOn zone.day d blocked date)
  year : days = 365 → yearTotals rows = heatmapTotals (buildHeatmapOption zone now rows)

/-- The local day of the instant `days` times 24 hours ago. -/
def firstDay : ℤ := zone.dayAt (now.unixNanos - days * Zone.nanosPerDay)

/-- The condition on the sessions under which the difference between the two windows does not show:
none that counts started on a day between that of `days` times 24 hours ago and the window, or after
today, or before that day but in the window. -/
structure NoneBetween : Prop where
  early : ∀ s ∈ d.sessions, ¬ OwnedBy d blocked s → zone.day s.startedAt ≤ today zone now - days →
    zone.day s.startedAt < firstDay zone now days
  late : ∀ s ∈ d.sessions, ¬ OwnedBy d blocked s → today zone now < zone.day s.startedAt →
    zone.day s.startedAt < firstDay zone now days
  skipped : ∀ s ∈ d.sessions, ¬ OwnedBy d blocked s →
    InLastDays zone now days (zone.day s.startedAt) →
    firstDay zone now days ≤ zone.day s.startedAt

/-- The condition under which a call covers the window: it goes back to an instant that has a text,
the runtimes of each day fit, and no session is between the windows. -/
structure WindowOk : Prop extends NoneBetween zone d blocked now days where
  since : Calendar.firstNanos ≤ now.unixNanos - days * Zone.nanosPerDay
  fits : ∀ date, firstDay zone now days ≤ date →
    ((startedOn zone.day d blocked date).map Session.fullRuntimeSeconds).sum < 2 ^ 63

end Window

/-! ### The totals of the year -/

namespace DashboardCharts

/-- With one row a date, the index finds it. -/
theorem indexByDate_eq {rows : List (DailyPlaytime ℤ)}
    (h_nodup : (rows.map DailyPlaytime.date).Nodup) (date : ℤ) :
    indexByDate rows date = rows.find? fun row => row.date = date := by
  have h_fold : ∀ byDate : ℤ → Option (DailyPlaytime ℤ),
      rows.foldl setRow byDate date =
        (rows.find? fun row => row.date = date).or (byDate date) := by
    induction rows with
    | nil => exact fun _ => rfl
    | cons row rows ih =>
      intro byDate
      obtain ⟨h_new, h_rest⟩ := List.nodup_cons.mp h_nodup
      rw [List.foldl_cons, ih h_rest]
      unfold setRow
      by_cases h_date : row.date = date
      · -- no later row takes the place of this one
        have h_none : rows.find? (fun row => row.date = date) = none := by
          refine List.find?_eq_none.mpr fun row' h_row' h_eq => h_new ?_
          rw [h_date, ← of_decide_eq_true h_eq]
          exact List.mem_map_of_mem h_row'
        simp [h_date, h_none]
      · simp [h_date, Function.update_of_ne (Ne.symm h_date)]
  exact (h_fold _).trans (Option.or_none ..)

theorem foldl_count {α : Type} (seconds sessions : α → ℤ) (xs : List α) (totals : YearTotals) :
    xs.foldl (fun totals x => totals.count (seconds x) (sessions x)) totals =
      ⟨totals.full + (xs.map seconds).sum, totals.sessions + (xs.map sessions).sum,
        totals.activeDays + (xs.map fun x => if 0 < seconds x then 1 else 0).sum⟩ := by
  induction xs generalizing totals with
  | nil => simp
  | cons x xs ih =>
    rw [List.foldl_cons, ih]
    unfold YearTotals.count
    simp only [List.map_cons, List.sum_cons, YearTotals.mk.injEq]
    refine ⟨add_assoc _ _ _, add_assoc _ _ _, ?_⟩
    split <;> omega

/-- The dates that are drawn are the last 365. -/
theorem mem_heatmapDates {zone : Zone} {now : OffsetDateTime} {date : ℤ} :
    date ∈ heatmapDates zone now ↔ InLastDays zone now 365 date := by
  unfold heatmapDates InLastDays shiftDate
  simp only [List.mem_map, List.mem_reverse, List.mem_range]
  refine ⟨?_, fun h => ⟨(today zone now - date).toNat, ?_, ?_⟩⟩
  · rintro ⟨i, h_i, rfl⟩
    omega
  · omega
  · omega

theorem heatmapDates_nodup (zone : Zone) (now : OffsetDateTime) :
    (heatmapDates zone now).Nodup := by
  refine List.Nodup.map (fun i j h => ?_) (List.nodup_reverse.mpr List.nodup_range)
  exact Int.ofNat.inj (neg_injective (add_left_cancel h))

/-- **The totals of the year** are those of the days that are drawn, when there is one row a date and
every row is drawn. -/
theorem yearTotals_eq_heatmapTotals {zone : Zone} {now : OffsetDateTime}
    {rows : List (DailyPlaytime ℤ)} (h_nodup : (rows.map DailyPlaytime.date).Nodup)
    (h_within : ∀ row ∈ rows, InLastDays zone now 365 row.date) :
    yearTotals rows = heatmapTotals (buildHeatmapOption zone now rows) := by
  -- each of the rows has its cell, and the other cells are zero
  have h_lookup := Sql.sum_lookup h_nodup (heatmapDates_nodup zone now)
    fun row h_row => mem_heatmapDates.mpr (h_within row h_row)
  unfold yearTotals heatmapTotals buildHeatmapOption
  rw [foldl_count, foldl_count]
  simp only [List.map_map, YearTotals.mk.injEq]
  -- the three totals, each a sum over the cells
  refine ⟨?_, ?_, ?_⟩
  · rw [← h_lookup]
    simp only [Function.comp_def, heatmapCell, indexByDate_eq h_nodup]
  · rw [← h_lookup]
    simp only [Function.comp_def, heatmapCell, indexByDate_eq h_nodup]
  · rw [← h_lookup]
    refine congrArg _ (congrArg _ (List.map_congr_left fun date _ => ?_))
    simp only [Function.comp_def, heatmapCell, indexByDate_eq h_nodup]
    cases rows.find? fun row => row.date = date <;> rfl

end DashboardCharts

/-! ### The two windows -/

section Covers

variable {zone : Zone} {d : Database} {now : OffsetDateTime} {days : ℕ}

/-- A zone whose offset is the same now and at the cutoff: the first day of the daemon is the one
before the window. -/
theorem firstDay_of_offset_eq
    (h : zone.offsetSeconds (now.unixNanos - days * Zone.nanosPerDay) =
      zone.offsetSeconds now.unixNanos) :
    firstDay zone now days = today zone now - days := by
  unfold firstDay today Zone.day Zone.dayAt
  rw [h, sub_add_eq_add_sub, Int.sub_mul_ediv_right]
  decide

/-- A session that counts has to be in both windows or in none. -/
theorem noneBetween_iff {blocked : Finset GameKey} :
    NoneBetween zone d blocked now days ↔ ∀ s ∈ d.sessions, ¬ OwnedBy d blocked s →
      (firstDay zone now days ≤ zone.day s.startedAt ↔
        InLastDays zone now days (zone.day s.startedAt)) := by
  -- no session lies between the bounds of the two conditions, so they pick the same days
  refine ⟨fun h s hs h_shown => ⟨fun h_since => ⟨?_, ?_⟩, h.skipped s hs h_shown⟩,
    fun h => ⟨?_, ?_, fun s hs h_shown => (h s hs h_shown).mpr⟩⟩
  · by_contra h_early
    exact absurd h_since (not_le.mpr (h.early s hs h_shown (not_lt.mp h_early)))
  · by_contra h_late
    exact absurd h_since (not_le.mpr (h.late s hs h_shown (not_le.mp h_late)))
  · intro s hs h_shown h_early
    by_contra h_since
    exact absurd ((h s hs h_shown).mp (not_lt.mp h_since)).1 (not_lt.mpr h_early)
  · intro s hs h_shown h_late
    by_contra h_since
    exact absurd ((h s hs h_shown).mp (not_lt.mp h_since)).2 (not_le.mpr h_late)

/-- In a zone whose offset is the same at both instants one day too many is looked at, the one before
the window. -/
theorem noneBetween_iff_of_offset_eq {blocked : Finset GameKey}
    (h : zone.offsetSeconds (now.unixNanos - days * Zone.nanosPerDay) =
      zone.offsetSeconds now.unixNanos) :
    NoneBetween zone d blocked now days ↔ ∀ s ∈ d.sessions, ¬ OwnedBy d blocked s →
      zone.day s.startedAt ≠ today zone now - days ∧ zone.day s.startedAt ≤ today zone now := by
  rw [noneBetween_iff, firstDay_of_offset_eq h]
  refine forall_congr' fun s => forall_congr' fun _ => forall_congr' fun _ => ?_
  unfold InLastDays
  omega

section Exact

variable {blocked : Finset GameKey} {cutoff : OffsetDateTime} {rows : List (DailyPlaytime ℤ)}

/-- When the rows cover the window, each session that counts is in both windows or in none. -/
theorem CoversWindow.noneBetween (h_cutoff : zone.day cutoff = firstDay zone now days)
    (h_exact : IsDailyPlaytime zone.day d blocked cutoff rows)
    (h : CoversWindow zone d blocked now days rows) : NoneBetween zone d blocked now days := by
  refine noneBetween_iff.mpr fun s hs h_shown => ⟨fun h_since => ?_, fun h_in => ?_⟩
  · -- the session has a row, which is inside the window
    obtain ⟨row, h_mem, h_date⟩ : ∃ row ∈ rows, row.date = zone.day s.startedAt :=
      (h_exact.dates _).mpr ⟨h_cutoff.trans_le h_since, s, hs, h_shown, rfl⟩
    rw [← h_date]
    exact h.within row h_mem
  · by_contra h_before
    -- there is no row of the day, so the session is not counted
    have h_counted := h.counted _ h_in
    rw [h_exact.on_eq, if_neg (by rwa [h_cutoff]), DailyPlaytime.add_nil] at h_counted
    have h_length := congrArg DailyPlaytime.sessionCount h_counted
    have h_mem : s ∈ startedOn zone.day d blocked (zone.day s.startedAt) :=
      mem_startedOn.mpr ⟨hs, h_shown, rfl⟩
    have h_pos := List.length_pos_of_mem h_mem
    simp only [DailyPlaytime.zero, DailyPlaytime.add] at h_length
    omega

/-- When each session that counts is in both windows or in none, the rows cover the window. -/
theorem NoneBetween.covers (h_cutoff : zone.day cutoff = firstDay zone now days)
    (h_exact : IsDailyPlaytime zone.day d blocked cutoff rows)
    (h : NoneBetween zone d blocked now days) : CoversWindow zone d blocked now days rows := by
  have h_same := noneBetween_iff.mp h
  have h_within : ∀ row ∈ rows, InLastDays zone now days row.date := by
    intro row h_mem
    obtain ⟨h_since, s, hs, h_shown, h_day⟩ := (h_exact.dates row.date).mp ⟨row, h_mem, rfl⟩
    rw [h_cutoff, ← h_day] at h_since
    rw [← h_day]
    exact (h_same s hs h_shown).mp h_since
  refine ⟨h_within, fun date h_in => ?_, ?_⟩
  · rw [h_exact.on_eq]
    refine DailyPlaytime.add_perm _ (List.Perm.of_eq ?_)
    by_cases h_since : zone.day cutoff ≤ date
    · exact if_pos h_since
    · rw [if_neg h_since]
      -- a session of the day would have been skipped
      refine (List.eq_nil_iff_forall_not_mem.mpr fun s h_mem => h_since ?_).symm
      obtain ⟨hs, h_shown, rfl⟩ := mem_startedOn.mp h_mem
      rw [h_cutoff]
      exact (h_same s hs h_shown).mpr h_in
  · rintro rfl
    refine yearTotals_eq_heatmapTotals ?_ h_within
    exact (h_exact.increasing.imp fun h_lt => h_lt.ne).map _ fun _ _ h_ne => h_ne

/-- **Rows that are a partition** cover the window if and only if no session is between the
windows. -/
theorem coversWindow_iff (h_cutoff : zone.day cutoff = firstDay zone now days)
    (h_exact : IsDailyPlaytime zone.day d blocked cutoff rows) :
    CoversWindow zone d blocked now days rows ↔ NoneBetween zone d blocked now days :=
  ⟨fun h => h.noneBetween h_cutoff h_exact, fun h => h.covers h_cutoff h_exact⟩

end Exact

theorem clampDays_eq (h_days : 1 ≤ days ∧ days ≤ 3650) : clampDays days = days := by
  unfold clampDays
  omega

/-- The instant the query starts from. -/
theorem dailyCutoff_eq (zone : Zone) (h_days : 1 ≤ days ∧ days ≤ 3650)
    (h_since : Calendar.firstNanos ≤ now.unixNanos - days * Zone.nanosPerDay) :
    ∃ cutoff, dailyCutoff now days = some cutoff ∧ zone.day cutoff = firstDay zone now days := by
  have h_end : now.unixNanos - days * Zone.nanosPerDay < Calendar.endNanos := by
    have h_now := now.inRange.2
    unfold Zone.nanosPerDay Calendar.nanosPerSecond
    omega
  refine ⟨⟨_, h_since, h_end⟩, ?_, rfl⟩
  unfold dailyCutoff
  rw [clampDays_eq h_days]
  exact LocalDateTime.toUtc_eq_some ⟨h_since, h_end⟩

theorem dailyCutoff_eq_none (h_days : 1 ≤ days ∧ days ≤ 3650)
    (h_since : ¬ Calendar.firstNanos ≤ now.unixNanos - days * Zone.nanosPerDay) :
    dailyCutoff now days = none := by
  unfold dailyCutoff
  rw [clampDays_eq h_days]
  exact LocalDateTime.toUtc_eq_none fun h => h_since h.1

/-- **When a call covers the window of the page**: exactly when it can go back that far, the runtimes
of each day fit, and no session that counts is between the days the daemon looks at and those of the
window. -/
theorem listDailyPlaytime_covers_iff (zone : Zone) (scan : Scan d) (blocked : BlockedTable)
    (now : OffsetDateTime) (days : ℕ) (h_days : 1 ≤ days ∧ days ≤ 3650) :
    (∃ rows, listDailyPlaytime zone scan blocked now days = some rows ∧
      CoversWindow zone d (BlockedRepo.list blocked) now days rows) ↔
    WindowOk zone d (BlockedRepo.list blocked) now days := by
  -- the first instant of the window has to be a date the source can write
  by_cases h_since : Calendar.firstNanos ≤ now.unixNanos - days * Zone.nanosPerDay
  · obtain ⟨cutoff, h_cutoff, h_day⟩ := dailyCutoff_eq zone h_days h_since
    have h_list : listDailyPlaytime zone scan blocked now days =
        dailyPlaytimeSince zone.day scan blocked cutoff := by
      unfold listDailyPlaytime
      rw [h_cutoff]
      rfl
    rw [h_list]
    refine ⟨?_, fun h => ?_⟩
    · -- what was listed covers the window, so no sum of a day was too large
      rintro ⟨rows, h_rows, h_covers⟩
      have h_exact := isDailyPlaytime_of_eq_some h_rows
      refine ⟨(coversWindow_iff h_day h_exact).mp h_covers, h_since, fun date h_from => ?_⟩
      by_contra h_large
      have h_overflows : DayOverflows zone.day d (BlockedRepo.list blocked) cutoff :=
        ⟨date, h_day.trans_le h_from, not_lt.mp h_large⟩
      rw [dailyPlaytimeSince_eq_none_iff.mpr h_overflows] at h_rows
      exact absurd h_rows (by simp)
    · -- a sum that is too large makes the whole listing fail
      cases h_rows : dailyPlaytimeSince zone.day scan blocked cutoff with
      | none =>
        obtain ⟨date, h_from, h_large⟩ := dailyPlaytimeSince_eq_none_iff.mp h_rows
        exact absurd h_large (not_le.mpr (h.fits date (h_day.symm.trans_le h_from)))
      | some rows =>
        exact ⟨rows, rfl,
          (coversWindow_iff h_day (isDailyPlaytime_of_eq_some h_rows)).mpr h.toNoneBetween⟩
  · -- the cutoff cannot be written, so nothing is listed
    refine iff_of_false ?_ fun h => h_since h.since
    rintro ⟨rows, h_rows, -⟩
    unfold listDailyPlaytime at h_rows
    rw [dailyCutoff_eq_none h_days h_since] at h_rows
    exact absurd h_rows (by simp)

/-- A game that was played for a minute on the first day of 1970. -/
def playedOnce : Database where
  applications := [ApplicationRepo.newRow 1 (newSteam "10" (.firstDay 0))]
  sessions := [closeRow ⟨60, 60, .firstDay 160⟩ .terminated (newRow 1 1 (.firstDay 100))]
  groups := []
  applicationSeq := 1
  sessionSeq := 1
  checks := by decide
  uniques := by decide
  foreignKeys := by decide

/-- Noon, in UTC, a number of days after the first day of 1970. -/
def noonAfter (days : Fin 1000) : OffsetDateTime where
  unixNanos := days.val * Zone.nanosPerDay + 43200 * Calendar.nanosPerSecond
  inRange := by
    unfold Calendar.firstNanos Calendar.endNanos Zone.nanosPerDay Calendar.nanosPerSecond
    omega

/-- From the second day of 1971 on that day is before the window of a year, for the daemon too. -/
theorem playedOnce_covered :
    ∃ rows, listDailyPlaytime .utc playedOnce.scan ⟨[], List.nodup_nil⟩ (noonAfter 366) 365 =
        some rows ∧
      CoversWindow .utc playedOnce (BlockedRepo.list ⟨[], List.nodup_nil⟩) (noonAfter 366) 365
        rows := by
  refine (listDailyPlaytime_covers_iff .utc playedOnce.scan ⟨[], List.nodup_nil⟩ (noonAfter 366) 365
    (by decide)).mpr ⟨(noneBetween_iff_of_offset_eq rfl).mpr (by decide), by decide, ?_⟩
  intro date h_from
  -- the only session is of a day before the window
  have h_none : startedOn Zone.utc.day playedOnce (BlockedRepo.list ⟨[], List.nodup_nil⟩) date =
      [] := by
    refine List.eq_nil_iff_forall_not_mem.mpr fun s h_mem => ?_
    obtain ⟨hs, -, rfl⟩ := mem_startedOn.mp h_mem
    obtain rfl := List.mem_singleton.mp hs
    exact absurd h_from (by decide)
  rw [h_none]
  decide

/-- On the first day of 1971 it is the 366th day from the end, and its minute is in the totals of the
year. -/
theorem extraDay_counted :
    ¬ ∀ (zone : Zone) (d : Database) (scan : Scan d) (blocked : BlockedTable)
      (now : OffsetDateTime) (days : ℕ), 1 ≤ days ∧ days ≤ 3650 →
      ∃ rows, listDailyPlaytime zone scan blocked now days = some rows ∧
        CoversWindow zone d (BlockedRepo.list blocked) now days rows := by
  intro h
  obtain ⟨rows, h_rows, h_covers⟩ :=
    h .utc playedOnce playedOnce.scan ⟨[], List.nodup_nil⟩ (noonAfter 365) 365 (by decide)
  have h_listed : listDailyPlaytime .utc playedOnce.scan ⟨[], List.nodup_nil⟩ (noonAfter 365) 365 =
      some [⟨0, 60, 60, 1⟩] := by
    decide +kernel
  rw [h_listed] at h_rows
  obtain rfl := Option.some.inj h_rows
  exact absurd (h_covers.within _ List.mem_cons_self).1 (by decide)

end Covers

end Ludex
