import Ludex.App.DayLanes
import Ludex.Core.BlockedRepo
import Ludex.Daemon.Tracker
import Ludex.Lib.Buckets

/-!
# The log of the activity page

The other pane of `routes/activity/+page.svelte`: the most recent sessions, in groups by the local
day on which they started, each with its total. The charts beside it are made of the rows of
`list_daily_playtime`, which are totals of local days as well. Everything is fetched at once here.

The two do not count the same things. The daemon adds up the sessions of a day as they are stored,
and the page adds up spans, which the daemon has folded from sessions that follow each other within
a minute; a span is logged on the day on which its oldest session started. So the sessions of a span
that goes on after midnight move to the day before, and nothing moves the other way.
`days_agree_iff` says that this is the only difference: the two agree on all days, from the first
one whose sessions are all fetched, if and only if no session that has any runtime is logged on
another day than its own.

`new Date` is the parameter `parse`, `none` where it is an invalid date. Numbers are integers, as
those of the page are below `2 ^ 53`.
-/

namespace Ludex

open SessionRepo SessionMerge DashboardCharts
open TimeZone (nanosPerMilli)

namespace Tracker

/-- The ids of the applications that are blocked, for the blocked keys in some order. -/
def listBlockedApplicationIds (d : Database) (keys : List GameKey) : List ℤ :=
  keys.filterMap fun key => (ApplicationRepo.findByKey d key).map Application.id

/-- The page and the query for the charts hide the same sessions. -/
theorem mem_listBlockedApplicationIds {d : Database} {blocked : BlockedTable} {keys : List GameKey}
    (h_keys : keys.toFinset = BlockedRepo.list blocked) {s : Session} :
    s.applicationId ∈ listBlockedApplicationIds d keys ↔
      OwnedBy d (BlockedRepo.list blocked) s := by
  unfold listBlockedApplicationIds OwnedBy
  rw [← h_keys]
  simp only [List.mem_filterMap, Option.map_eq_some_iff, List.mem_toFinset]
  refine ⟨?_, ?_⟩
  · rintro ⟨key, h_key, a, h_found, h_id⟩
    obtain ⟨ha, rfl⟩ := ApplicationRepo.findByKey_some h_found
    exact ⟨a, ha, h_id, h_key⟩
  · rintro ⟨a, ha, h_id, h_key⟩
    exact ⟨a.key, h_key, a, ApplicationRepo.findByKey_of_mem ha, h_id⟩

end Tracker

open Tracker

namespace ActivityLog

/-! ### The page -/

/-- `LOG_LIMIT`. -/
def logLimit : ℕ := 100

/-- `recent`, as `refresh` sets it. A failed call for the blocked applications counts as none. -/
def recent (log : List SessionSummary) (blockedIds : Option (List ℤ)) : List SessionSummary :=
  log.filter fun s => s.applicationId ∉ blockedIds.getD []

section Page

variable (parse : String → Option ℤ) (zone : TimeZone)

/-- The local calendar day of a timestamp. -/
def localDay (iso : String) : Option ℤ := (parse iso).map zone.clock.date

/-- A row with its day. A row without a valid date is passed over. -/
def dated (s : SessionSummary) : Option (ℤ × SessionSummary) :=
  (localDay parse zone s.startedAt).map fun date => (date, s)

/-- A group of the log. -/
structure LogDay where
  date : ℤ
  items : List SessionSummary
  total : ℤ
deriving DecidableEq

/-- Log rows grouped into days. -/
def logDays (recent : List SessionSummary) : List LogDay :=
  (Buckets.bucket Prod.fst (recent.filterMap (dated parse zone))).map fun group => {
    date := group.1
    items := group.2.map Prod.snd
    total := (group.2.map Prod.snd).foldl (fun n s => n + s.fullRuntimeSeconds) 0 }

end Page

/-- The total that is shown for a date, zero where there is no group. -/
def totalOn (days : List LogDay) (date : ℤ) : ℤ :=
  ((days.find? fun day => day.date = date).map LogDay.total).getD 0

/-- The groups are the rows in their order, the newest day first. -/
structure NewestFirst (rows : List SessionSummary) (days : List LogDay) : Prop where
  items : days.flatMap LogDay.items = rows
  descending : days.Pairwise fun a b => b.date < a.date

/-- Every session that has any runtime is logged on the day on which it started, as far as that is
`first` or later. -/
def OnTheirDays (parse : String → Option ℤ) (zone : TimeZone) (d : Database) (first : ℤ)
    (rows : List SessionSummary) : Prop :=
  ∀ summary ∈ rows, ∀ s ∈ d.sessions, s.id ∈ summary.fragmentIds →
    first ≤ zone.day s.startedAt → s.fullRuntimeSeconds ≠ 0 →
      localDay parse zone summary.startedAt = some (zone.day s.startedAt)

/-! ### Days -/

/-- Instants of one second are on one day. -/
theorem day_of_second (zone : TimeZone) {t u : OffsetDateTime}
    (h : t.unixNanos / Calendar.nanosPerSecond = u.unixNanos / Calendar.nanosPerSecond) :
    zone.day t = zone.day u := by
  have h_offset : zone.offsetSeconds t.unixNanos = zone.offsetSeconds u.unixNanos := by
    rw [← zone.seconds, h, zone.seconds]
  show (t.unixNanos + zone.offsetSeconds t.unixNanos * Calendar.nanosPerSecond) / Zone.nanosPerDay =
    (u.unixNanos + zone.offsetSeconds u.unixNanos * Calendar.nanosPerSecond) / Zone.nanosPerDay
  rw [h_offset]
  unfold Zone.nanosPerDay Calendar.nanosPerSecond at *
  omega

/-- Two instants whose texts continue one another are of one second. -/
theorem second_of_cutShort {a b : ℤ} (h : Calendar.CutShort a b) :
    a / Calendar.nanosPerSecond = b / Calendar.nanosPerSecond := by
  obtain ⟨k, h_k, ⟨m, rfl⟩, h_lt, h_end⟩ := h
  unfold Calendar.nanosPerSecond
  interval_cases k <;> omega

/-- What is asked of `parse`: it reads the texts of the daemon, in whole milliseconds. -/
def Reads (parse : String → Option ℤ) : Prop :=
  ∀ t : OffsetDateTime, parse (formatDatetime t) = some (t.unixNanos / nanosPerMilli)

theorem localDay_formatDatetime {parse : String → Option ℤ} (h : Reads parse) (zone : TimeZone)
    (t : OffsetDateTime) : localDay parse zone (formatDatetime t) = some (zone.day t) := by
  unfold localDay
  rw [h, Option.map_some]
  exact congrArg some (zone.dayAt_eq t.unixNanos).symm

/-- The calendar does not go back from one session to another. -/
def Forward (zone : TimeZone) (d : Database) : Prop :=
  ∀ s ∈ d.sessions, ∀ t ∈ d.sessions, s.startedAt ≤ t.startedAt →
    zone.day s.startedAt ≤ zone.day t.startedAt

/-! ### Rows -/

/-- All rows of the join, the latest text first. The log is made of the first ones. -/
def ordered {d : Database} (scan : Scan d) : List RecentSession :=
  Sql.orderByDesc OffsetDateTime.textLt RecentSession.startedAt (joinApplications d scan.rows)

section Rows

variable {d : Database} {scan : Scan d} {row : RecentSession}

/-- A row is a stored session. -/
theorem exists_stored (h : row ∈ ordered scan) :
    ∃ s ∈ d.sessions, ∃ a ∈ d.applications, row = recentRow s a := by
  obtain ⟨s, hs, a, ha, -, rfl⟩ := mem_joinApplications.mp (Sql.orderByDesc_perm.mem_iff.mp h)
  exact ⟨s, scan.perm.mem_iff.mp hs, a, ha, rfl⟩

theorem full_nonneg (h : row ∈ ordered scan) : 0 ≤ row.fullRuntimeSeconds := by
  obtain ⟨s, hs, a, -, rfl⟩ := exists_stored h
  exact (d.checks.2 s hs).2.1

/-- **The rows are the sessions**: what is read off the ones is read off the others. -/
theorem map_ordered_perm {β : Type} {f : RecentSession → β} {g : Session → β}
    (h : ∀ s a, f (recentRow s a) = g s) : ((ordered scan).map f).Perm (d.sessions.map g) := by
  calc List.Perm ((ordered scan).map f) ((joinApplications d scan.rows).map f) :=
        Sql.orderByDesc_perm.map f
    _ = scan.rows.map g := map_joinApplications h fun s hs => scan.perm.mem_iff.mp hs
    List.Perm _ (d.sessions.map g) := scan.perm.map g

/-- The days of the rows never go up, though the rows are sorted by their texts. -/
theorem Forward.antitone {zone : TimeZone} (h : Forward zone d) (scan : Scan d) :
    (ordered scan).Pairwise fun a b => zone.day b.startedAt ≤ zone.day a.startedAt := by
  refine OffsetDateTime.textLt_skewed.pairwise_orderByDesc.imp_of_mem
    fun {a b} h_a h_b h_not => ?_
  obtain ⟨s, hs, _, -, rfl⟩ := exists_stored h_a
  obtain ⟨t, ht, _, -, rfl⟩ := exists_stored h_b
  rcases le_or_gt t.startedAt s.startedAt with h_le | h_lt
  · exact h t ht s hs h_le
  · -- the texts exchange the two
    have h_cut := OffsetDateTime.textLt_skewed.cut_of_lt h_lt h_not
    exact (day_of_second zone (second_of_cutShort h_cut)).ge

end Rows

/-! ### Groups -/

section Groups

variable {parse : String → Option ℤ} {zone : TimeZone} {rows : List SessionSummary}

theorem foldl_fullRuntimeSeconds (items : List SessionSummary) :
    items.foldl (fun n s => n + s.fullRuntimeSeconds) 0 =
      (items.map SessionSummary.fullRuntimeSeconds).sum := by
  rw [List.sum_eq_foldl, List.foldl_map]

/-- The total of a date is that of the rows that began on it. -/
theorem totalOn_logDays (parse : String → Option ℤ) (zone : TimeZone) (rows : List SessionSummary)
    (date : ℤ) :
    totalOn (logDays parse zone rows) date =
      (rows.map fun s =>
        if localDay parse zone s.startedAt = some date then s.fullRuntimeSeconds else 0).sum := by
  -- the group of a day is what the bucket of that day adds up to
  have h_bucket := Buckets.sum_bucket Prod.fst (rows.filterMap (dated parse zone))
    (fun p => p.2.fullRuntimeSeconds) date
  have h_total : totalOn (logDays parse zone rows) date =
      Buckets.totalAt Prod.fst (fun p => p.2.fullRuntimeSeconds) (rows.filterMap (dated parse zone))
        date := by
    unfold totalOn logDays
    rw [List.find?_map, Option.map_map]
    simp only [Function.comp_def, foldl_fullRuntimeSeconds, List.map_map]
    exact h_bucket
  rw [h_total, Buckets.totalAt_eq]
  clear h_bucket h_total
  -- by induction on the rows: a row without a readable start is in no group
  induction rows with
  | nil => rfl
  | cons s rows ih =>
    rw [List.filterMap_cons, List.map_cons, List.sum_cons, ← ih]
    cases h_day : localDay parse zone s.startedAt with
    | none =>
      have h_dated : dated parse zone s = none := by rw [dated, h_day, Option.map_none]
      rw [h_dated, if_neg (by simp), zero_add]
    | some day =>
      have h_dated : dated parse zone s = some (day, s) := by rw [dated, h_day, Option.map_some]
      rw [h_dated, List.map_cons, List.sum_cons]
      simp only [Option.some_inj]

/-- **The groups**, where all rows have a day and the days never go up. -/
theorem newestFirst_logDays (day : SessionSummary → ℤ)
    (h_day : ∀ s ∈ rows, localDay parse zone s.startedAt = some (day s))
    (h_antitone : rows.Pairwise fun a b => day b ≤ day a) :
    NewestFirst rows (logDays parse zone rows) := by
  -- every row has its day, so none is left out of the pairs
  have h_pairs : rows.filterMap (dated parse zone) = rows.map fun s => (day s, s) := by
    refine List.filterMap_eq_map_iff_forall_eq_some.mpr fun s hs => ?_
    rw [dated, h_day s hs, Option.map_some]
  have h_cuts : Buckets.Cuts (rows.map fun s => (day s, s))
      (Buckets.bucket Prod.fst (rows.map fun s => (day s, s))) :=
    Buckets.bucket_of_antitone (List.pairwise_map.mpr h_antitone)
  unfold logDays
  rw [h_pairs]
  -- the groups are the cuts of a list whose days go down, so putting them together gives it back
  refine ⟨?_, List.pairwise_map.mpr h_cuts.descending⟩
  calc _ = ((Buckets.bucket Prod.fst (rows.map fun s => (day s, s))).flatMap Prod.snd).map
          Prod.snd := by
        rw [List.flatMap_map, List.map_flatMap]
    _ = rows := by
        rw [h_cuts.flatten, List.map_map]
        exact List.map_id rows

end Groups

/-! ### Spans -/

/-- The rows that `list_recent_sessions` folds. -/
def fetched {d : Database} (scan : Scan d) : List RecentSession := listRecentWithApp scan logLimit

theorem mem_ordered {d : Database} {scan : Scan d} {row : RecentSession} (h : row ∈ fetched scan) :
    row ∈ ordered scan := List.mem_of_mem_take h

/-- The rows of each span, newest first. -/
def parts {d : Database} (scan : Scan d) : List (List RecentSession) :=
  runs recentClosures defaultMergeGap.duration (fetched scan)

/-- A summary and the rows that it is about. -/
structure SummaryOf (run : List RecentSession) (summary : SessionSummary) : Prop where
  nonempty : run ≠ []
  ids : summary.fragmentIds = run.map RecentSession.id
  application : ∀ row ∈ run, row.applicationId = summary.applicationId
  started : summary.startedAt = formatDatetime (run.getLast nonempty).startedAt
  full : summary.fullRuntimeSeconds = I64.saturatingSum (run.map RecentSession.fullRuntimeSeconds)

section Spans

variable {d : Database} (scan : Scan d)

theorem flatten_parts : (parts scan).flatten = fetched scan := List.flatten_splitBy _ _

theorem mem_fetched {run : List RecentSession} (h : run ∈ parts scan) {row : RecentSession}
    (h_row : row ∈ run) : row ∈ fetched scan := by
  rw [← flatten_parts scan]
  exact List.mem_flatten_of_mem h h_row

/-- **The log is made of the parts.** -/
theorem summaries : List.Forall₂ SummaryOf (parts scan) (listRecentSessions scan logLimit) := by
  unfold listRecentSessions
  refine List.forall₂_map_right_iff.mpr ((recentColumns.fold_spans _ _).imp ?_)
  rintro run span h_made
  have h_span := h_made.isSpan recentColumns
  obtain ⟨row, older, rfl, -, h_chain⟩ := h_made
  have h_nil : row :: older ≠ [] := List.cons_ne_nil row older
  refine ⟨h_nil, h_span.fragments, ?_, ?_, h_span.full⟩
  · -- the application is the same all along the run
    have h_same : (row :: older).IsChain fun a b : RecentSession =>
        a.applicationId = b.applicationId :=
      h_chain.imp fun _ _ => sameApplication_of_not_cut
    have h_newest : span.1.applicationId = row.applicationId := (h_span.newest row rfl).1
    rintro row' h_row'
    rcases List.mem_cons.mp h_row' with rfl | h_older
    · exact h_newest.symm
    · have h_pairs := List.isChain_iff_pairwise.mp h_same
      exact ((List.pairwise_cons.mp h_pairs).1 row' h_older).symm.trans h_newest.symm
  · exact congrArg formatDatetime (h_span.oldest _ (List.getLast?_eq_some_getLast h_nil))

/-- The runtime of a part fits, where the runtime of all sessions does. -/
theorem sum_part_lt (h_exact : (d.sessions.map Session.fullRuntimeSeconds).sum < 2 ^ 53)
    {run : List RecentSession} (h : run ∈ parts scan) :
    (run.map RecentSession.fullRuntimeSeconds).sum < 2 ^ 53 := by
  have h_sub : run.Sublist (ordered scan) := by
    refine List.Sublist.trans ?_ (List.take_sublist logLimit _)
    show run.Sublist (fetched scan)
    rw [← flatten_parts scan]
    exact List.sublist_flatten_of_mem h
  have h_nonneg : ∀ x ∈ (ordered scan).map RecentSession.fullRuntimeSeconds, 0 ≤ x :=
    List.forall_mem_map.mpr fun _ => full_nonneg
  calc (run.map RecentSession.fullRuntimeSeconds).sum
      ≤ ((ordered scan).map RecentSession.fullRuntimeSeconds).sum :=
        (h_sub.map RecentSession.fullRuntimeSeconds).sum_le_sum h_nonneg
    _ = (d.sessions.map Session.fullRuntimeSeconds).sum := (map_ordered_perm fun _ _ => rfl).sum_eq
    _ < 2 ^ 53 := h_exact

/-- The days never go up, inside a part and from one part to the next. -/
theorem Forward.parts {zone : TimeZone} (h : Forward zone d) :
    (∀ run ∈ parts scan, run.Pairwise fun a b => zone.day b.startedAt ≤ zone.day a.startedAt) ∧
      (parts scan).Pairwise fun run run' =>
        ∀ a ∈ run, ∀ b ∈ run', zone.day b.startedAt ≤ zone.day a.startedAt := by
  have h_fetched : (fetched scan).Pairwise fun a b => zone.day b.startedAt ≤ zone.day a.startedAt :=
    (h.antitone scan).sublist (List.take_sublist logLimit _)
  rwa [← flatten_parts scan, List.pairwise_flatten] at h_fetched

end Spans

/-! ### The sessions under two days -/

section Entries

variable {d : Database} (zone : TimeZone) (scan : Scan d) (hidden : List ℤ)

/-- The day on which a span is logged. -/
def loggedOn (run : List RecentSession) : ℤ :=
  (run.getLast?.map fun row => zone.day row.startedAt).getD 0

/-- Each fetched row, with the day on which its span is logged. -/
def entries : List (ℤ × RecentSession) :=
  (parts scan).flatMap fun run => run.map fun row => (loggedOn zone run, row)

/-- The day of the session itself. -/
def ownDay (entry : ℤ × RecentSession) : ℤ := zone.day entry.2.startedAt

/-- The runtime of a session that is shown. -/
def runtime (entry : ℤ × RecentSession) : ℤ :=
  if entry.2.applicationId ∈ hidden then 0 else entry.2.fullRuntimeSeconds

theorem mem_entries {entry : ℤ × RecentSession} :
    entry ∈ entries zone scan ↔
      ∃ run ∈ parts scan, entry.2 ∈ run ∧ entry.1 = loggedOn zone run := by
  unfold entries
  rw [List.mem_flatMap]
  refine exists_congr fun run => and_congr_right fun _ => ?_
  rw [List.mem_map]
  refine ⟨?_, fun h => ⟨entry.2, h.1, by rw [← h.2]⟩⟩
  rintro ⟨row, h_row, rfl⟩
  exact ⟨h_row, rfl⟩

theorem runtime_nonneg : ∀ entry ∈ entries zone scan, 0 ≤ runtime hidden entry := by
  intro entry h
  obtain ⟨run, h_run, h_row, -⟩ := (mem_entries zone scan).mp h
  unfold runtime
  split
  · exact le_rfl
  · exact full_nonneg (mem_ordered (mem_fetched scan h_run h_row))

variable {zone scan hidden}

theorem loggedOn_getLast {run : List RecentSession} (h_nil : run ≠ []) :
    loggedOn zone run = zone.day (run.getLast h_nil).startedAt := by
  unfold loggedOn
  rw [List.getLast?_eq_some_getLast h_nil, Option.map_some, Option.getD_some]

theorem SummaryOf.localDay_eq {parse : String → Option ℤ} (h_parse : Reads parse)
    {run : List RecentSession} {summary : SessionSummary} (h : SummaryOf run summary) :
    localDay parse zone summary.startedAt = some (loggedOn zone run) := by
  rw [h.started, localDay_formatDatetime h_parse, loggedOn_getLast h.nonempty]

/-- **A session moves back** at most, to the day of an older one. -/
theorem loggedOn_le (h_forward : Forward zone d) :
    ∀ entry ∈ entries zone scan, entry.1 ≤ ownDay zone entry := by
  intro entry h
  obtain ⟨run, h_run, h_row, h_day⟩ := (mem_entries zone scan).mp h
  have h_nil : run ≠ [] := List.ne_nil_of_mem h_row
  rw [h_day, loggedOn_getLast h_nil]
  -- the last row of the part is the oldest one
  have h_split := (h_forward.parts scan).1 run h_run
  rw [← List.dropLast_append_getLast h_nil] at h_split h_row
  rcases List.mem_append.mp h_row with h_newer | h_last
  · exact (List.pairwise_append.mp h_split).2.2 _ h_newer _ List.mem_cons_self
  · unfold ownDay
    rw [List.mem_singleton.mp h_last]

/-- The groups of the log. -/
theorem newestFirst_recent {parse : String → Option ℤ} (h_parse : Reads parse)
    (h_forward : Forward zone d) (blockedIds : Option (List ℤ)) :
    NewestFirst (recent (listRecentSessions scan logLimit) blockedIds)
      (logDays parse zone (recent (listRecentSessions scan logLimit) blockedIds)) := by
  -- the day of a row on the page is that of the part it was folded from
  have h_days : (parts scan).map (loggedOn zone) =
      (listRecentSessions scan logLimit).map fun s => (localDay parse zone s.startedAt).getD 0 := by
    refine Splitting.map_eq_of_forall₂ (summaries scan) fun run _ summary h => ?_
    rw [h.localDay_eq h_parse, Option.getD_some]
  have h_parts : ((parts scan).map (loggedOn zone)).Pairwise fun x y => y ≤ x := by
    refine List.pairwise_map.mpr
      -- later parts are of earlier rows, and the calendar does not go back from one to another
      ((h_forward.parts scan).2.imp_of_mem fun {run run'} h_run h_run' h_rows => ?_)
    have h_nil : run ≠ [] := List.ne_nil_of_mem_splitBy h_run
    have h_nil' : run' ≠ [] := List.ne_nil_of_mem_splitBy h_run'
    rw [loggedOn_getLast h_nil, loggedOn_getLast h_nil']
    exact h_rows _ (List.getLast_mem h_nil) _ (List.getLast_mem h_nil')
  rw [h_days] at h_parts
  refine newestFirst_logDays (fun s => (localDay parse zone s.startedAt).getD 0) ?_
    ((List.pairwise_map.mp h_parts).filter _)
  intro s hs
  obtain ⟨run, -, h_run⟩ := Splitting.exists_of_forall₂ (summaries scan) (List.mem_of_mem_filter hs)
  rw [h_run.localDay_eq h_parse, Option.getD_some]

/-- What a span adds to the total of a date. -/
theorem SummaryOf.sum_runtime {parse : String → Option ℤ} (h_parse : Reads parse)
    (h_exact : (d.sessions.map Session.fullRuntimeSeconds).sum < 2 ^ 53) {run : List RecentSession}
    (h_run : run ∈ parts scan) {summary : SessionSummary} (h : SummaryOf run summary) (date : ℤ) :
    (run.map fun row =>
        if loggedOn zone run = date then runtime hidden (loggedOn zone run, row) else 0).sum =
      if summary.applicationId ∈ hidden then 0
      else if localDay parse zone summary.startedAt = some date then summary.fullRuntimeSeconds
      else 0 := by
  -- the rows of a part are all of one application, so they are hidden together or shown together
  have h_rows : ∀ row ∈ run, runtime hidden (loggedOn zone run, row) =
      if summary.applicationId ∈ hidden then 0 else row.fullRuntimeSeconds := by
    intro row h_row
    rw [← h.application row h_row]
    rfl
  -- the sum does not saturate, because even all runtimes together are exact
  have h_sum : summary.fullRuntimeSeconds = (run.map RecentSession.fullRuntimeSeconds).sum := by
    have h_nonneg : ∀ x ∈ run.map RecentSession.fullRuntimeSeconds, 0 ≤ x :=
      List.forall_mem_map.mpr fun row h_row =>
        full_nonneg (mem_ordered (mem_fetched scan h_run h_row))
    have h_fits := sum_part_lt scan h_exact h_run
    obtain ⟨h_min, h_max⟩ := I64.saturatingSum_bounds h_nonneg
    unfold I64.maxValue at h_min
    rw [h.full]
    omega
  simp only [h.localDay_eq h_parse, Option.some_inj, h_sum]
  -- a part counts on the day of its last row, and on no other
  by_cases h_day : loggedOn zone run = date
  · simp only [if_pos h_day]
    rw [List.map_congr_left h_rows]
    split
    · exact List.sum_eq_zero (List.forall_mem_map.mpr fun _ _ => rfl)
    · rfl
  · simp only [if_neg h_day, ite_self]
    exact List.sum_eq_zero (List.forall_mem_map.mpr fun _ _ => rfl)

/-- **The log adds up the sessions** under the days of their spans. -/
theorem totalOn_recent {parse : String → Option ℤ} (h_parse : Reads parse)
    (h_exact : (d.sessions.map Session.fullRuntimeSeconds).sum < 2 ^ 53) (date : ℤ) :
    totalOn (logDays parse zone (recent (listRecentSessions scan logLimit) (some hidden))) date =
      Buckets.totalAt Prod.fst (runtime hidden) (entries zone scan) date := by
  -- what is hidden adds nothing
  have h_shown : ∀ (f : SessionSummary → ℤ) (log : List SessionSummary),
      ((recent log (some hidden)).map f).sum =
        (log.map fun s => if s.applicationId ∈ hidden then 0 else f s).sum := by
    intro f log
    rw [recent, Option.getD_some, Buckets.sum_filter]
    simp only [ite_not]
  rw [totalOn_logDays, h_shown, Buckets.totalAt_eq]
  unfold entries
  rw [List.map_flatMap, List.flatMap_def, List.sum_flatten, List.map_map]
  refine congrArg _ (Eq.symm ?_)
  -- each row of the page is the sum of the part it was folded from
  refine Splitting.map_eq_of_forall₂ (summaries scan) fun run h_run summary h => ?_
  simp only [Function.comp_def, List.map_map]
  exact h.sum_runtime h_parse h_exact h_run date

/-- The sessions of a day are all fetched, as far as they are shown. -/
def Listed (zone : TimeZone) {d : Database} (scan : Scan d) (first : ℤ) : Prop :=
  ∀ s ∈ d.sessions, first ≤ zone.day s.startedAt →
    ∃ summary ∈ listRecentSessions scan logLimit, s.id ∈ summary.fragmentIds

/-- The rows that are not fetched are of earlier days. -/
theorem Listed.drop {first : ℤ} (h : Listed zone scan first) :
    ∀ row ∈ (ordered scan).drop logLimit, zone.day row.startedAt < first := by
  intro row h_row
  by_contra h_late
  obtain ⟨s, hs, a, -, rfl⟩ := exists_stored (List.mem_of_mem_drop h_row)
  obtain ⟨summary, h_summary, h_id⟩ := h s hs (not_lt.mp h_late)
  obtain ⟨run, h_run, h_of⟩ := Splitting.exists_of_forall₂ (summaries scan) h_summary
  rw [h_of.ids, List.mem_map] at h_id
  obtain ⟨row', h_row', h_id⟩ := h_id
  -- its id would be there twice
  have h_nodup : ((ordered scan).map RecentSession.id).Nodup :=
    (map_ordered_perm fun _ _ => rfl).nodup_iff.mpr d.session_ids_nodup
  rw [← List.take_append_drop logLimit (ordered scan), List.map_append,
    List.nodup_append] at h_nodup
  exact h_nodup.2.2 s.id (List.mem_map.mpr ⟨row', mem_fetched scan h_run h_row', h_id⟩) s.id
    (List.mem_map.mpr ⟨_, h_row, rfl⟩) rfl

/-- **The charts add up the sessions** under their own days. -/
theorem sum_startedOn {first : ℤ} (h_listed : Listed zone scan first) {keys : Finset GameKey}
    (h_hidden : ∀ s : Session, s.applicationId ∈ hidden ↔ OwnedBy d keys s) {date : ℤ}
    (h_date : first ≤ date) :
    ((startedOn zone.day d keys date).map Session.fullRuntimeSeconds).sum =
      Buckets.totalAt (ownDay zone) (runtime hidden) (entries zone scan) date := by
  -- the join loses no session, whatever order it has
  have h_join : ((ordered scan).map fun row =>
      if zone.day row.startedAt = date then runtime hidden (0, row) else 0).sum =
        (d.sessions.map fun s => if zone.day s.startedAt = date then
          (if s.applicationId ∈ hidden then 0 else s.fullRuntimeSeconds) else 0).sum :=
    (map_ordered_perm fun _ _ => rfl).sum_eq
  -- the entries are the rows that were fetched, each with its own day
  have h_entries : (entries zone scan).map (fun e => if ownDay zone e = date then runtime hidden e
      else 0) = (fetched scan).map fun row =>
        if zone.day row.startedAt = date then runtime hidden (0, row) else 0 := by
    unfold entries
    rw [← flatten_parts scan, List.map_flatMap, List.map_flatten, List.flatMap_def]
    simp only [List.map_map]
    rfl
  -- the rows that were not fetched are of days before the first one
  have h_dropped : (((ordered scan).drop logLimit).map fun row =>
      if zone.day row.startedAt = date then runtime hidden (0, row) else 0).sum = 0 := by
    refine List.sum_eq_zero (List.forall_mem_map.mpr fun row h_row => ?_)
    exact if_neg ((h_listed.drop row h_row).trans_le h_date).ne
  rw [← List.take_append_drop logLimit (ordered scan), List.map_append, List.sum_append, h_dropped,
    add_zero] at h_join
  rw [Buckets.totalAt_eq, h_entries]
  refine Eq.trans ?_ h_join.symm
  unfold startedOn
  rw [Buckets.sum_filter]
  refine congrArg _ (List.map_congr_left fun s _ => ?_)
  -- on its own day a session counts unless it is hidden, which is the same as blocked
  by_cases h_day : zone.day s.startedAt = date
  · simp only [h_day, and_true, ite_not, h_hidden, if_true]
  · simp only [h_day, and_false, if_false]

/-- **Where the sessions are logged**, as a condition on the entries. -/
theorem onTheirDays_iff {parse : String → Option ℤ} (h_parse : Reads parse) {first : ℤ} :
    OnTheirDays parse zone d first (recent (listRecentSessions scan logLimit) (some hidden)) ↔
      ∀ entry ∈ entries zone scan, first ≤ ownDay zone entry → runtime hidden entry ≠ 0 →
        entry.1 = ownDay zone entry := by
  refine ⟨?_, ?_⟩
  · intro h entry h_entry h_first h_runtime
    obtain ⟨run, h_run, h_row, h_day⟩ := (mem_entries zone scan).mp h_entry
    obtain ⟨summary, h_summary, h_of⟩ := Splitting.exists_of_forall₂ (summaries scan).flip h_run
    obtain ⟨s, hs, a, -, h_eq⟩ := exists_stored (mem_ordered (mem_fetched scan h_run h_row))
    have h_shown : entry.2.applicationId ∉ hidden := fun h_hidden => h_runtime (if_pos h_hidden)
    have h_full : entry.2.fullRuntimeSeconds ≠ 0 := by rwa [runtime, if_neg h_shown] at h_runtime
    have h_recent : summary ∈ recent (listRecentSessions scan logLimit) (some hidden) := by
      refine List.mem_filter.mpr ⟨h_summary, decide_eq_true ?_⟩
      rwa [← h_of.application entry.2 h_row]
    have h_id : s.id ∈ summary.fragmentIds := by
      rw [h_of.ids]
      exact List.mem_map.mpr ⟨entry.2, h_row, by rw [h_eq]; rfl⟩
    unfold ownDay at h_first ⊢
    rw [h_eq] at h_first h_full ⊢
    have h_logged := h summary h_recent s hs h_id h_first h_full
    rw [h_of.localDay_eq h_parse, Option.some_inj] at h_logged
    rw [h_day, h_logged]
    rfl
  · intro h summary h_recent s hs h_id h_first h_full
    obtain ⟨h_summary, h_shown⟩ := List.mem_filter.mp h_recent
    obtain ⟨run, h_run, h_of⟩ := Splitting.exists_of_forall₂ (summaries scan) h_summary
    rw [h_of.ids, List.mem_map] at h_id
    obtain ⟨row, h_row, h_id⟩ := h_id
    obtain ⟨s', hs', a, -, h_eq⟩ := exists_stored (mem_ordered (mem_fetched scan h_run h_row))
    -- the row is the one of the session
    obtain rfl : s' = s := d.session_unique hs' hs (by rw [← h_id, h_eq]; rfl)
    have h_entry := h (loggedOn zone run, row)
      ((mem_entries zone scan).mpr ⟨run, h_run, h_row, rfl⟩)
    rw [h_of.localDay_eq h_parse]
    unfold ownDay runtime at h_entry
    have h_shown : row.applicationId ∉ hidden := by
      rw [h_of.application row h_row]
      exact of_decide_eq_true h_shown
    rw [if_neg h_shown, h_eq] at h_entry
    exact congrArg some (h_entry h_first h_full)

end Entries

/-! ### The two panes -/

section Panes

variable {zone : TimeZone} {d : Database} {scan scan' : Scan d} {blocked : BlockedTable}
  {now : OffsetDateTime} {rows : List (DailyPlaytime ℤ)}

/-- **What the charts show** for a date is the runtime of the sessions of that day. -/
theorem fullRuntimeSeconds_heatmapCell {days : ℕ} (h_days : 1 ≤ days ∧ days ≤ 3650)
    (h_rows : listDailyPlaytime zone.toZone scan blocked now days = some rows) {date : ℤ}
    (h_since : firstDay zone.toZone now days ≤ date) :
    (heatmapCell (indexByDate rows) date).fullRuntimeSeconds =
      ((startedOn zone.day d (BlockedRepo.list blocked) date).map
        Session.fullRuntimeSeconds).sum := by
  obtain ⟨cutoff, h_cutoff, h_query⟩ := Option.bind_eq_some_iff.mp h_rows
  -- the query begins with the first day that is shown
  have h_day : zone.day cutoff = firstDay zone.toZone now days := by
    by_cases h_back : Calendar.firstNanos ≤ now.unixNanos - days * Zone.nanosPerDay
    · obtain ⟨cutoff', h_cutoff', h_day'⟩ := dailyCutoff_eq zone.toZone h_days h_back
      rw [h_cutoff, Option.some_inj] at h_cutoff'
      rw [h_cutoff']
      exact h_day'
    · rw [dailyCutoff_eq_none h_days h_back] at h_cutoff
      exact absurd h_cutoff (by simp)
  have h_exact := isDailyPlaytime_of_eq_some h_query
  have h_nodup : (rows.map DailyPlaytime.date).Nodup :=
    -- at most one row is about the day, and it adds up the sessions of it
    (h_exact.increasing.imp fun h_lt => h_lt.ne).map _ fun _ _ h_ne => h_ne
  calc (heatmapCell (indexByDate rows) date).fullRuntimeSeconds
      = (DailyPlaytime.on rows date).fullRuntimeSeconds := by
        unfold heatmapCell DailyPlaytime.on
        rw [indexByDate_eq h_nodup]
        cases rows.find? fun row => row.date = date <;> rfl
    _ = _ := by
        rw [h_exact.on_eq, if_pos (h_day.trans_le h_since)]
        exact zero_add _

/-- **The log and the charts**: the groups of the log are its rows in order, and their totals are
those of the charts, from a day on whose sessions are all fetched, if and only if every session that
has any runtime is logged on its own day. -/
theorem days_agree_iff {parse : String → Option ℤ} (h_parse : Reads parse)
    {keys : List GameKey} (h_keys : keys.toFinset = BlockedRepo.list blocked)
    (h_forward : Forward zone d)
    (h_exact : (d.sessions.map Session.fullRuntimeSeconds).sum < 2 ^ 53)
    (h_rows : listDailyPlaytime zone.toZone scan' blocked now 365 = some rows) {first : ℤ}
    (h_since : firstDay zone.toZone now 365 ≤ first) (h_listed : Listed zone scan first) :
    let log := recent (listRecentSessions scan logLimit) (some (listBlockedApplicationIds d keys))
    NewestFirst log (logDays parse zone log) ∧
      ((∀ date, first ≤ date → totalOn (logDays parse zone log) date =
          (heatmapCell (indexByDate rows) date).fullRuntimeSeconds) ↔
        OnTheirDays parse zone d first log) := by
  intro log
  refine ⟨newestFirst_recent h_parse h_forward _, ?_⟩
  have h_hidden : ∀ s : Session, s.applicationId ∈ listBlockedApplicationIds d keys ↔
      OwnedBy d (BlockedRepo.list blocked) s := fun s => mem_listBlockedApplicationIds h_keys
  have h_left : ∀ date, totalOn (logDays parse zone log) date =
      Buckets.totalAt Prod.fst (runtime (listBlockedApplicationIds d keys)) (entries zone scan)
        date := totalOn_recent h_parse h_exact
  have h_right : ∀ date, first ≤ date →
      (heatmapCell (indexByDate rows) date).fullRuntimeSeconds =
        Buckets.totalAt (ownDay zone) (runtime (listBlockedApplicationIds d keys))
          (entries zone scan) date := by
    intro date h_date
    rw [fullRuntimeSeconds_heatmapCell (by decide) h_rows (h_since.trans h_date)]
    exact sum_startedOn h_listed h_hidden h_date
  -- both panes add up the same entries, the one under the days of the spans
  rw [onTheirDays_iff h_parse, ← Buckets.totals_agree_iff (loggedOn_le h_forward)
    (runtime_nonneg zone scan _) first]
  refine forall_congr' fun date => forall_congr' fun h_date => ?_
  rw [h_left, h_right date h_date]

end Panes

/-- Twelve hours ahead of UTC. -/
def twelveAhead : TimeZone where
  offsetSeconds _ := 43200
  bounded _ := by decide
  seconds _ := rfl

/-- A game that was closed ten seconds before a midnight and was started again ten seconds after
it. -/
def pastMidnight : Database where
  applications := [ApplicationRepo.newRow 1 (newSteam "10" (.firstDay 0))]
  sessions := [closeRow ⟨90, 90, .firstDay 43190⟩ .terminated (newRow 1 1 (.firstDay 43100)),
    closeRow ⟨60, 60, .firstDay 43270⟩ .terminated (newRow 2 1 (.firstDay 43210))]
  groups := []
  applicationSeq := 1
  sessionSeq := 2
  checks := by decide
  uniques := by decide
  foreignKeys := by decide

/-- A minute of the second day is in the log of the first one. -/
theorem days_agree_iff_pastMidnight :
    ∃ parse, Reads parse ∧
      ¬ ∀ date, 0 ≤ date →
        totalOn (logDays parse twelveAhead (recent (listRecentSessions pastMidnight.scan logLimit)
          (some (listBlockedApplicationIds pastMidnight [])))) date =
        (heatmapCell (indexByDate [⟨0, 90, 90, 1⟩, ⟨1, 60, 60, 1⟩]) date).fullRuntimeSeconds := by
  have h_text : Function.Injective formatDatetime := fun t u h =>
    OffsetDateTime.text_injective (String.ofList_injective h)
  let parse := Function.extend formatDatetime (fun t => some (t.unixNanos / nanosPerMilli))
    fun _ => none
  have h_parse : Reads parse := h_text.extend_apply _ _
  refine ⟨parse, h_parse, fun h_agree => ?_⟩
  have h_rows : listDailyPlaytime twelveAhead.toZone pastMidnight.scan ⟨[], List.nodup_nil⟩
      (noonAfter 1) 365 = some [⟨0, 90, 90, 1⟩, ⟨1, 60, 60, 1⟩] := by
    decide +kernel
  have h_listed : Listed twelveAhead pastMidnight.scan 0 := by
    unfold Listed
    decide +kernel
  have h_keys : ([] : List GameKey).toFinset = BlockedRepo.list ⟨[], List.nodup_nil⟩ := rfl
  have h_forward : Forward twelveAhead pastMidnight := by
    unfold Forward
    decide
  have h_days := (days_agree_iff h_parse h_keys h_forward (by decide) h_rows (by decide)
    h_listed).2.mp h_agree
  -- the span of both sessions, which began on the first day
  obtain ⟨summary, h_summary, h_id, h_started⟩ :
      ∃ summary ∈ recent (listRecentSessions pastMidnight.scan logLimit)
        (some (listBlockedApplicationIds pastMidnight [])),
        2 ∈ summary.fragmentIds ∧ summary.startedAt = formatDatetime (.firstDay 43100) := by
    decide +kernel
  have h_own := h_days summary h_summary _ (List.mem_cons_of_mem _ List.mem_cons_self) h_id
    (by decide) (by decide)
  rw [h_started, localDay_formatDatetime h_parse, Option.some_inj] at h_own
  exact absurd h_own (by decide)

end ActivityLog

end Ludex
