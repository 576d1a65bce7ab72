import Ludex.Lib.Calendar
import Ludex.Lib.Clock
import Ludex.App.ActivityGrid
import Ludex.App.Heatmap

/-!
# The days of the clock grid

`buildLanes` of `activityGrid.ts` with the date cursor that it walks by `setHours` and `setDate`. A
`Date` is a number of milliseconds, or NaN (`none`) beyond 100 million days; its methods go to the
local time of the zone, change it there, and go back as ECMAScript says: a time that occurs twice is
the earlier one, and one that is skipped is as far behind the gap as it is in it.

`setDate` keeps the time of day of the cursor. So each lane is the local day that it stands for, as the
daemon's `DATE(..., 'localtime')` has it, where the days of the window open at midnight, whatever their
lengths (`buildLanes_days_iff`). After a midnight that is skipped the cursor stands at a later time of
day, and so do the boundaries of all days after it.
-/

namespace Ludex

open ActivityGrid (SessionRange Block DayLane clipToDay)

/-! ### The zone -/

/-- A zone whose offsets are less than a day and change between two seconds. -/
structure TimeZone extends Zone where
  bounded : ∀ nanos, -86400 < offsetSeconds nanos ∧ offsetSeconds nanos < 86400
  seconds : ∀ nanos, offsetSeconds (nanos / Calendar.nanosPerSecond * Calendar.nanosPerSecond) =
    offsetSeconds nanos

namespace TimeZone

def nanosPerMilli : ℤ := 1000000

def msPerDay : ℕ := 86400000

/-- The clock of the zone, in milliseconds. -/
def clock (zone : TimeZone) : Clock where
  day := msPerDay
  offset t := zone.offsetSeconds (t * nanosPerMilli) * 1000
  bounded t := by
    have h_bounded := zone.bounded (t * nanosPerMilli)
    unfold msPerDay
    omega

/-- **The daemon and the page** have one local calendar. -/
theorem dayAt_eq (zone : TimeZone) (nanos : ℤ) :
    zone.dayAt nanos = zone.clock.date (nanos / nanosPerMilli) := by
  -- the two instants are in one second
  have h_second : nanos / nanosPerMilli * nanosPerMilli / Calendar.nanosPerSecond =
      nanos / Calendar.nanosPerSecond := by
    unfold nanosPerMilli Calendar.nanosPerSecond
    omega
  have h_offset : zone.offsetSeconds (nanos / nanosPerMilli * nanosPerMilli) =
      zone.offsetSeconds nanos := by
    calc zone.offsetSeconds (nanos / nanosPerMilli * nanosPerMilli)
        = zone.offsetSeconds (nanos / nanosPerMilli * nanosPerMilli / Calendar.nanosPerSecond *
            Calendar.nanosPerSecond) := (zone.seconds _).symm
      _ = zone.offsetSeconds (nanos / Calendar.nanosPerSecond * Calendar.nanosPerSecond) := by
          rw [h_second]
      _ = zone.offsetSeconds nanos := zone.seconds nanos
  show (nanos + zone.offsetSeconds nanos * Calendar.nanosPerSecond) / Zone.nanosPerDay =
    (nanos / nanosPerMilli + zone.offsetSeconds (nanos / nanosPerMilli * nanosPerMilli) * 1000) /
      (msPerDay : ℤ)
  rw [h_offset]
  unfold nanosPerMilli msPerDay Zone.nanosPerDay Calendar.nanosPerSecond
  omega

/-- A zone whose offset changes once. -/
def changing (second before after : ℤ) (h_before : -86400 < before ∧ before < 86400)
    (h_after : -86400 < after ∧ after < 86400) : TimeZone where
  offsetSeconds nanos := if nanos / Calendar.nanosPerSecond < second then before else after
  bounded nanos := by
    split
    · exact h_before
    · exact h_after
  seconds nanos := by rw [Int.mul_ediv_cancel _ (by decide)]

theorem shown_changing (second : ℤ) {before after : ℤ}
    (h_before : -86400 < before ∧ before < 86400) (h_after : -86400 < after ∧ after < 86400) (t : ℤ) :
    (changing second before after h_before h_after).clock.shown t =
      if t < second * 1000 then t + before * 1000 else t + after * 1000 := by
  have h_second : t * nanosPerMilli / Calendar.nanosPerSecond < second ↔ t < second * 1000 := by
    unfold nanosPerMilli Calendar.nanosPerSecond
    omega
  show t + (if t * nanosPerMilli / Calendar.nanosPerSecond < second then before else after) * 1000 = _
  simp only [h_second]
  split <;> rfl

/-- Two changes of its offset are far apart, as there is one. -/
theorem separated_changing {second before after : ℤ} (h_before : -86400 < before ∧ before < 86400)
    (h_after : -86400 < after ∧ after < 86400) :
    (changing second before after h_before h_after).clock.Separated := by
  -- the clock changes at one instant only
  have h_once : ∀ t, (changing second before after h_before h_after).clock.Changes t →
      t = second * 1000 := by
    intro t h_t
    have h_previous := shown_changing second h_before h_after (t - 1)
    have h_shown := shown_changing second h_before h_after t
    unfold Clock.Changes at h_t
    unfold Clock.shown at h_previous h_shown
    by_contra h_ne
    -- at any other the shown times before and after differ by a millisecond
    split at h_previous <;> split at h_shown <;> omega
  -- so two changes cannot be close to each other
  intro s t h_s h_t h_lt
  rw [h_once s h_s, h_once t h_t] at h_lt
  exact absurd h_lt (lt_irrefl _)

theorem dayAt_mul (zone : TimeZone) (t : ℤ) : zone.dayAt (t * nanosPerMilli) = zone.clock.date t := by
  rw [dayAt_eq, Int.mul_ediv_cancel t (by decide)]

end TimeZone

open TimeZone (msPerDay nanosPerMilli)

namespace DayLanes

/-! ### Dates -/

/-- A time value that is not NaN. -/
def InRange (t : ℤ) : Prop := -8640000000000000 ≤ t ∧ t ≤ 8640000000000000

instance instDecidableInRange (t : ℤ) : Decidable (InRange t) := inferInstanceAs (Decidable (_ ∧ _))

/-- `TimeClip` -/
def timeClip (t : ℤ) : Option ℤ := if InRange t then some t else none

theorem timeClip_eq_some_iff {t u : ℤ} : timeClip t = some u ↔ InRange u ∧ t = u := by
  unfold timeClip
  by_cases h : InRange t
  · rw [if_pos h, Option.some.injEq]
    exact ⟨fun h_eq => ⟨h_eq ▸ h, h_eq⟩, And.right⟩
  · rw [if_neg h]
    refine iff_of_false nofun ?_
    rintro ⟨h_u, rfl⟩
    exact h h_u

section Methods

variable (zone : TimeZone)

def setHours (t hour minute second milli : ℤ) : Option ℤ :=
  timeClip (zone.clock.resolve (zone.clock.midnight (zone.clock.date t) +
    (hour * 3600000 + minute * 60000 + second * 1000 + milli)))

/-- The day of the month. -/
def getDate (t : ℤ) : ℤ := (Calendar.dateOfDays (zone.clock.date t)).day

/-- Go to a day of the month, or beyond it. The time of day stays. -/
def setDate (t dt : ℤ) : Option ℤ :=
  let date := Calendar.dateOfDays (zone.clock.date t)
  -- counted from the first of the month, so a day before or after the month is one of another month
  let day := Calendar.daysOfDate ⟨date.year, date.month, 1⟩ + dt - 1
  timeClip (zone.clock.resolve (zone.clock.midnight day + zone.clock.shown t % msPerDay))

/-- **Days are added** to the local time. -/
theorem setDate_getDate_add (t k : ℤ) :
    setDate zone t (getDate zone t + k) =
      timeClip (zone.clock.resolve (zone.clock.shown t + k * msPerDay)) := by
  have h_days := Calendar.daysOfDate_dateOfDays (zone.clock.date t)
  -- the month of the date cancels out: days are counted from its first
  have h_month : Calendar.daysOfDate ⟨(Calendar.dateOfDays (zone.clock.date t)).year,
      (Calendar.dateOfDays (zone.clock.date t)).month, 1⟩ + (getDate zone t + k) - 1 =
        zone.clock.date t + k := by
    rw [Calendar.daysOfDate_eq] at h_days
    unfold getDate
    omega
  -- the shown time is its day and the time of day
  have h_split := Int.mul_ediv_add_emod (zone.clock.shown t) msPerDay
  unfold setDate
  simp only [h_month]
  congr 2
  show (zone.clock.shown t / (msPerDay : ℤ) + k) * (msPerDay : ℤ) + _ = _
  unfold msPerDay at *
  omega

/-! ### The lanes -/

variable (dayCount nowMs : ℤ)

/-- The cursor before the loop. -/
def startCursor : Option ℤ := do
  let cursor ← timeClip nowMs
  let cursor ← setHours zone cursor 0 0 0 0
  setDate zone cursor (getDate zone cursor - (dayCount - 1))

/-- The cursor after `i` turns of the loop. -/
def cursorAt : ℕ → Option ℤ
  | 0 => startCursor zone dayCount nowMs
  | i + 1 => do
    let cursor ← cursorAt i
    setDate zone cursor (getDate zone cursor + 1)

variable (parse : String → Option ℚ) (sessions : List SessionRange)

/-- One turn of the loop. `none` is a lane whose boundaries are not numbers. -/
def laneAt (i : ℕ) : Option DayLane := do
  let dayStartMs ← cursorAt zone dayCount nowMs i
  let dayEndMs ← cursorAt zone dayCount nowMs (i + 1)
  return sessions.foldl
    (fun lane session => lane.add (clipToDay parse session dayStartMs dayEndMs nowMs))
    ⟨dayStartMs, dayEndMs, [], 0⟩

/-- Build `dayCount` lanes ending with the day containing `nowMs`. -/
def buildLanes : List (Option DayLane) :=
  if dayCount ≤ 0 then []
  else (List.range dayCount.toNat).map (laneAt zone dayCount nowMs parse sessions)

end Methods

/-! ### What the lanes are to be -/

/-- Lane `i` has boundaries, and they enclose exactly the instants, in nanoseconds, whose local
calendar day is the `(dayCount - 1 - i)`-th one before that of now. -/
def LanesAreDays (zone : TimeZone) (dayCount nowMs : ℤ) (lanes : List (Option DayLane)) : Prop :=
  lanes.length = dayCount.toNat ∧ ∀ i < dayCount.toNat, ∃ lane, lanes[i]? = some (some lane) ∧
    ∀ nanos : ℤ,
      zone.dayAt nanos = zone.dayAt (nowMs * nanosPerMilli) - (dayCount - 1 - i) ↔
        lane.dayStartMs * nanosPerMilli ≤ nanos ∧ nanos < lane.dayEndMs * nanosPerMilli

/-- The days of the window open at midnight, and times are in range. -/
def WindowOpens (zone : TimeZone) (dayCount nowMs : ℤ) : Prop :=
  0 < dayCount → InRange nowMs ∧ ∃ m : ℕ → ℤ,
    zone.clock.OpensAtMidnight (zone.clock.date nowMs - (dayCount - 1)) dayCount.toNat m ∧
      ∀ i ≤ dayCount.toNat, InRange (m i)

section Walk

variable {zone : TimeZone} {dayCount nowMs : ℤ} {parse : String → Option ℚ}
  {sessions : List SessionRange}

/-- The boundaries of a lane are where the cursor stood. -/
theorem laneAt_eq_some_iff {i : ℕ} {lane : DayLane} :
    laneAt zone dayCount nowMs parse sessions i = some lane ↔
      ∃ a b, cursorAt zone dayCount nowMs i = some a ∧ cursorAt zone dayCount nowMs (i + 1) = some b ∧
        lane = ActivityGrid.laneBetween parse sessions nowMs a b := by
  unfold laneAt
  simp only [Option.bind_eq_bind, Option.bind_eq_some_iff, Option.pure_def, Option.some.injEq]
  refine exists_congr fun a => ?_
  rw [← exists_and_left]
  refine exists_congr fun b => and_congr_right fun _ => and_congr_right fun _ => ?_
  rw [ActivityGrid.foldl_add]
  simp only [ActivityGrid.laneBetween, List.nil_append, zero_add]
  exact eq_comm

theorem cursor_inRange {i : ℕ} {a : ℤ} (h : cursorAt zone dayCount nowMs i = some a) : InRange a := by
  cases i with
  | zero =>
    obtain ⟨t, -, h_t⟩ := Option.bind_eq_some_iff.mp h
    obtain ⟨u, -, h_u⟩ := Option.bind_eq_some_iff.mp h_t
    exact (timeClip_eq_some_iff.mp h_u).1
  | succ i =>
    obtain ⟨t, -, h_t⟩ := Option.bind_eq_some_iff.mp h
    exact (timeClip_eq_some_iff.mp h_t).1

/-- A turn of the loop goes on by a day of local time. -/
theorem cursorAt_succ {i : ℕ} {a b : ℤ} (h : cursorAt zone dayCount nowMs i = some a) :
    cursorAt zone dayCount nowMs (i + 1) = some b ↔
      InRange b ∧ zone.clock.resolve (zone.clock.shown a + msPerDay) = b := by
  unfold cursorAt
  rw [h, Option.bind_eq_bind, Option.bind_some, setDate_getDate_add, one_mul, timeClip_eq_some_iff]

/-- Nanoseconds between two boundaries are those whose milliseconds are. -/
theorem nanos_between {a b nanos : ℤ} :
    ((a : ℚ) * nanosPerMilli ≤ nanos ∧ (nanos : ℚ) < b * nanosPerMilli) ↔
      a ≤ nanos / nanosPerMilli ∧ nanos / nanosPerMilli < b := by
  have h_cast : ((a : ℚ) * nanosPerMilli ≤ nanos ∧ (nanos : ℚ) < b * nanosPerMilli) ↔
      a * nanosPerMilli ≤ nanos ∧ nanos < b * nanosPerMilli := by
    norm_cast
  rw [h_cast]
  unfold nanosPerMilli
  omega

/-- **The lanes are days** if and only if the cursor comes to instants that cut the window into its
days. -/
theorem lanesAreDays_iff (h_pos : 0 < dayCount) :
    LanesAreDays zone dayCount nowMs (buildLanes zone dayCount nowMs parse sessions) ↔
      ∃ m : ℕ → ℤ, (∀ i ≤ dayCount.toNat, cursorAt zone dayCount nowMs i = some (m i)) ∧
        ∀ i < dayCount.toNat,
          zone.clock.IsDay (zone.clock.date nowMs - (dayCount - 1) + i) (m i) (m (i + 1)) := by
  have h_lane : ∀ i < dayCount.toNat, (buildLanes zone dayCount nowMs parse sessions)[i]? =
      some (laneAt zone dayCount nowMs parse sessions i) := by
    intro i h_i
    unfold buildLanes
    rw [if_neg (not_le.mpr h_pos), List.getElem?_map, List.getElem?_range h_i]
    rfl
  have h_length : (buildLanes zone dayCount nowMs parse sessions).length = dayCount.toNat := by
    unfold buildLanes
    rw [if_neg (not_le.mpr h_pos), List.length_map, List.length_range]
  -- the instants of a lane, in milliseconds
  have h_days : ∀ (i : ℕ) (a b : ℤ),
      (∀ nanos : ℤ, zone.dayAt nanos = zone.dayAt (nowMs * nanosPerMilli) - (dayCount - 1 - i) ↔
        (a : ℚ) * nanosPerMilli ≤ nanos ∧ (nanos : ℚ) < b * nanosPerMilli) ↔
        zone.clock.IsDay (zone.clock.date nowMs - (dayCount - 1) + i) a b := by
    intro i a b
    have h_index : zone.clock.date nowMs - (dayCount - 1 - i) =
        zone.clock.date nowMs - (dayCount - 1) + i := by omega
    simp only [zone.dayAt_mul, nanos_between, zone.dayAt_eq, h_index]
    refine ⟨fun h t => ?_, fun h nanos => h (nanos / nanosPerMilli)⟩
    have h_t := h (t * nanosPerMilli)
    rwa [Int.mul_ediv_cancel t (by decide)] at h_t
  unfold LanesAreDays
  rw [and_iff_right h_length]
  refine ⟨fun h => ?_, ?_⟩
  · have h_cursor : ∀ i < dayCount.toNat, ∃ a b, cursorAt zone dayCount nowMs i = some a ∧
        cursorAt zone dayCount nowMs (i + 1) = some b ∧
          zone.clock.IsDay (zone.clock.date nowMs - (dayCount - 1) + i) a b := by
      intro i h_i
      obtain ⟨lane, h_some, h_nanos⟩ := h i h_i
      rw [h_lane i h_i, Option.some.injEq, laneAt_eq_some_iff] at h_some
      obtain ⟨a, b, h_a, h_b, rfl⟩ := h_some
      exact ⟨a, b, h_a, h_b, (h_days i a b).mp h_nanos⟩
    refine ⟨fun i => (cursorAt zone dayCount nowMs i).getD 0, fun i h_i => ?_, fun i h_i => ?_⟩
    · -- each boundary is the beginning of a lane or the end of one
      cases i with
      | zero =>
        obtain ⟨a, b, h_a, -⟩ := h_cursor 0 (by omega)
        simp only [h_a, Option.getD_some]
      | succ i =>
        obtain ⟨a, b, -, h_b, -⟩ := h_cursor i h_i
        simp only [h_b, Option.getD_some]
    · obtain ⟨a, b, h_a, h_b, h_day⟩ := h_cursor i h_i
      simpa only [h_a, h_b, Option.getD_some] using h_day
  · -- a lane lies between two places of the cursor
    rintro ⟨m, h_cursor, h_day⟩ i h_i
    refine ⟨ActivityGrid.laneBetween parse sessions nowMs (m i) (m (i + 1)), ?_,
      (h_days i (m i) (m (i + 1))).mpr (h_day i h_i)⟩
    rw [h_lane i h_i, Option.some.injEq, laneAt_eq_some_iff]
    exact ⟨m i, m (i + 1), h_cursor i h_i.le, h_cursor (i + 1) h_i, rfl⟩

/-- The cursor goes to midnight, and then back by days of local time. -/
theorem startCursor_eq {w : ℤ} (h_now : InRange nowMs)
    (h_midnight : zone.clock.resolve (zone.clock.midnight (zone.clock.date nowMs)) = w)
    (h_w : InRange w) :
    startCursor zone dayCount nowMs =
      timeClip (zone.clock.resolve (zone.clock.shown w + -(dayCount - 1) * msPerDay)) := by
  have h_hours : setHours zone nowMs 0 0 0 0 = some w := by
    unfold setHours
    simp only [zero_mul, add_zero, h_midnight]
    exact if_pos h_w
  unfold startCursor
  rw [show timeClip nowMs = some nowMs from if_pos h_now, Option.bind_eq_bind, Option.bind_some,
    h_hours, Option.bind_some, sub_eq_add_neg (getDate zone w), setDate_getDate_add]

/-- The cursor comes to the beginning of each day that opens at midnight, whatever its length. -/
theorem cursorAt_of_opens {d : ℤ} {k : ℕ} {m : ℕ → ℤ} (h_k : dayCount - 1 = k)
    (h_d : d + k = zone.clock.date nowMs) (h_now : InRange nowMs)
    (h : zone.clock.OpensAtMidnight d (k + 1) m) (h_range : ∀ i ≤ k + 1, InRange (m i)) :
    ∀ i ≤ k + 1, cursorAt zone dayCount nowMs i = some (m i) := by
  intro i
  induction i with
  | zero =>
    intro _
    have h_today := h.resolve_eq (Nat.succ_pos k) (Nat.le_succ k)
    have h_first := h.resolve_eq (Nat.succ_pos k) (Nat.zero_le (k + 1))
    have h_back : zone.clock.shown (m k) + -(dayCount - 1) * msPerDay =
        zone.clock.midnight (d + (0 : ℕ)) := by
      rw [h.opens k (Nat.lt_succ_self k), h_k]
      show (d + k) * (msPerDay : ℤ) + -(k : ℤ) * msPerDay = (d + (0 : ℕ)) * (msPerDay : ℤ)
      push_cast
      ring
    -- midnight of today, and then that of the first day
    rw [h_d] at h_today
    show startCursor zone dayCount nowMs = some (m 0)
    rw [startCursor_eq h_now h_today (h_range k (Nat.le_succ k)), h_back, h_first]
    exact if_pos (h_range 0 (Nat.zero_le _))
  | succ i ih =>
    intro h_i
    rw [cursorAt_succ (ih (by omega)), h.opens i (by omega)]
    refine ⟨h_range (i + 1) h_i, ?_⟩
    have h_next := h.resolve_eq (Nat.succ_pos k) h_i
    rwa [Clock.midnight_add_succ] at h_next

/-- Where changes of the offset are far apart, it does so only then. -/
theorem opens_of_cursorAt (h_sep : zone.clock.Separated) {d : ℤ} {k : ℕ} {m : ℕ → ℤ}
    (h_d : d + k = zone.clock.date nowMs)
    (h_cursor : ∀ i ≤ k + 1, cursorAt zone dayCount nowMs i = some (m i))
    (h_days : ∀ i < k + 1, zone.clock.IsDay (d + i) (m i) (m (i + 1))) :
    zone.clock.OpensAtMidnight d (k + 1) m := by
  refine h_sep.opensAtMidnight h_days (fun i h_i => ?_) ?_
  · exact ((cursorAt_succ (h_cursor i h_i.le)).mp (h_cursor (i + 1) h_i)).2.symm
  · -- today has an instant
    have h_now := (h_days k (Nat.lt_succ_self k) nowMs).mp h_d.symm
    exact h_now.1.trans_lt h_now.2

theorem now_inRange {a : ℤ} (h : cursorAt zone dayCount nowMs 0 = some a) : InRange nowMs := by
  obtain ⟨t, h_t, -⟩ := Option.bind_eq_some_iff.mp h
  exact (timeClip_eq_some_iff.mp h_t).2 ▸ (timeClip_eq_some_iff.mp h_t).1

end Walk

/-- **Every lane is a local calendar day**, in every zone in which the days of the window open at
midnight, and the midnight after today closes it; and if no two changes of the offset of the zone are
within two days, only then. -/
theorem buildLanes_days_iff (zone : TimeZone) (parse : String → Option ℚ)
    (sessions : List SessionRange) (dayCount nowMs : ℤ) :
    (WindowOpens zone dayCount nowMs →
        LanesAreDays zone dayCount nowMs (buildLanes zone dayCount nowMs parse sessions)) ∧
      (zone.clock.Separated →
        (LanesAreDays zone dayCount nowMs (buildLanes zone dayCount nowMs parse sessions) ↔
          WindowOpens zone dayCount nowMs)) := by
  -- this direction holds in every zone, so it is part of the equivalence as well
  have h_if : WindowOpens zone dayCount nowMs →
      LanesAreDays zone dayCount nowMs (buildLanes zone dayCount nowMs parse sessions) := by
    intro h
    by_cases h_pos : 0 < dayCount
    · obtain ⟨h_now, m, h_opens, h_range⟩ := h h_pos
      obtain ⟨k, h_k⟩ := Int.eq_ofNat_of_zero_le (show 0 ≤ dayCount - 1 by omega)
      have h_n : dayCount.toNat = k + 1 := by omega
      rw [lanesAreDays_iff h_pos, h_n]
      rw [h_n] at h_opens h_range
      exact ⟨m, cursorAt_of_opens h_k (by omega) h_now h_opens h_range, h_opens.days⟩
    · -- there is no lane
      have h_none : dayCount.toNat = 0 := by omega
      unfold buildLanes LanesAreDays
      rw [if_pos (not_lt.mp h_pos), h_none]
      exact ⟨rfl, nofun⟩
  refine ⟨h_if, fun h_sep => ⟨fun h h_pos => ?_, h_if⟩⟩
  obtain ⟨k, h_k⟩ := Int.eq_ofNat_of_zero_le (show 0 ≤ dayCount - 1 by omega)
  have h_n : dayCount.toNat = k + 1 := by omega
  rw [lanesAreDays_iff h_pos, h_n] at h
  obtain ⟨m, h_cursor, h_days⟩ := h
  rw [h_n]
  exact ⟨now_inRange (h_cursor 0 (Nat.zero_le _)), m,
    opens_of_cursorAt h_sep (by omega) h_cursor h_days, fun i h_i => cursor_inRange (h_cursor i h_i)⟩

/-! ### Two zones in 2026 -/

/-- On 29 March, at 01:00 UTC, clocks go forward from 02:00 to 03:00. -/
def berlin : TimeZone := .changing 1774746000 3600 7200 (by decide) (by decide)

/-- The midnights around that day, which has 23 hours. -/
def berlinMidnight : ℕ → ℤ
  | 0 => 1774652400000
  | 1 => 1774738800000
  | i + 2 => 1774821600000 + i * 86400000

theorem shown_berlin (t : ℤ) :
    berlin.clock.shown t = if t < 1774746000000 then t + 3600000 else t + 7200000 :=
  TimeZone.shown_changing _ _ _ t

theorem date_berlin_eq_iff {t d : ℤ} :
    berlin.clock.date t = d ↔
      d * 86400000 ≤ berlin.clock.shown t ∧ berlin.clock.shown t < d * 86400000 + 86400000 :=
  Clock.date_eq_iff

/-- Three days around the change, at noon of the third one. -/
theorem buildLanes_days_iff_berlin :
    LanesAreDays berlin 3 1774864800000 (buildLanes berlin 3 1774864800000 (fun _ => none) []) := by
  -- today is 30 March, the day after the change of the clock
  have h_today : berlin.clock.date 1774864800000 = 20542 := by
    rw [date_berlin_eq_iff, shown_berlin]
    decide
  have h_sep : berlin.clock.Separated := TimeZone.separated_changing _ _
  refine ((buildLanes_days_iff berlin (fun _ => none) [] 3 1774864800000).2 h_sep).mpr fun _ =>
    ⟨by decide, berlinMidnight, ?_, ?_⟩
  · have h_cases : ∀ i : ℕ, i < 3 → i = 0 ∨ i = 1 ∨ i = 2 := by omega
    rw [h_today]
    -- the midnights of the three days, the second of which has 23 hours
    refine ⟨fun i h_i t => ?_, fun i h_i => ?_, Or.inl ⟨?_, fun u h_u => ?_⟩⟩
    · rw [date_berlin_eq_iff, shown_berlin]
      rcases h_cases i h_i with rfl | rfl | rfl <;> simp only [berlinMidnight] <;> split <;> omega
    · rw [shown_berlin]
      rcases h_cases i h_i with rfl | rfl | rfl <;> rfl
    · rw [shown_berlin]
      rfl
    · have h_shown : berlin.clock.shown u = 1774915200000 := h_u
      rw [shown_berlin] at h_shown
      show 1774908000000 ≤ u
      split at h_shown <;> omega
  · -- and these are the instants the lanes were cut at
    intro i h_i
    have h_cases : i = 0 ∨ i = 1 ∨ i = 2 ∨ i = 3 := by
      have h_le : i ≤ 3 := h_i
      omega
    rcases h_cases with rfl | rfl | rfl | rfl <;> decide

/-- On 24 April, at 00:00, clocks go forward to 01:00. -/
def cairo : TimeZone := .changing 1776981600 7200 10800 (by decide) (by decide)

theorem shown_cairo (t : ℤ) :
    cairo.clock.shown t = if t < 1776981600000 then t + 7200000 else t + 10800000 :=
  TimeZone.shown_changing _ _ _ t

/-- **A midnight that is skipped**: half an hour into 25 April the lane of the day before goes on, and
the one of that day has not begun. -/
theorem lanes_shifted_cairo :
    cursorAt cairo 2 1777066200000 0 = some 1776981600000 ∧
      cursorAt cairo 2 1777066200000 1 = some 1777068000000 ∧
      ¬ LanesAreDays cairo 2 1777066200000 (buildLanes cairo 2 1777066200000 (fun _ => none) []) := by
  have h_today : cairo.clock.date 1777066200000 = 20568 := by
    rw [Clock.date_eq_iff, shown_cairo]
    decide
  -- midnight of 25 April, and then the one of 24 April, which the clock does not show
  have h_midnight : cairo.clock.resolve (20568 * 86400000) = 1777064400000 := by
    refine Clock.resolve_of_first (by rw [shown_cairo]; rfl) fun u h_u => ?_
    rw [shown_cairo] at h_u
    split at h_u <;> omega
  have h_skipped : cairo.clock.resolve (20567 * 86400000) = 1776981600000 := by
    refine (Clock.resolve_of_skipped (t := 1776981599999) (y := 20567 * 86400000 - 1)
      (by rw [shown_cairo]; rfl) (by decide) (fun u h_u => ?_) fun z h_z h_z' h_shows => ?_).trans rfl
    · rw [shown_cairo] at h_u
      split at h_u <;> omega
    · obtain ⟨u, h_u⟩ := Clock.shows_iff.mp h_shows
      rw [shown_cairo] at h_u
      split at h_u <;> omega
  have h_first : cursorAt cairo 2 1777066200000 0 = some 1776981600000 := by
    have h_back : cairo.clock.shown 1777064400000 + -(2 - 1) * msPerDay = 20567 * 86400000 := by
      rw [shown_cairo]
      rfl
    have h_hours : cairo.clock.resolve (cairo.clock.midnight (cairo.clock.date 1777066200000)) =
        1777064400000 := by
      rw [h_today]
      exact h_midnight
    show startCursor cairo 2 1777066200000 = _
    rw [startCursor_eq (by decide) h_hours (by decide), h_back, h_skipped]
    rfl
  -- an hour into the day, as before
  have h_second : cursorAt cairo 2 1777066200000 1 = some 1777068000000 := by
    have h_next : cairo.clock.shown 1776981600000 + msPerDay = 1777078800000 := by
      rw [shown_cairo]
      rfl
    rw [cursorAt_succ h_first, h_next]
    refine ⟨by decide, Clock.resolve_of_first (by rw [shown_cairo]; rfl) fun u h_u => ?_⟩
    rw [shown_cairo] at h_u
    split at h_u <;> omega
  refine ⟨h_first, h_second, fun h => ?_⟩
  obtain ⟨m, h_cursor, h_days⟩ := (lanesAreDays_iff (by decide)).mp h
  have h_m : m 1 = 1777068000000 := Option.some.inj ((h_cursor 1 (by decide)).symm.trans h_second)
  have h_now := (h_days 1 (by decide) 1777066200000).mp (by omega)
  rw [h_m] at h_now
  exact absurd h_now.1 (by decide)

end DayLanes

end Ludex
