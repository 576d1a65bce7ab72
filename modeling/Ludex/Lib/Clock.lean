import Mathlib.Algebra.Order.Group.Unbundled.Int
import Mathlib.Data.Nat.Find
import Mathlib.Tactic.Common

/-!
# Clocks that are set forward and back

A clock shows each instant at an offset, less than a day, that may change at any instant. So a time
may be shown by one instant, by several of them (the clock was set back), or by none (it was set
forward).

`Clock.resolve` is the instant that a time stands for: the first one that shows it
(`resolve_of_first`). A time that is skipped is taken with the offset from before the gap, so it is as
far behind the beginning of the gap as the time is (`resolve_of_skipped`).

Where changes of the offset are far apart (`Clock.Separated`) the clock runs evenly for a while after
each of them.

The second half is about days. A cursor that goes on by a day of shown time, again and again, comes to
the beginning of each day if all of them begin at midnight (`OpensAtMidnight.resolve_eq`), and only
then if changes are far apart (`Separated.opensAtMidnight`): after a midnight that is skipped it keeps
the time of day at which it has arrived.
-/

/-- A clock. -/
structure Clock where
  /-- Units in a day. -/
  day : ℕ
  offset : ℤ → ℤ
  bounded : ∀ t, -(day : ℤ) < offset t ∧ offset t < day

namespace Clock

variable (c : Clock)

/-- What the clock shows at an instant. -/
def shown (t : ℤ) : ℤ := t + c.offset t

/-- The day that the clock shows. -/
def date (t : ℤ) : ℤ := c.shown t / c.day

theorem shown_range (t : ℤ) : t - c.day < c.shown t ∧ c.shown t < t + c.day := by
  have h_bounded := c.bounded t
  unfold shown
  omega

theorem day_pos : 0 < (c.day : ℤ) := by
  have h_bounded := c.bounded 0
  omega

/-- The time at which a day begins. -/
def midnight (d : ℤ) : ℤ := d * c.day

theorem midnight_succ (d : ℤ) : c.midnight (d + 1) = c.midnight d + c.day := by
  unfold midnight
  rw [Int.add_mul, Int.one_mul]

theorem date_eq_iff {c : Clock} {t d : ℤ} :
    c.date t = d ↔ c.midnight d ≤ c.shown t ∧ c.shown t < c.midnight d + c.day := by
  unfold date midnight
  rw [Int.ediv_eq_iff_of_pos c.day_pos]

/-! ### Times that are shown -/

/-- Some instant shows the time. It is less than a day away. -/
def Shows (x : ℤ) : Prop := ∃ k < 2 * c.day, c.shown (x - c.day + k) = x

instance instDecidableShows (x : ℤ) : Decidable (c.Shows x) :=
  inferInstanceAs (Decidable (∃ k < 2 * c.day, c.shown (x - c.day + k) = x))

variable {c} {t u v x y : ℤ}

/-- Where in its range an instant is. -/
theorem exists_range (h : c.shown t = x) : ∃ k < 2 * c.day, x - c.day + k = t := by
  have h_range := c.shown_range t
  refine ⟨(t - x + c.day).toNat, ?_, ?_⟩
  · omega
  · omega

theorem shows_of_shown (h : c.shown t = x) : c.Shows x := by
  obtain ⟨k, h_k, h_eq⟩ := exists_range h
  exact ⟨k, h_k, by rw [h_eq, h]⟩

theorem shows_iff : c.Shows x ↔ ∃ t, c.shown t = x := by
  refine ⟨?_, ?_⟩
  · rintro ⟨k, -, h_k⟩
    exact ⟨_, h_k⟩
  · rintro ⟨t, h_t⟩
    exact shows_of_shown h_t

/-- There is a time before any other one. -/
theorem exists_shows_before (c : Clock) (x : ℤ) : ∃ j : ℕ, c.Shows (x - 1 - j) := by
  have h_range := c.shown_range (x - c.day)
  refine ⟨(x - 1 - c.shown (x - c.day)).toNat, shows_of_shown (t := x - c.day) ?_⟩
  omega

/-! ### Resolution -/

/-- The first instant that shows a time. -/
def first (c : Clock) {x : ℤ} (h : c.Shows x) : ℤ := x - c.day + Nat.find h

/-- The last instant that shows a time, if there is one. -/
def last (c : Clock) (x : ℤ) : ℤ :=
  x - c.day + Nat.findGreatest (fun k => c.shown (x - c.day + k) = x) (2 * c.day)

/-- The greatest time before another one that is shown. -/
def shownBefore (c : Clock) (x : ℤ) : ℤ := x - 1 - Nat.find (c.exists_shows_before x)

/-- The instant that a time stands for. -/
def resolve (c : Clock) (x : ℤ) : ℤ :=
  x - c.offset (if h : c.Shows x then c.first h else c.last (c.shownBefore x))

theorem shown_first (h : c.Shows x) : c.shown (c.first h) = x := (Nat.find_spec h).2

theorem first_le (h : c.Shows x) (h_u : c.shown u = x) : c.first h ≤ u := by
  obtain ⟨k, h_k, rfl⟩ := exists_range h_u
  have h_min := Nat.find_min' h ⟨h_k, h_u⟩
  unfold first
  omega

theorem shown_last (h : c.shown t = x) : c.shown (c.last x) = x := by
  obtain ⟨k, h_k, rfl⟩ := exists_range h
  exact Nat.findGreatest_spec (P := fun k : ℕ => c.shown (x - c.day + k) = x) h_k.le h

theorem le_last (h : c.shown t = x) : t ≤ c.last x := by
  obtain ⟨k, h_k, rfl⟩ := exists_range h
  have h_le := Nat.le_findGreatest (P := fun k : ℕ => c.shown (x - c.day + k) = x) h_k.le h
  unfold last
  omega

theorem shows_shownBefore (c : Clock) (x : ℤ) : c.Shows (c.shownBefore x) :=
  Nat.find_spec (c.exists_shows_before x)

theorem shownBefore_lt (c : Clock) (x : ℤ) : c.shownBefore x < x := by
  unfold shownBefore
  omega

theorem le_shownBefore (h : c.shown t = y) (h_lt : y < x) : y ≤ c.shownBefore x := by
  have h_shows : c.Shows (x - 1 - (x - 1 - y).toNat) := by
    refine shows_of_shown (t := t) ?_
    omega
  have h_min := Nat.find_min' (c.exists_shows_before x) h_shows
  unfold shownBefore
  omega

theorem resolve_of_shows (h : c.Shows x) : c.resolve x = c.first h := by
  have h_shown : c.first h + c.offset (c.first h) = x := shown_first h
  unfold resolve
  rw [dif_pos h]
  omega

/-- **A time that is shown** stands for the first instant that shows it. -/
theorem resolve_of_first (h : c.shown t = x) (h_first : ∀ u, c.shown u = x → t ≤ u) :
    c.resolve x = t := by
  have h_shows := shows_of_shown h
  rw [resolve_of_shows h_shows]
  exact le_antisymm (first_le h_shows h) (h_first _ (shown_first h_shows))

theorem shown_resolve (h : c.shown t = x) : c.shown (c.resolve x) = x := by
  rw [resolve_of_shows (shows_of_shown h), shown_first]

theorem resolve_le (h : c.shown t = x) : c.resolve x ≤ t := by
  rw [resolve_of_shows (shows_of_shown h)]
  exact first_le _ h

/-- A time that is skipped, seen from the last instant that shows the greatest time before it. -/
theorem resolve_of_not_shows (h : ¬ c.Shows x) :
    c.resolve x = c.last (c.shownBefore x) + (x - c.shownBefore x) := by
  obtain ⟨t, h_t⟩ := shows_iff.mp (c.shows_shownBefore x)
  have h_last : c.last (c.shownBefore x) + c.offset (c.last (c.shownBefore x)) = c.shownBefore x :=
    shown_last h_t
  -- it is read with the offset in force before the gap
  unfold resolve
  rw [dif_neg h]
  omega

/-- **A time that is skipped** stands for an instant behind the gap. -/
theorem resolve_of_skipped (h : c.shown t = y) (h_lt : y < x) (h_last : ∀ u, c.shown u = y → u ≤ t)
    (h_gap : ∀ z, y < z → z ≤ x → ¬ c.Shows z) : c.resolve x = t + (x - y) := by
  have h_before : c.shownBefore x = y := by
    refine le_antisymm (not_lt.mp fun h_y => ?_) (le_shownBefore h h_lt)
    exact h_gap _ h_y (c.shownBefore_lt x).le (c.shows_shownBefore x)
  rw [resolve_of_not_shows (h_gap x h_lt le_rfl), h_before]
  rw [le_antisymm (h_last _ (shown_last h)) (le_last h)]

/-- A time stands for an instant less than a day from it. -/
theorem resolve_range (c : Clock) (x : ℤ) : x - c.day < c.resolve x ∧ c.resolve x < x + c.day := by
  have h_bounded := c.bounded (if h : c.Shows x then c.first h else c.last (c.shownBefore x))
  unfold resolve
  omega

/-! ### Changes that are far apart -/

/-- The offset changes at the instant. -/
def Changes (c : Clock) (t : ℤ) : Prop := c.offset (t - 1) ≠ c.offset t

/-- Any two changes of the offset are more than two days apart. -/
def Separated (c : Clock) : Prop :=
  ∀ s t, c.Changes s → c.Changes t → s < t → s + 2 * c.day < t

/-- Where the offset stays, the instant before shows the time before. -/
theorem shown_sub_one (h : c.offset (t - 1) = c.offset t) : c.shown (t - 1) = c.shown t - 1 := by
  unfold shown
  rw [h]
  omega

/-- Without changes the clock runs evenly. -/
theorem shown_of_not_changes (h_le : t ≤ u) (h : ∀ s, t < s → s ≤ u → ¬ c.Changes s) :
    c.shown u = c.shown t + (u - t) := by
  induction u, h_le using Int.leInduction with
  | base =>
    rw [sub_self, add_zero]
  | succ u h_le ih =>
    have h_step := shown_sub_one (not_not.mp (h (u + 1) (by omega) le_rfl))
    have h_u := ih fun s h_s h_s' => h s h_s (by omega)
    rw [add_sub_cancel_right] at h_step
    omega

/-- After a change the clock runs evenly for two days. -/
theorem Separated.shown_after (h : c.Separated) (h_t : c.Changes t) (h_le : t ≤ u)
    (h_near : u ≤ t + 2 * c.day) : c.shown u = c.shown t + (u - t) :=
  shown_of_not_changes h_le fun s h_s h_s' h_changes => by
    have h_far := h t s h_t h_changes h_s
    omega

/-! ### Days -/

/-- The day is shown from `a` on and before `b`, and at no other instant. -/
def IsDay (c : Clock) (d a b : ℤ) : Prop := ∀ t, c.date t = d ↔ a ≤ t ∧ t < b

/-- The midnight of a day is first shown at `b`, or it is skipped, in a gap that begins with it at
`b`. -/
def ClosesAt (c : Clock) (d b : ℤ) : Prop :=
  (c.shown b = c.midnight d ∧ ∀ u, c.shown u = c.midnight d → b ≤ u) ∨
    ¬ c.Shows (c.midnight d) ∧ c.shown (b - 1) = c.midnight d - 1

/-- Each of `n` days is shown in one stretch, from the instant `m i` on, and begins at a midnight that
is shown; the midnight after them closes the last one. -/
structure OpensAtMidnight (c : Clock) (d : ℤ) (n : ℕ) (m : ℕ → ℤ) : Prop where
  days : ∀ i < n, c.IsDay (d + i) (m i) (m (i + 1))
  opens : ∀ i < n, c.shown (m i) = c.midnight (d + i)
  closes : c.ClosesAt (d + n) (m n)

section Days

variable {a b d e : ℤ}

theorem add_natCast_succ (d : ℤ) (i : ℕ) : d + (i + 1 : ℕ) = d + i + 1 := by
  omega

theorem midnight_add_succ (c : Clock) (d : ℤ) (i : ℕ) :
    c.midnight (d + (i + 1 : ℕ)) = c.midnight (d + i) + c.day := by
  rw [add_natCast_succ, midnight_succ]

theorem date_of_shown_midnight (h : c.shown t = c.midnight d) : c.date t = d := by
  have h_pos := c.day_pos
  rw [date_eq_iff]
  omega

/-- **Midnight stands for the beginning of a day** that opens with it. -/
theorem OpensAtMidnight.resolve_eq {n : ℕ} {m : ℕ → ℤ} (h : c.OpensAtMidnight d n m) (h_pos : 0 < n)
    {i : ℕ} (hi : i ≤ n) : c.resolve (c.midnight (d + i)) = m i := by
  rcases Nat.lt_or_eq_of_le hi with h_lt | rfl
  · refine resolve_of_first (h.opens i h_lt) fun u h_u => ?_
    exact ((h.days i h_lt u).mp (date_of_shown_midnight h_u)).1
  · rcases h.closes with ⟨h_shown, h_first⟩ | ⟨h_skipped, h_before⟩
    · exact resolve_of_first h_shown h_first
    · -- the gap follows the last time of the last day
      obtain ⟨k, rfl⟩ := Nat.exists_eq_add_one_of_ne_zero h_pos.ne'
      have h_next := c.midnight_add_succ d k
      have h_day := c.day_pos
      have h_last : ∀ u, c.shown u = c.midnight (d + (k + 1 : ℕ)) - 1 → u ≤ m (k + 1) - 1 := by
        intro u h_u
        have h_date : c.date u = d + k := date_eq_iff.mpr (by omega)
        have h_in := (h.days k (Nat.lt_succ_self k) u).mp h_date
        omega
      rw [resolve_of_skipped h_before (by omega) h_last]
      · omega
      · intro z h_z h_z'
        obtain rfl : z = c.midnight (d + (k + 1 : ℕ)) := le_antisymm h_z' (by omega)
        exact h_skipped

/-- A day that begins at another time than midnight begins with a change of the offset. -/
theorem changes_of_isDay (h_day : c.IsDay d a b) (h_lt : a < b) (h_ne : c.shown a ≠ c.midnight d) :
    c.Changes a := by
  intro h_offset
  have h_a := date_eq_iff.mp ((h_day a).mpr ⟨le_rfl, h_lt⟩)
  -- otherwise the instant before would show the same day
  have h_before : c.date (a - 1) = d := by
    rw [date_eq_iff, shown_sub_one h_offset]
    omega
  have h_in := (h_day (a - 1)).mp h_before
  omega

namespace Separated

/-- **A day from which the cursor goes on to its end** begins at midnight. -/
theorem opens (h : c.Separated) (h_day : c.IsDay d a b) (h_lt : a < b)
    (h_step : b = c.resolve (c.shown a + c.day)) : c.shown a = c.midnight d := by
  by_contra h_ne
  have h_changes := changes_of_isDay h_day h_lt h_ne
  have h_a := date_eq_iff.mp ((h_day a).mpr ⟨le_rfl, h_lt⟩)
  have h_even : ∀ u, a ≤ u → u ≤ a + 2 * c.day → c.shown u = c.shown a + (u - a) :=
    fun u => h.shown_after h_changes
  have h_pos := c.day_pos
  -- the next day has begun before the clock shows the time of day at which this one began
  have h_next : ¬ (a ≤ c.midnight d + c.day - c.shown a + a ∧
      c.midnight d + c.day - c.shown a + a < b) := by
    rw [← h_day, date_eq_iff, h_even _ (by omega) (by omega)]
    omega
  have h_shows : c.shown (a + c.day) = c.shown a + c.day := by
    rw [h_even _ (by omega) (by omega)]
    omega
  have h_b : c.shown b = c.shown a + c.day := by rw [h_step, shown_resolve h_shows]
  have h_le : b ≤ a + c.day := by rw [h_step]; exact resolve_le h_shows
  have h_shown_b := h_even b h_lt.le (by omega)
  omega

/-- A day before one that begins at midnight is shown, if the cursor goes on from the one to the
other. -/
theorem nonempty (h : c.Separated) (h_day : c.IsDay d e a)
    (h_open : c.shown a = c.midnight (d + 1)) (h_step : a = c.resolve (c.shown e + c.day)) :
    e < a := by
  by_contra h_empty
  have h_pos := c.day_pos
  have h_succ := c.midnight_succ d
  -- the last time of the day is not shown, so the offset changes
  have h_changes : c.Changes a := by
    intro h_offset
    have h_before : c.date (a - 1) = d := by
      rw [date_eq_iff, shown_sub_one h_offset]
      omega
    have h_in := (h_day (a - 1)).mp h_before
    omega
  have h_range := c.resolve_range (c.shown e + c.day)
  have h_shown := c.shown_range e
  have h_even : ∀ u, a ≤ u → u ≤ a + 2 * c.day → c.shown u = c.shown a + (u - a) :=
    fun u => h.shown_after h_changes
  -- the cursor is not far behind, where the clock runs evenly, so it goes on
  have h_e := h_even e (by omega) (by omega)
  have h_shows : c.shown (e + c.day) = c.shown e + c.day := by
    rw [h_even _ (by omega) (by omega)]
    omega
  have h_a : c.shown a = c.shown e + c.day := by
    conv_lhs => rw [h_step]
    exact shown_resolve h_shows
  omega

/-- **The midnight after a day** closes it, if it stands for its end. -/
theorem closes (h : c.Separated) (h_day : c.IsDay d a b) (h_lt : a < b)
    (h_open : c.shown a = c.midnight d) (h_step : b = c.resolve (c.shown a + c.day)) :
    c.ClosesAt (d + 1) b := by
  have h_pos := c.day_pos
  unfold ClosesAt
  rw [h_open, ← midnight_succ] at h_step
  have h_succ := c.midnight_succ d
  by_cases h_shows : c.Shows (c.midnight (d + 1))
  · -- the cursor goes to the first of the instants that show it
    obtain ⟨t, h_t⟩ := shows_iff.mp h_shows
    rw [h_step]
    exact Or.inl ⟨shown_resolve h_t, fun u h_u => resolve_le h_u⟩
  · refine Or.inr ⟨h_shows, ?_⟩
    -- the skipped time is counted on from the last instant before the gap
    have h_b := resolve_of_not_shows h_shows
    rw [← h_step] at h_b
    obtain ⟨u, h_u⟩ := shows_iff.mp (c.shows_shownBefore (c.midnight (d + 1)))
    have h_last := shown_last h_u
    have h_before_lt := c.shownBefore_lt (c.midnight (d + 1))
    have h_le := le_shownBefore (x := c.midnight (d + 1)) h_open (by omega)
    have h_end := date_eq_iff.mp ((h_day (b - 1)).mpr (by omega))
    have h_end_le := le_shownBefore (c := c) (x := c.midnight (d + 1)) (t := b - 1) rfl (by omega)
    by_contra h_ne
    -- otherwise the clock has been set back from the greatest time that is shown, and is now set
    -- forward over the gap
    have h_earlier : c.shown (b - 1) ≠ c.shownBefore (c.midnight (d + 1)) := by
      intro h_eq
      have h_late := le_last h_eq
      omega
    have h_forward : c.Changes b := by
      intro h_offset
      have h_pred := shown_sub_one h_offset
      have h_b_day : c.date b = d := by
        rw [date_eq_iff]
        omega
      exact absurd ((h_day b).mp h_b_day).2 (lt_irrefl b)
    have h_back : ∃ s, c.last (c.shownBefore (c.midnight (d + 1))) < s ∧ s ≤ b - 1 ∧ c.Changes s := by
      by_contra h_none
      have h_even := shown_of_not_changes (c := c)
        (t := c.last (c.shownBefore (c.midnight (d + 1)))) (u := b - 1) (by omega)
        fun s h_s h_s' h_changes => h_none ⟨s, h_s, h_s', h_changes⟩
      omega
    obtain ⟨s, h_s, h_s', h_changes⟩ := h_back
    have h_far := h s b h_changes h_forward (by omega)
    omega

/-- **A cursor comes to the beginning of each day** only where all days open at midnight. The last
day is shown. -/
theorem opensAtMidnight (h : c.Separated) {k : ℕ} {m : ℕ → ℤ}
    (h_days : ∀ i < k + 1, c.IsDay (d + i) (m i) (m (i + 1)))
    (h_steps : ∀ i < k + 1, m (i + 1) = c.resolve (c.shown (m i) + c.day))
    (h_last : m k < m (k + 1)) : c.OpensAtMidnight d (k + 1) m := by
  -- from the last day to the first one, as each is shown if the next one is
  have h_shown : ∀ j ≤ k, ∀ i, i + j = k → m i < m (i + 1) := by
    intro j
    induction j with
    | zero =>
      rintro - i rfl
      exact h_last
    | succ j ih =>
      intro h_j i h_i
      have h_next := ih (by omega) (i + 1) (by omega)
      have h_open := h.opens (h_days (i + 1) (by omega)) h_next (h_steps (i + 1) (by omega))
      rw [add_natCast_succ] at h_open
      exact h.nonempty (h_days i (by omega)) h_open (h_steps i (by omega))
  have h_opens : ∀ i < k + 1, c.shown (m i) = c.midnight (d + i) := fun i h_i =>
    h.opens (h_days i h_i) (h_shown (k - i) (by omega) i (by omega)) (h_steps i h_i)
  refine ⟨h_days, h_opens, ?_⟩
  have h_closes := h.closes (h_days k (Nat.lt_succ_self k)) h_last (h_opens k (Nat.lt_succ_self k))
    (h_steps k (Nat.lt_succ_self k))
  rwa [← add_natCast_succ] at h_closes

end Separated

end Days

end Clock
