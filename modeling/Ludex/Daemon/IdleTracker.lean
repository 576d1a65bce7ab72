import Ludex.Lib.I64
import Ludex.Lib.Calendar

/-!
# `IdleTracker`

The accumulator of `idle.rs`. It keeps the durations of the idle intervals that have ended, in
whole seconds, and the instant the current one began. The methods that read the clock under the
lock take its reading as an argument.
-/

namespace Ludex

open Calendar (nanosPerSecond)

/-! ### Instants -/

/-- A reading of `CLOCK_MONOTONIC`, in nanoseconds. Its seconds are an `i64` that starts near zero
at boot. -/
structure Instant where
  nanos : ℕ
  inRange : nanos < 2 ^ 63 * nanosPerSecond
deriving DecidableEq

namespace Instant

theorem nanos_injective : Function.Injective nanos := by
  rintro ⟨a, _⟩ ⟨b, _⟩ h
  obtain rfl : a = b := h
  rfl

instance : LinearOrder Instant := LinearOrder.lift' nanos nanos_injective

theorem le_iff {a b : Instant} : a ≤ b ↔ a.nanos ≤ b.nanos := Iff.rfl

instance : NeZero (2 ^ 32) := ⟨by decide⟩

/-- The instant a number of seconds after boot. -/
def ofSeconds (n : Fin (2 ^ 32)) : Instant where
  nanos := n.val * nanosPerSecond
  inRange := by
    have h := n.isLt
    unfold nanosPerSecond
    omega

/-- Whole seconds from `t` to `now`, zero when `t` is later. -/
def secondsSince (t now : Instant) : ℤ := I64.ofU64 ((now.nanos - t.nanos) / nanosPerSecond)

/-- The seconds between two instants fit an `i64`. -/
theorem secondsSince_eq (t now : Instant) :
    secondsSince t now = ((now.nanos - t.nanos) / nanosPerSecond : ℕ) := by
  have h_now := now.inRange
  unfold secondsSince I64.ofU64
  unfold nanosPerSecond at *
  rw [if_pos (by omega)]

end Instant

/-! ### The accumulator -/

namespace IdleTracker

/-- Locked state of the idle accumulator. -/
structure State where
  /-- Durations of the completed idle periods. -/
  closedIntervalsSeconds : List ℤ := []
  /-- When the current idle interval started, if any. -/
  since : Option Instant := none

/-- Snapshot for a session opening now: the number of closed intervals, and the seconds already
elapsed on the interval that is open. -/
def sessionStartBaseline (s : State) (now : Instant) : ℕ × ℤ :=
  (s.closedIntervalsSeconds.length, s.since.elim 0 fun since => since.secondsSince now)

/-- What is forgiven of an interval. The first one after the baseline may have been open at the
start of the session. -/
def forgiven (baselineOpenSeconds graceSeconds : ℤ) (first : Bool) : ℤ :=
  if first then max baselineOpenSeconds graceSeconds else graceSeconds

/-- Bill one interval: the running total, and whether the next interval is the first. -/
def billInterval (baselineOpenSeconds graceSeconds : ℤ) (acc : ℤ × Bool) (dur : ℤ) : ℤ × Bool :=
  let (total, first) := acc
  (I64.saturatingAdd total (max (dur - forgiven baselineOpenSeconds graceSeconds first) 0), false)

/-- The idle seconds after a baseline, each interval without what is forgiven of it. -/
def billableIdleSecondsSince (s : State) (baselineCount : ℕ)
    (baselineOpenSeconds graceSeconds : ℤ) (now : Instant) : ℤ :=
  let closed := (s.closedIntervalsSeconds.drop baselineCount).foldl
    (billInterval baselineOpenSeconds graceSeconds) (0, true)
  match s.since with
  | some since =>
    (billInterval baselineOpenSeconds graceSeconds closed (since.secondsSince now)).1
  | none => closed.1

/-- Record a change of the idle hint. Repeated values are ignored. -/
def setIdle (s : State) (idle : Bool) (now : Instant) : State :=
  match s.since, idle with
  | none, true => { s with since := some now }
  | some since, false =>
    { closedIntervalsSeconds := s.closedIntervalsSeconds ++ [since.secondsSince now]
      since := none }
  | _, _ => s

/-- The tests `billable_subtracts_pre_session_open_interval` and
`billable_pre_session_open_affects_only_first_interval`. -/
example (now : Instant) :
    billableIdleSecondsSince { closedIntervalsSeconds := [300] } 0 100 30 now = 200 ∧
      billableIdleSecondsSince { closedIntervalsSeconds := [300, 50] } 0 100 0 now = 250 :=
  ⟨rfl, rfl⟩

end IdleTracker

end Ludex
