import Ludex.Core.Reachable
import Ludex.Daemon.SessionManager

/-!
# The arithmetic of a runtime snapshot

`runtimes_for` and `billable_idle_seconds_since` subtract `i64`s with the plain operator, which
panics or wraps when the difference leaves the range, and clamp with bounds that must be ordered.
`runtimesForChecked` is the computation with these partial operations, `none` where one of them has
no result. `runtimesForChecked_eq` says that it has one, that of `runtimesFor`, for a session whose
baseline is in range and a tracker whose intervals are, under every grace; and `snapshot_checks`
that the row constraints hold of it.

The intervals of a tracker in use are in range (`IdleTracker.State.Reachable.inRange`): their lengths are
differences of clock readings, or were recorded as intervals.
-/

namespace Ludex

namespace Instant

theorem secondsSince_nonNeg (t now : Instant) : I64.NonNeg (t.secondsSince now) :=
  I64.ofU64_nonNeg _

/-- A later reading is no fewer seconds away. -/
theorem secondsSince_mono (t : Instant) {now now' : Instant} (h : now ≤ now') :
    t.secondsSince now ≤ t.secondsSince now' := by
  rw [secondsSince_eq, secondsSince_eq]
  exact_mod_cast Nat.div_le_div_right (Nat.sub_le_sub_right h _)

end Instant

/-! ### Trackers in use -/

namespace IdleTracker

/-- Append a completed interval. -/
def recordIdleInterval (s : State) (seconds : ℤ) : State :=
  { s with closedIntervalsSeconds := s.closedIntervalsSeconds ++ [seconds] }

/-- A state of the tracker. It is changed by idle hints, at any readings of its clock, and by
intervals recorded from elsewhere, which are lengths of time. -/
inductive State.Reachable : State → Prop
  | fresh : Reachable {}
  | setIdle {s : State} (idle : Bool) (now : Instant) :
      Reachable s → Reachable (IdleTracker.setIdle s idle now)
  | recorded {s : State} {seconds : ℤ} :
      I64.NonNeg seconds → Reachable s → Reachable (recordIdleInterval s seconds)

/-- The completed intervals of the tracker are in range. -/
def State.InRange (s : State) : Prop := ∀ dur ∈ s.closedIntervalsSeconds, I64.NonNeg dur

instance (s : State) : Decidable s.InRange :=
  inferInstanceAs (Decidable (∀ dur ∈ s.closedIntervalsSeconds, I64.NonNeg dur))

theorem State.InRange.recorded {s : State} (h : s.InRange) {seconds : ℤ}
    (h_seconds : I64.NonNeg seconds) : (recordIdleInterval s seconds).InRange := by
  intro dur h_dur
  rcases List.mem_append.mp h_dur with h_dur | h_dur
  · exact h dur h_dur
  · rw [List.mem_singleton.mp h_dur]
    exact h_seconds

theorem State.Reachable.inRange {s : State} (h : s.Reachable) : s.InRange := by
  induction h with
  | fresh => exact fun dur h_dur => absurd h_dur List.not_mem_nil
  | @setIdle s idle now _ ih =>
    unfold IdleTracker.setIdle
    -- an interval begins, ends and is recorded, or nothing changes
    split
    · exact ih
    · exact State.InRange.recorded ih (Instant.secondsSince_nonNeg _ _)
    · exact ih
  | recorded h_seconds _ ih => exact ih.recorded h_seconds

/-- What a session remembers of the open interval is in range. -/
theorem baseline_nonNeg (s : State) (now : Instant) :
    I64.NonNeg (sessionStartBaseline s now).2 := by
  unfold sessionStartBaseline
  cases s.since with
  | none => exact I64.zero_nonNeg
  | some since => exact Instant.secondsSince_nonNeg since now

/-! ### Billable idle time -/

/-- Bill one interval, if the difference is an `i64`. -/
def billIntervalChecked (baselineOpenSeconds graceSeconds : ℤ) (acc : ℤ × Bool) (dur : ℤ) :
    Option (ℤ × Bool) := do
  let (total, first) := acc
  let rest ← I64.checkedSub dur (forgiven baselineOpenSeconds graceSeconds first)
  return (I64.saturatingAdd total (max rest 0), false)

/-- The idle seconds after a baseline, if no difference overflows. -/
def billableIdleSecondsSinceChecked (s : State) (baselineCount : ℕ)
    (baselineOpenSeconds graceSeconds : ℤ) (now : Instant) : Option ℤ := do
  let closed ← (s.closedIntervalsSeconds.drop baselineCount).foldlM
    (billIntervalChecked baselineOpenSeconds graceSeconds) (0, true)
  match s.since with
  | some since =>
    let billed ← billIntervalChecked baselineOpenSeconds graceSeconds closed (since.secondsSince now)
    return billed.1
  | none => return closed.1

section Billing

variable {baseline grace : ℤ}

theorem billIntervalChecked_eq (h_baseline : I64.NonNeg baseline) (h_grace : I64.NonNeg grace)
    (acc : ℤ × Bool) {dur : ℤ} (h_dur : I64.NonNeg dur) :
    billIntervalChecked baseline grace acc dur = some (billInterval baseline grace acc dur) := by
  obtain ⟨total, first⟩ := acc
  have h_forgiven : I64.NonNeg (forgiven baseline grace first) := by
    unfold forgiven
    split
    · exact h_baseline.max h_grace
    · exact h_grace
  unfold billIntervalChecked
  simp only [I64.checkedSub_eq h_dur h_forgiven]
  rfl

theorem billInterval_nonNeg {acc : ℤ × Bool} (h_acc : I64.NonNeg acc.1) (dur : ℤ) :
    I64.NonNeg (billInterval baseline grace acc dur).1 :=
  I64.saturatingAdd_nonNeg h_acc (le_max_right _ _)

/-- The loop over the completed intervals does not overflow, and its total is in range. -/
theorem foldlM_billIntervalChecked (h_baseline : I64.NonNeg baseline) (h_grace : I64.NonNeg grace)
    {durs : List ℤ} (h_durs : ∀ dur ∈ durs, I64.NonNeg dur) {acc : ℤ × Bool}
    (h_acc : I64.NonNeg acc.1) :
    durs.foldlM (billIntervalChecked baseline grace) acc =
        some (durs.foldl (billInterval baseline grace) acc) ∧
      I64.NonNeg (durs.foldl (billInterval baseline grace) acc).1 := by
  induction durs generalizing acc with
  | nil => exact ⟨rfl, h_acc⟩
  | cons dur durs ih =>
    rw [List.foldlM_cons, List.foldl_cons,
      billIntervalChecked_eq h_baseline h_grace acc (h_durs dur List.mem_cons_self)]
    exact ih (fun d hd => h_durs d (List.mem_cons_of_mem _ hd)) (billInterval_nonNeg h_acc dur)

/-- **Billable idle time does not overflow**, and it is in range. -/
theorem billableIdleSecondsSinceChecked_eq {s : State} (h : s.InRange) (count : ℕ)
    (h_baseline : I64.NonNeg baseline) (h_grace : I64.NonNeg grace) (now : Instant) :
    billableIdleSecondsSinceChecked s count baseline grace now =
        some (billableIdleSecondsSince s count baseline grace now) ∧
      I64.NonNeg (billableIdleSecondsSince s count baseline grace now) := by
  have h_durs : ∀ dur ∈ s.closedIntervalsSeconds.drop count, I64.NonNeg dur :=
    fun dur h_dur => h dur (List.mem_of_mem_drop h_dur)
  have h_zero : I64.NonNeg ((0, true) : ℤ × Bool).1 := by decide
  obtain ⟨h_fold, h_total⟩ := foldlM_billIntervalChecked h_baseline h_grace h_durs h_zero
  unfold billableIdleSecondsSinceChecked billableIdleSecondsSince
  rw [h_fold]
  cases s.since with
  | none => exact ⟨rfl, h_total⟩
  | some since =>
    -- the interval that is open is billed like the others
    have h_open := billIntervalChecked_eq h_baseline h_grace
      ((s.closedIntervalsSeconds.drop count).foldl (billInterval baseline grace) (0, true))
      (since.secondsSince_nonNeg now)
    refine ⟨?_, billInterval_nonNeg h_total _⟩
    change (billIntervalChecked baseline grace _ _ >>= fun billed => some billed.1) = _
    rw [h_open]
    rfl

end Billing

end IdleTracker

/-! ### Runtimes -/

namespace SessionManager

/-- Full and interactive runtime of an open session, if no operation overflows and the bounds of the
clamp are ordered. -/
def runtimesForChecked (openSession : OpenSession) (sample : Sample) : Option (ℤ × ℤ) := do
  let full := openSession.startedInstant.secondsSince sample.now
  let billableIdle ← IdleTracker.billableIdleSecondsSinceChecked sample.idle.state
    openSession.baselineIdleIntervalsCount openSession.baselineOpenIdleSeconds
    (I64.ofU64 sample.idleGrace) sample.idle.now
  let rest ← I64.checkedSub full billableIdle
  let interactive ← I64.clamp rest 0 full
  return (full, interactive)

variable {o : OpenSession} {sample : Sample}

/-- **The arithmetic of a snapshot has a result**, whatever the grace. -/
theorem runtimesForChecked_eq (h_baseline : I64.NonNeg o.baselineOpenIdleSeconds)
    (h_idle : sample.idle.state.InRange) :
    runtimesForChecked o sample = some (runtimesFor o sample) := by
  have h_full := o.startedInstant.secondsSince_nonNeg sample.now
  obtain ⟨h_billable, h_range⟩ := IdleTracker.billableIdleSecondsSinceChecked_eq h_idle
    o.baselineIdleIntervalsCount h_baseline (I64.ofU64_nonNeg sample.idleGrace) sample.idle.now
  unfold runtimesForChecked
  -- the differences are of numbers in range, and the bounds of the clamp are ordered
  rw [h_billable]
  simp only [Option.bind_eq_bind, Option.bind_some]
  rw [I64.checkedSub_eq h_full h_range]
  simp only [Option.bind_some]
  unfold I64.clamp
  rw [if_pos h_full.1]
  rfl

/-- **A snapshot passes the row constraints**: `0 ≤ interactive ≤ full`, both in range. -/
theorem snapshot_checks (o : OpenSession) (sample : Sample) (at_ : OffsetDateTime) :
    (snapshotOf o sample at_).Checks := by
  obtain ⟨h_zero, h_max⟩ := o.startedInstant.secondsSince_nonNeg sample.now
  unfold I64.maxValue at h_max
  unfold RuntimeSnapshot.Checks Sql.FitsInteger
  simp only [snapshotOf, runtimesFor]
  omega

/-- The full runtime does not decrease. -/
theorem fullRuntime_mono (o : OpenSession) {sample sample' : Sample}
    (h : sample.now ≤ sample'.now) : (runtimesFor o sample).1 ≤ (runtimesFor o sample').1 :=
  o.startedInstant.secondsSince_mono h

end SessionManager

end Ludex
