import Mathlib.Algebra.Order.BigOperators.Group.List
import Mathlib.Algebra.Order.BigOperators.Group.Finset
import Ludex.Lib.Signal
import Ludex.Daemon.IdleTracker

/-!
# What sessions are billed for idle time

The tracker is driven by the calls of `set_idle`, a signal in the sense of `Signal`. A `Window` is
a session up to one of its samples: the baseline taken at its start and the billable idle taken at
the sample. Both are read at a point between two calls (`Sample`).

`Window.bill_eq` is the refinement everything rests on. The tracker keeps floored durations, their
count and one baseline offset; what it bills is nevertheless the sum over the natural idle
intervals of `Signal.Span.charge`, the units of the interval inside the session without the first
`grace` units of the interval. From it follow that sessions which do not overlap are billed for no
second twice (`idle_billed_at_most_once`) and that a session is billed for the idle time inside it,
to the second (`billable_idle_bounds`).
-/

namespace Ludex

open Calendar (nanosPerSecond)

namespace IdleTracker

/-- A call of `set_idle`, with the clock reading it takes. -/
structure SetIdle where
  idle : Bool
  now : Instant

/-- The tracker after a list of calls. -/
def after (calls : List SetIdle) : State :=
  calls.foldl (fun s c => setIdle s c.idle c.now) {}

/-- The calls as the edges of a signal. -/
def signal (calls : List SetIdle) : List Signal.Edge :=
  calls.map fun c => ⟨c.idle, c.now.nanos⟩

/-- The natural idle intervals. -/
def spans (calls : List SetIdle) : List Signal.Span := Signal.spansFrom none (signal calls)

/-- The nanoseconds of a window of time in which the user was idle: those at which the last call
said so. -/
def idleNanos (calls : List SetIdle) (a b : Instant) : ℕ :=
  ((Finset.Ico a.nanos b.nanos).filter fun t => Signal.valueAt false (signal calls) t).card

/-- A point at which the tracker is read: after the first `position` calls, at a time between the
last of them and the next. -/
structure Sample (calls : List SetIdle) where
  position : ℕ
  now : Instant
  before : ∀ c ∈ calls.take position, c.now ≤ now
  after : ∀ c ∈ calls.drop position, now ≤ c.now

/-- A session up to one of its samples. -/
structure Window (calls : List SetIdle) where
  start : Sample calls
  stop : Sample calls
  position_le : start.position ≤ stop.position
  now_le : start.now ≤ stop.now

/-- The idle billed to the session at the sample, with the grace that applies then. -/
def Window.bill {calls : List SetIdle} (w : Window calls) (grace : ℤ) : ℤ :=
  let (baselineCount, baselineOpen) :=
    sessionStartBaseline (IdleTracker.after (calls.take w.start.position)) w.start.now
  billableIdleSecondsSince (IdleTracker.after (calls.take w.stop.position)) baselineCount
    baselineOpen grace w.stop.now

/-! ### The tracker follows the signal -/

theorem signal_append (calls calls' : List SetIdle) :
    signal (calls ++ calls') = signal calls ++ signal calls' :=
  List.map_append

/-- What holds of the instants of the calls holds of the times of their edges. -/
theorem forall_signal {calls : List SetIdle} (P : ℕ → Prop) (h : ∀ c ∈ calls, P c.now.nanos) :
    ∀ e ∈ signal calls, P e.time := by
  intro e he
  obtain ⟨c, hc, rfl⟩ := List.mem_map.mp he
  exact h c hc

theorem after_append (calls calls' : List SetIdle) :
    after (calls ++ calls') = calls'.foldl (fun s c => setIdle s c.idle c.now) (after calls) :=
  List.foldl_append

/-- The open interval of the tracker is where the signal rose last. -/
theorem since_foldl (s : State) (calls : List SetIdle) :
    (calls.foldl (fun s c => setIdle s c.idle c.now) s).since.map Instant.nanos
      = Signal.riseAfter (s.since.map Instant.nanos) (signal calls) := by
  induction calls generalizing s with
  | nil => rw [List.foldl_nil, signal, List.map_nil, Signal.riseAfter]
  | cons c calls ih =>
    obtain ⟨idle, now⟩ := c
    rw [List.foldl_cons, ih]
    -- the tracker changes on an edge, and keeps its interval on a repeated call
    cases h_since : s.since with
    | none => cases idle <;> simp [setIdle, h_since, signal, Signal.riseAfter]
    | some since => cases idle <;> simp [setIdle, h_since, signal, Signal.riseAfter]

/-- The closed intervals of the tracker are the ended stretches of the signal, in whole seconds. -/
theorem closed_foldl (s : State) {calls : List SetIdle} {t : ℕ}
    (h : ∀ c ∈ calls, c.now.nanos ≤ t) :
    (calls.foldl (fun s c => setIdle s c.idle c.now) s).closedIntervalsSeconds
      = s.closedIntervalsSeconds
        ++ (Signal.closedFrom (s.since.map Instant.nanos) (signal calls)).map
            fun σ => σ.units nanosPerSecond t := by
  induction calls generalizing s with
  | nil => simp [signal, Signal.closedFrom]
  | cons c calls ih =>
    obtain ⟨idle, now⟩ := c
    have h_now : now.nanos ≤ t := h _ List.mem_cons_self
    rw [List.foldl_cons, ih _ fun c hc => h c (List.mem_cons_of_mem _ hc)]
    cases h_since : s.since with
    | none => cases idle <;> simp [setIdle, h_since, signal, Signal.closedFrom]
    | some since =>
      cases idle with
      | true => simp [setIdle, h_since, signal, Signal.closedFrom]
      | false =>
        -- the interval ends here, so at `t` its whole length has elapsed
        have h_units : Signal.Span.units nanosPerSecond ⟨since.nanos, some now.nanos⟩ t
            = since.secondsSince now := by
          rw [Signal.Span.units, Signal.Span.elapsed_closed h_now, Instant.secondsSince_eq]
        simp [setIdle, h_since, signal, Signal.closedFrom, h_units]

/-- The intervals a session sees at a sample, as the tracker has them and as the signal does. -/
theorem durations_eq (s : State) {calls : List SetIdle} {now : Instant}
    (h : ∀ c ∈ calls, c.now ≤ now) :
    let s' := calls.foldl (fun s c => setIdle s c.idle c.now) s
    s'.closedIntervalsSeconds.drop s.closedIntervalsSeconds.length
        ++ (s'.since.map fun since => since.secondsSince now).toList
      = (Signal.spansFrom (s.since.map Instant.nanos) (signal calls)).map
          fun σ => σ.units nanosPerSecond now.nanos := by
  intro s'
  have h_cut := Signal.spansFrom_append (s.since.map Instant.nanos) (signal calls) []
  rw [List.append_nil, ← since_foldl] at h_cut
  rw [h_cut, closed_foldl s h, List.drop_left, List.map_append]
  -- the closed intervals agree, and an open one is the last span of the signal
  congr 1
  change (s'.since.map fun since => since.secondsSince now).toList
    = (Signal.spansFrom (s'.since.map Instant.nanos) []).map
        fun σ => σ.units nanosPerSecond now.nanos
  cases s'.since with
  | none => rfl
  | some since => exact congrArg (· :: []) (Instant.secondsSince_eq since now)

/-! ### Billing a list of durations -/

theorem foldl_billInterval_rest (baselineOpen grace : ℤ) {total : ℤ} (h : 0 ≤ total)
    (durations : List ℤ) :
    durations.foldl (billInterval baselineOpen grace) (min I64.maxValue total, false)
      = (min I64.maxValue (total + (durations.map fun dur => max (dur - grace) 0).sum), false) := by
  induction durations generalizing total with
  | nil => simp
  | cons dur durations ih =>
    have h_dur : 0 ≤ max (dur - grace) 0 := le_max_right _ _
    -- only the first interval counts what had elapsed before the session
    have h_step : billInterval baselineOpen grace (min I64.maxValue total, false) dur
        = (min I64.maxValue (total + max (dur - grace) 0), false) := by
      simp only [billInterval, forgiven, Bool.false_eq_true, if_false]
      rw [I64.saturatingAdd_min h h_dur]
    rw [List.foldl_cons, h_step, ih (by omega), List.map_cons, List.sum_cons, add_assoc]

theorem foldl_billInterval (baselineOpen grace dur : ℤ) (durations : List ℤ) :
    ((dur :: durations).foldl (billInterval baselineOpen grace) (0, true)).1
      = min I64.maxValue (max (dur - max baselineOpen grace) 0
          + (durations.map fun dur => max (dur - grace) 0).sum) := by
  have h_first : 0 ≤ max (dur - max baselineOpen grace) 0 := le_max_right _ _
  have h_zero : (0 : ℤ) = min I64.maxValue 0 := rfl
  have h_step : billInterval baselineOpen grace (0, true) dur
      = (min I64.maxValue (max (dur - max baselineOpen grace) 0), false) := by
    simp only [billInterval, forgiven, if_true]
    rw [h_zero, I64.saturatingAdd_min (le_refl 0) (by rw [← h_zero]; exact h_first), ← h_zero,
      zero_add]
  rw [List.foldl_cons, h_step, foldl_billInterval_rest _ _ h_first]

theorem billableIdleSecondsSince_eq (s : State) (count : ℕ) (baselineOpen grace : ℤ)
    (now : Instant) :
    billableIdleSecondsSince s count baselineOpen grace now
      = ((s.closedIntervalsSeconds.drop count
          ++ (s.since.map fun since => since.secondsSince now).toList).foldl
            (billInterval baselineOpen grace) (0, true)).1 := by
  rw [billableIdleSecondsSince, List.foldl_append]
  cases s.since with
  | none => rfl
  | some since => rfl

/-- An interval that begins inside the session is forgiven the grace and nothing else. -/
theorem charge_of_le_rise {grace : ℤ} (hg : 0 ≤ grace) {σ : Signal.Span} {a : ℕ} (h : a ≤ σ.rise)
    (b : ℕ) : σ.charge nanosPerSecond grace a b = max (σ.units nanosPerSecond b - grace) 0 := by
  have h_units : σ.units nanosPerSecond a = 0 := by
    rw [Signal.Span.units, Signal.Span.elapsed_of_le h, Nat.zero_div]
    rfl
  rw [Signal.Span.charge, h_units, max_eq_right hg, max_comm]

theorem map_charge_of_le_rise {grace : ℤ} (hg : 0 ≤ grace) {es : List Signal.Edge} {a : ℕ}
    (h : ∀ e ∈ es, a ≤ e.time) (b : ℕ) :
    (Signal.spansFrom none es).map (fun σ => σ.charge nanosPerSecond grace a b)
      = ((Signal.spansFrom none es).map fun σ => σ.units nanosPerSecond b).map
          fun dur => max (dur - grace) 0 := by
  rw [List.map_map]
  refine List.map_congr_left fun σ hσ => ?_
  exact charge_of_le_rise hg (Signal.le_rise h σ hσ) b

/-- The seconds an interval that began at `r` has elapsed, zero when there is none. -/
def openSeconds (r : Option ℕ) (now : ℕ) : ℤ :=
  r.elim 0 fun t => (((now - t) / nanosPerSecond : ℕ) : ℤ)

/-- The bill of the intervals a session sees is the sum of their charges. -/
theorem foldl_billInterval_spans {grace : ℤ} (hg : 0 ≤ grace) {r : Option ℕ}
    {es : List Signal.Edge} {a : ℕ} (h : ∀ e ∈ es, a ≤ e.time) (b : ℕ) :
    (((Signal.spansFrom r es).map fun σ => σ.units nanosPerSecond b).foldl
        (billInterval (openSeconds r a) grace) (0, true)).1
      = min I64.maxValue
          ((Signal.spansFrom r es).map fun σ => σ.charge nanosPerSecond grace a b).sum := by
  cases r with
  | none =>
    rw [map_charge_of_le_rise hg h]
    cases Signal.spansFrom none es with
    | nil => rfl
    | cons σ L =>
      rw [List.map_cons, foldl_billInterval, List.map_cons, List.sum_cons, openSeconds,
        Option.elim_none, max_eq_right hg]
  | some t =>
    -- the first interval was open at the start of the session
    obtain ⟨fall, es', h_eq, h_fall, h_sub⟩ := Signal.spansFrom_some t es
    -- so at the start its elapsed time is the baseline
    have h_running : ∀ u ∈ fall, a ≤ u := by
      intro u hu
      obtain ⟨e, he, rfl⟩ := h_fall u hu
      exact h e he
    have h_open : Signal.Span.units nanosPerSecond ⟨t, fall⟩ a = openSeconds (some t) a := by
      rw [Signal.Span.units, Signal.Span.elapsed_running h_running]
      rfl
    rw [h_eq, List.map_cons, foldl_billInterval, List.map_cons, List.sum_cons,
      map_charge_of_le_rise hg fun e he => h e (h_sub e he), ← h_open,
      Signal.Span.charge, max_comm 0]

/-! ### The refinement -/

/-- The intervals a session does not see at the sample, and the future of the open one, are not
charged to it. -/
theorem sum_charge_spans {pre mid post : List SetIdle} {a b : Instant} (hab : a ≤ b)
    (h_pre : ∀ c ∈ pre, c.now ≤ a) (h_post : ∀ c ∈ post, b ≤ c.now) (grace : ℤ) :
    ((spans (pre ++ mid ++ post)).map fun σ => σ.charge nanosPerSecond grace a.nanos b.nanos).sum
      = ((Signal.spansFrom (Signal.riseAfter none (signal pre)) (signal mid)).map
          fun σ => σ.charge nanosPerSecond grace a.nanos b.nanos).sum := by
  have h_before : ∀ e ∈ signal pre, e.time ≤ a.nanos := forall_signal (· ≤ a.nanos) h_pre
  -- an interval that begins after the sample is not charged
  have h_later : ∀ es : List Signal.Edge, (∀ e ∈ es, b.nanos ≤ e.time) →
      ((Signal.spansFrom none es).map
        fun σ => σ.charge nanosPerSecond grace a.nanos b.nanos).sum = 0 := by
    intro es h_es
    refine List.sum_eq_zero fun x hx => ?_
    obtain ⟨σ, hσ, rfl⟩ := List.mem_map.mp hx
    refine Signal.Span.charge_of_overlap_eq_zero _ _ ?_
    rw [Signal.Span.overlap, Signal.Span.elapsed_of_le (Signal.le_rise h_es σ hσ), Nat.zero_sub]
  have h_post_time : ∀ e ∈ signal post, b.nanos ≤ e.time := forall_signal (b.nanos ≤ ·) h_post
  -- up to the sample, the future edges leave an open interval as it is
  have h_after : ∀ r : Option ℕ,
      ((Signal.spansFrom r (signal post)).map
          fun σ => σ.charge nanosPerSecond grace a.nanos b.nanos).sum
        = ((Signal.spansFrom r []).map
          fun σ => σ.charge nanosPerSecond grace a.nanos b.nanos).sum := by
    intro r
    cases r with
    | none => exact h_later _ h_post_time
    | some t =>
      obtain ⟨fall, es', h_eq, h_fall, h_sub⟩ := Signal.spansFrom_some t (signal post)
      have h_running : ∀ u ∈ fall, b.nanos ≤ u := by
        intro u hu
        obtain ⟨e, he, rfl⟩ := h_fall u hu
        exact h_post_time e he
      have h_none : ∀ x, Signal.Span.elapsed ⟨t, none⟩ x = x - t := fun _ => rfl
      have h_same : Signal.Span.charge nanosPerSecond grace ⟨t, fall⟩ a.nanos b.nanos
          = Signal.Span.charge nanosPerSecond grace ⟨t, none⟩ a.nanos b.nanos := by
        rw [Signal.Span.charge, Signal.Span.charge, Signal.Span.units, Signal.Span.units,
          Signal.Span.units, Signal.Span.units, Signal.Span.elapsed_running h_running,
          Signal.Span.elapsed_running fun u hu => le_trans hab (h_running u hu),
          h_none, h_none]
      rw [h_eq, List.map_cons, List.sum_cons, h_later es' fun e he => h_post_time e (h_sub e he),
        h_same]
      rfl
  have h_cut := Signal.spansFrom_append (Signal.riseAfter none (signal pre)) (signal mid) []
  rw [List.append_nil] at h_cut
  rw [spans, List.append_assoc, signal_append, signal_append, Signal.spansFrom_append,
    Signal.spansFrom_append, List.map_append, List.sum_append,
    Signal.sum_charge_closedFrom hab grace h_before, zero_add, List.map_append, List.sum_append,
    h_after, h_cut, List.map_append, List.sum_append]

variable {calls : List SetIdle}

/-- The calls, cut at the two points of a window. -/
theorem Window.cut (w : Window calls) :
    ∃ pre mid post, calls = pre ++ mid ++ post ∧ calls.take w.start.position = pre ∧
      calls.take w.stop.position = pre ++ mid ∧ (∀ c ∈ pre, c.now ≤ w.start.now) ∧
      (∀ c ∈ mid, w.start.now ≤ c.now ∧ c.now ≤ w.stop.now) ∧ ∀ c ∈ post, w.stop.now ≤ c.now := by
  -- the calls of the window are the ones between its two positions
  have h_take : calls.take w.stop.position
      = calls.take w.start.position ++ (calls.take w.stop.position).drop w.start.position := by
    conv_lhs => rw [← List.take_append_drop w.start.position (calls.take w.stop.position)]
    rw [List.take_take, min_eq_left w.position_le]
  refine ⟨calls.take w.start.position, (calls.take w.stop.position).drop w.start.position,
    calls.drop w.stop.position, ?_, rfl, h_take, w.start.before, fun c hc => ⟨?_, ?_⟩,
    w.stop.after⟩
  · -- before, in and after the window put together are all the calls
    rw [← h_take, List.take_append_drop]
  · -- none of those in the window was made before its start
    refine w.start.after c ?_
    rw [List.drop_take] at hc
    exact List.mem_of_mem_take hc
  · -- nor after its end
    exact w.stop.before c (List.mem_of_mem_drop hc)

/-- The charges of the natural idle intervals to a session. -/
def Window.charges (w : Window calls) (grace : ℤ) : ℤ :=
  ((spans calls).map
    fun σ => σ.charge nanosPerSecond grace w.start.now.nanos w.stop.now.nanos).sum

/-- **The refinement.** The tracker bills a session the charges of the natural idle intervals. -/
theorem Window.bill_eq (w : Window calls) {grace : ℤ} (hg : 0 ≤ grace) :
    w.bill grace = min I64.maxValue (w.charges grace) := by
  obtain ⟨pre, mid, post, h_calls, h_start, h_stop, h_pre, h_mid, h_post⟩ := w.cut
  have h_mid_time : ∀ e ∈ signal mid, w.start.now.nanos ≤ e.time :=
    forall_signal (w.start.now.nanos ≤ ·) fun c hc => (h_mid c hc).1
  -- the baseline is what the open interval of the signal had elapsed at the start
  have h_rise : (after pre).since.map Instant.nanos = Signal.riseAfter none (signal pre) :=
    since_foldl {} pre
  have h_open : (after pre).since.elim 0 (fun since => since.secondsSince w.start.now)
      = openSeconds ((after pre).since.map Instant.nanos) w.start.now.nanos := by
    cases (after pre).since with
    | none => rfl
    | some since => exact Instant.secondsSince_eq since w.start.now
  rw [bill, h_start, h_stop]
  simp only [sessionStartBaseline]
  rw [billableIdleSecondsSince_eq, after_append,
    durations_eq (after pre) fun c hc => (h_mid c hc).2, h_open, h_rise,
    foldl_billInterval_spans hg h_mid_time, charges, congrArg spans h_calls,
    sum_charge_spans w.now_le h_pre h_post]

/-! ### Sessions that do not overlap -/

/-- The durations of the natural idle intervals in whole seconds, at a time. -/
def naturalIntervals (calls : List SetIdle) (last : Instant) : List ℤ :=
  (spans calls).map fun σ => σ.units nanosPerSecond last.nanos

/-- **Idle is billed at most once.** Sessions that do not overlap in time are together billed at
most what the natural idle intervals exceed the grace by, however many sessions saw an interval. -/
theorem idle_billed_at_most_once {ι : Type} (sessions : Finset ι) (w : ι → Window calls)
    (h_disj : ∀ i ∈ sessions, ∀ j ∈ sessions, i ≠ j →
      (w i).stop.now ≤ (w j).start.now ∨ (w j).stop.now ≤ (w i).start.now)
    {last : Instant} (h_last : ∀ i ∈ sessions, (w i).stop.now ≤ last) {grace : ℤ}
    (hg : 0 ≤ grace) :
    ∑ i ∈ sessions, (w i).bill grace
      ≤ ((naturalIntervals calls last).map fun duration => max 0 (duration - grace)).sum := by
  -- the bill of a session is what its window charges, or less
  calc ∑ i ∈ sessions, (w i).bill grace
      ≤ ∑ i ∈ sessions, ((spans calls).map fun σ =>
          σ.charge nanosPerSecond grace (w i).start.now.nanos (w i).stop.now.nanos).sum := by
        refine Finset.sum_le_sum fun i _ => ?_
        rw [(w i).bill_eq hg]
        exact min_le_right _ _
    -- the sum over the sessions and the sum over the spans can be exchanged
    _ = ((spans calls).map fun σ => ∑ i ∈ sessions,
          σ.charge nanosPerSecond grace (w i).start.now.nanos (w i).stop.now.nanos).sum :=
        Signal.sum_list_comm _ _ _
    -- a span is charged once at most, since the windows are disjoint
    _ ≤ ((spans calls).map fun σ => max 0 (σ.units nanosPerSecond last.nanos - grace)).sum := by
        refine List.sum_le_sum fun σ _ => ?_
        exact σ.sum_charge_le nanosPerSecond sessions grace (fun i _ => (w i).now_le) h_last h_disj
    -- the spans are the natural idle intervals
    _ = ((naturalIntervals calls last).map fun duration => max 0 (duration - grace)).sum := by
        rw [naturalIntervals, List.map_map]
        rfl

/-! ### One session -/

/-- The calls come at non-decreasing instants. -/
def Chronological (calls : List SetIdle) : Prop := calls.Pairwise fun c c' => c.now ≤ c'.now

instance (calls : List SetIdle) : Decidable (Chronological calls) :=
  inferInstanceAs (Decidable (calls.Pairwise _))

theorem chronological_signal (h : Chronological calls) : Signal.Chronological (signal calls) :=
  List.pairwise_map.mpr h

/-- The natural idle intervals that have a part inside the session. -/
def Window.touching (w : Window calls) : List Signal.Span :=
  (spans calls).filter fun σ => 0 < σ.overlap w.start.now.nanos w.stop.now.nanos

theorem idleNanos_eq (h : Chronological calls) {a b : Instant} (hab : a ≤ b) :
    idleNanos calls a b = ((spans calls).map fun σ => σ.overlap a.nanos b.nanos).sum :=
  Signal.card_up (chronological_signal h) hab

section Window

variable (w : Window calls)

theorem Window.charges_nonneg (grace : ℤ) : 0 ≤ w.charges grace := by
  refine List.sum_nonneg fun x hx => ?_
  obtain ⟨σ, -, rfl⟩ := List.mem_map.mp hx
  exact σ.charge_nonneg _ _ _ _

theorem Window.charges_antitone {grace grace' : ℤ} (h : grace ≤ grace') :
    w.charges grace' ≤ w.charges grace :=
  List.sum_le_sum fun σ _ => σ.charge_antitone nanosPerSecond h _ _

theorem Window.charges_eq_zero (grace : ℤ)
    (h : ((spans calls).map fun σ => σ.overlap w.start.now.nanos w.stop.now.nanos).sum = 0) :
    w.charges grace = 0 := by
  refine List.sum_eq_zero fun x hx => ?_
  obtain ⟨σ, hσ, rfl⟩ := List.mem_map.mp hx
  exact Signal.Span.charge_of_overlap_eq_zero _ _ (List.sum_eq_zero_iff_forall_eq_nat.mp h _
    (List.mem_map_of_mem hσ))

theorem Window.mul_charges_lt (grace : ℤ) :
    nanosPerSecond * w.charges grace
      < ((spans calls).map fun σ => σ.overlap w.start.now.nanos w.stop.now.nanos).sum
        + nanosPerSecond := by
  -- the calls before the window cannot be charged to it, and those after it come too late
  obtain ⟨pre, mid, post, h_calls, -, -, h_pre, h_mid, h_post⟩ := w.cut
  have h_before : ∀ e ∈ signal pre, e.time ≤ w.start.now.nanos :=
    forall_signal (· ≤ w.start.now.nanos) h_pre
  have h_after : ∀ e ∈ signal (mid ++ post), w.start.now.nanos ≤ e.time := by
    apply forall_signal (w.start.now.nanos ≤ ·)
    intro c hc
    rcases List.mem_append.mp hc with hc | hc
    · exact (h_mid c hc).1
    · exact le_trans w.now_le (h_post c hc)
  have h_spans : spans calls = Signal.spansFrom none (signal pre ++ signal (mid ++ post)) := by
    rw [spans, h_calls, List.append_assoc, signal_append]
  rw [charges, h_spans]
  -- each span may lose less than a unit to the rounding, but only one is cut by the window
  exact Signal.mul_sum_charge_lt (by decide) w.now_le grace h_before h_after

/-- The idle time inside a session fits the range of the clock. -/
theorem Window.idleNanos_lt :
    idleNanos calls w.start.now w.stop.now < 2 ^ 63 * nanosPerSecond := by
  -- it is at most the length of the session
  have h_card : idleNanos calls w.start.now w.stop.now
      ≤ (Finset.Ico w.start.now.nanos w.stop.now.nanos).card := Finset.card_filter_le _ _
  rw [Nat.card_Ico] at h_card
  exact lt_of_le_of_lt (le_trans h_card (Nat.sub_le _ _)) w.stop.now.inRange

/-- Only an interval with a part in the session is charged to it. -/
theorem Window.touching_ne_nil {grace : ℤ} (h : 0 < w.charges grace) : w.touching ≠ [] := by
  intro h_nil
  have h_zero : ∀ σ ∈ spans calls, σ.overlap w.start.now.nanos w.stop.now.nanos = 0 := by
    intro σ hσ
    have h_not := List.filter_eq_nil_iff.mp h_nil σ hσ
    simpa using h_not
  have h_sum : ((spans calls).map
      fun σ => σ.overlap w.start.now.nanos w.stop.now.nanos).sum = 0 := by
    refine List.sum_eq_zero fun n hn => ?_
    obtain ⟨σ, hσ, rfl⟩ := List.mem_map.mp hn
    exact h_zero σ hσ
  exact absurd (w.charges_eq_zero grace h_sum) (ne_of_gt h)

end Window

/-- The bill of a session at a sample against the time the user was idle in it. -/
structure Window.BillBounds (w : Window calls) (grace : ℤ) : Prop where
  nonneg : 0 ≤ w.bill grace
  /-- Without idle time there is nothing to bill. -/
  eq_zero : idleNanos calls w.start.now w.stop.now = 0 → w.bill grace = 0
  /-- Less than a second is billed in excess. -/
  lt : nanosPerSecond * w.bill grace < idleNanos calls w.start.now w.stop.now + nanosPerSecond
  /-- A greater grace bills no more. -/
  antitone : ∀ grace', grace ≤ grace' → w.bill grace' ≤ w.bill grace
  /-- Without grace at most a second is forgiven for each interval with a part in the session. -/
  le : (idleNanos calls w.start.now w.stop.now : ℤ) - nanosPerSecond * w.touching.length
    ≤ nanosPerSecond * w.bill 0

/-- **A session is billed for the idle time inside it**, whatever the calls of `set_idle`, the
instants of its start and of the sample, and the grace. -/
theorem billable_idle_bounds (h : Chronological calls) (w : Window calls) {grace : ℤ}
    (hg : 0 ≤ grace) : w.BillBounds grace := by
  have h_idle := idleNanos_eq h w.now_le
  have h_max : 0 ≤ I64.maxValue := by decide
  have h_unit : 0 < nanosPerSecond := by decide
  refine ⟨?_, fun h_none => ?_, ?_, fun grace' h_le => ?_, ?_⟩
  · rw [w.bill_eq hg]
    exact le_min h_max (w.charges_nonneg grace)
  · rw [w.bill_eq hg, w.charges_eq_zero grace (h_idle ▸ h_none)]
    exact min_eq_right h_max
  · have h_lt := w.mul_charges_lt grace
    have h_bill : w.bill grace ≤ w.charges grace := by
      rw [w.bill_eq hg]
      exact min_le_right _ _
    have h_mul : nanosPerSecond * w.bill grace ≤ nanosPerSecond * w.charges grace :=
      mul_le_mul_of_nonneg_left h_bill (Int.natCast_nonneg _)
    rw [h_idle]
    exact lt_of_le_of_lt h_mul h_lt
  · rw [w.bill_eq hg, w.bill_eq (le_trans hg h_le)]
    exact min_le_min_left _ (w.charges_antitone h_le)
  · rw [w.bill_eq (le_refl 0)]
    rcases le_total (w.charges 0) I64.maxValue with h_fits | h_full
    · -- the bill is the charges, without saturation
      have h_ge : ((((spans calls).map
            fun σ => σ.overlap w.start.now.nanos w.stop.now.nanos).sum : ℕ) : ℤ)
          ≤ nanosPerSecond * w.charges 0 + nanosPerSecond * w.touching.length :=
        Signal.sum_overlap_le h_unit w.now_le (spans calls)
      rw [min_eq_right h_fits, h_idle]
      linarith
    · -- a saturated bill covers all the time the clock can tell
      have h_time := w.idleNanos_lt
      have h_some : 0 < w.touching.length :=
        List.length_pos_iff.mpr (w.touching_ne_nil (lt_of_lt_of_le (by decide) h_full))
      rw [min_eq_left h_full]
      unfold I64.maxValue
      unfold nanosPerSecond at *
      omega

/-- The user is away from second 100 to second 400 and again from second 1000 on. -/
def awayTwice : List SetIdle :=
  [⟨true, .ofSeconds 100⟩, ⟨true, .ofSeconds 150⟩, ⟨false, .ofSeconds 400⟩,
    ⟨true, .ofSeconds 1000⟩]

/-- A session that begins and ends inside the first absence. -/
def insideFirst : Window awayTwice where
  start := ⟨1, .ofSeconds 120, by decide, by decide⟩
  stop := ⟨2, .ofSeconds 200, by decide, by decide⟩
  position_le := by decide
  now_le := by decide

/-- A session that begins inside the first absence and is still open in the second one. -/
def overBoth : Window awayTwice where
  start := ⟨2, .ofSeconds 250, by decide, by decide⟩
  stop := ⟨4, .ofSeconds 1500, by decide, by decide⟩
  position_le := by decide
  now_le := by decide

example : insideFirst.bill 60 = 40 ∧ overBoth.bill 60 = 590 := by decide

theorem idle_billed_at_most_once_awayTwice :
    ∑ i ∈ (Finset.univ : Finset Bool), (cond i insideFirst overBoth).bill 60
      ≤ ((naturalIntervals awayTwice (.ofSeconds 1500)).map
          fun duration => max 0 (duration - 60)).sum :=
  idle_billed_at_most_once Finset.univ (fun i => cond i insideFirst overBoth) (by decide)
    (by decide) (by decide)

theorem billable_idle_bounds_overBoth : overBoth.BillBounds 60 :=
  billable_idle_bounds (by decide) overBoth (by decide)

end IdleTracker

end Ludex
