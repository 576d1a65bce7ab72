import Ludex.Daemon.Kwin.RunLoop

/-!
# The run loop under its own schedule

`RunLoop` leaves open which branch a turn takes. Here the loop is scheduled as `kwin/source.rs`
writes it: activations and exit notices arrive in channels while the loop is busy, a turn takes time
between the `select!` that picks its branch and the moment its outcome is applied, and the `select!`
is biased towards shutdown, then exit notices, then the grace timer, then activations.

The grace window is there so that a game whose window comes back in time keeps its session. An
activation that has arrived need not have been handled, though, and the timer is preferred to the
queue. `return_in_time_iff` says exactly when the promise is kept. Its invariant is that what
arrived since the game went to the background is what was handled since, what is in hand and what is
queued (`Sched.Inv`).
-/

namespace Ludex

namespace Kwin

open Run (IsRun final steps)

/-- An activation in the channel: with the decision the gate will come to on it, and the time at
which it was sent. -/
structure Entry where
  activation : Activation
  decision : GateDecision
  enqueuedAt : ℕ
deriving DecidableEq, Repr

/-- What the loop is busy with. -/
inductive Job where
  | exited (pid : ℕ)
  | graceTimer
  | activation (entry : Entry)
deriving DecidableEq, Repr

/-- The branch of a job. -/
def Job.branch : Job → Branch
  | exited pid => .exited pid
  | graceTimer => .graceTimer
  | activation entry => .activation entry.activation entry.decision

/-- The loop, its channels and the clock. There is no job while the loop waits in its `select!`. -/
structure Sched where
  loop : Loop := {}
  job : Option Job := none
  clock : ℕ := 0
  exits : List ℕ := []
  queue : List Entry := []
  shutdown : Bool := false
  stopped : Bool := false
deriving DecidableEq, Repr

/-- What can happen next. -/
inductive Label where
  | tick (duration : ℕ)
  | enqueue (activation : Activation) (decision : GateDecision)
  | exitNotice (pid : ℕ)
  | requestShutdown
  /-- The `select!` returns with a branch. -/
  | select
  /-- The outcome of the branch is applied, under the settings of that moment. -/
  | finish (config : Config)
deriving DecidableEq, Repr

/-- The biased `select!`: the first branch that is ready. -/
def select (s : Sched) : Option Sched :=
  if s.shutdown then some { s with stopped := true }
  else
    match s.exits with
    | pid :: exits => some { s with job := some (.exited pid), exits := exits }
    | [] =>
      if s.loop.graceTimer.any fun deadline => deadline ≤ s.clock then
        some { s with job := some .graceTimer }
      else
        match s.queue with
        | entry :: queue => some { s with job := some (.activation entry), queue := queue }
        | [] => none

/-- The turn a job makes when it is applied. -/
def Sched.input (s : Sched) (job : Job) (config : Config) : Input := ⟨job.branch, s.clock, config⟩

/-- One step of the schedule. -/
def Sched.next (selfPid : ℕ) (s : Sched) : Label → Option Sched
  | .tick duration => some { s with clock := s.clock + duration }
  | .enqueue activation decision =>
    some { s with queue := s.queue ++ [⟨activation, decision, s.clock⟩] }
  | .exitNotice pid => some { s with exits := s.exits ++ [pid] }
  | .requestShutdown => some { s with shutdown := true }
  | .select => if s.job.isNone && !s.stopped then select s else none
  | .finish config =>
    match s.job with
    | some job =>
      some { s with job := none, loop := (react selfPid s.loop (s.input job config)).next }
    | none => none

/-- A step of the schedule. -/
def Sched.Step (selfPid : ℕ) (s : Sched) (l : Label) (t : Sched) : Prop :=
  s.next selfPid l = some t

/-! ### The promise of the grace window -/

/-- The activations that arrived since the tracked game last went to the background, given those
before this step. The ones that wait when it goes there came after the one that sent it. -/
def arrived (s : Sched) (l : Label) (t : Sched) (entries : List Entry) : List Entry :=
  match l with
  | .enqueue activation decision => entries ++ [⟨activation, decision, s.clock⟩]
  | .finish _ =>
    match s.loop.state, t.loop.state with
    | .tracked _, .trackedBackgrounded _ => t.queue
    | _, _ => entries
  | _ => entries

/-- The same over a run. -/
def arrivals (s : Sched) (entries : List Entry) : List (Label × Sched) → List Entry
  | [] => entries
  | (l, t) :: tr => arrivals t (arrived s l t entries) tr

/-- The activation of another game. -/
def Entry.OtherGame (selfPid : ℕ) (af : AcceptedForeground) (entry : Entry) : Prop :=
  entry.activation.pid ≠ af.pid ∧ entry.activation.pid ≠ selfPid ∧
    ∃ accepted, entry.decision = .accept accepted

/-- The window of the game was activated before the deadline, and no other game before it. -/
def Returned (selfPid : ℕ) (af : AcceptedForeground) (deadline : ℕ) (entries : List Entry) : Prop :=
  ∃ before entry after, entries = before ++ entry :: after ∧
    entry.activation.pid = af.pid ∧ entry.enqueuedAt < deadline ∧
    ∀ x ∈ before, ¬ x.OtherGame selfPid af

/-- The loop applies a fired grace timer to this backgrounded game, whose process has not exited. -/
def GraceFires (s : Sched) (l : Label) (config : Config) (af : AcceptedForeground)
    (deadline : ℕ) : Prop :=
  l = .finish config ∧ s.job = some .graceTimer ∧
    s.loop = ⟨.trackedBackgrounded af, some deadline⟩ ∧ af.pid ∉ s.exits

/-- A grace-timeout Stop is emitted for a game whose window had returned in time, as told by the
activations that arrived since it went to the background. -/
def CutShort (selfPid : ℕ) (s : Sched) (l : Label) (entries : List Entry) : Prop :=
  ∃ config af deadline, GraceFires s l config af deadline ∧
    Returned selfPid af deadline entries ∧
    .stop af.key ∈ (react selfPid s.loop (s.input .graceTimer config)).events

/-- No session ends in a run because its game was away for less than the grace. -/
def ReturnsInTime (selfPid : ℕ) (tr : List (Label × Sched)) : Prop :=
  ∀ before l t after, tr = before ++ (l, t) :: after →
    ¬ CutShort selfPid (final {} before) l (arrivals {} [] before)

/-- The condition on one step: when a fired timer is applied, and pausing is on, no activation of
the backgrounded window from before the deadline still waits in the queue with no other game ahead
of it. -/
def TakenInTime (selfPid : ℕ) (s : Sched) (l : Label) : Prop :=
  ∀ config af deadline, GraceFires s l config af deadline →
    config.pauseWhenBackgrounded = true → ¬ Returned selfPid af deadline s.queue

/-! ### The invariant -/

/-- The activation in hand. -/
def Sched.inHand (s : Sched) : List Entry :=
  match s.job with
  | some (.activation entry) => [entry]
  | _ => []

/-- **The invariant of the schedule.** The first three fields say that the loop is in step with its
timer and never tracks the daemon itself. The last accounts for the arrivals. -/
structure Sched.Inv (selfPid : ℕ) (s : Sched) (entries : List Entry) : Prop where
  synced : s.loop.Synced
  due : s.job = some .graceTimer → ∃ deadline ∈ s.loop.graceTimer, deadline ≤ s.clock
  not_self : ∀ af, s.loop.state.current = some af → af.pid ≠ selfPid
  /-- What arrived was handled without effect, is in hand, or is queued. -/
  arrivals : ∀ af, s.loop.state = .trackedBackgrounded af →
    ∃ handled, entries = handled ++ (s.inHand ++ s.queue) ∧
      ∀ entry ∈ handled, Unrelated selfPid af entry.activation entry.decision

theorem inv_initial (selfPid : ℕ) : Sched.Inv selfPid {} [] where
  synced := synced_initial
  due := fun h => nomatch h
  not_self := fun _ h => nomatch h
  arrivals := fun _ h => nomatch h

/-- What a `select!` does: it takes a due timer, or the first activation, or neither. -/
theorem select_spec {s t : Sched} (h_job : s.job = none) (h : select s = some t) :
    t.loop = s.loop ∧ t.clock = s.clock ∧ t.inHand ++ t.queue = s.inHand ++ s.queue ∧
      (t.job = some .graceTimer → ∃ deadline ∈ s.loop.graceTimer, deadline ≤ s.clock) := by
  obtain ⟨loop, job, clock, exits, queue, shutdown, stopped⟩ := s
  obtain rfl : job = none := h_job
  unfold select at h
  cases shutdown with
  | true =>
    obtain rfl := Option.some.inj h
    exact ⟨rfl, rfl, rfl, fun h_job => nomatch h_job⟩
  | false =>
    cases exits with
    | cons pid exits =>
      obtain rfl := Option.some.inj h
      exact ⟨rfl, rfl, rfl, fun h_job => nomatch h_job⟩
    | nil =>
      by_cases h_due : (loop.graceTimer.any fun deadline => deadline ≤ clock) = true
      · simp only [h_due, if_true, Bool.false_eq_true, if_false] at h
        obtain rfl := Option.some.inj h
        refine ⟨rfl, rfl, rfl, fun _ => ?_⟩
        obtain ⟨deadline, h_timer, h_le⟩ := (Option.any_eq_true _ _).mp h_due
        exact ⟨deadline, h_timer, of_decide_eq_true h_le⟩
      · simp only [h_due, Bool.false_eq_true, if_false] at h
        cases queue with
        | nil => exact nomatch h
        | cons entry queue =>
          -- it moves from the queue into the hand
          obtain rfl := Option.some.inj h
          exact ⟨rfl, rfl, rfl, fun h_job => nomatch h_job⟩

/-- A turn does not lead to tracking the daemon itself. -/
theorem Moves.not_self {selfPid : ℕ} {s : Loop} {i : Input} {r : Reaction}
    (h_moves : Moves selfPid s i r) (h : ∀ af, s.state.current = some af → af.pid ≠ selfPid)
    {af : AcceptedForeground} (h_current : r.next.state.current = some af) : af.pid ≠ selfPid := by
  cases h_moves with
  | stay _ => exact h af h_current
  | switch activation accepted af' h_branch h_self h_af h_marks h_watched h_next =>
    rw [h_next] at h_current
    obtain rfl : af' = af := Option.some.inj h_current
    rw [h_af]
    exact h_self
  | background af' h_state => exact h af (by rw [h_state]; exact h_current)
  | resume af' h_state => exact h af (by rw [h_state]; exact h_current)
  | stop af' h_current' => exact nomatch h_current

/-- An activation in hand that does nothing does not concern the game in the background. -/
theorem unrelated_inHand {selfPid : ℕ} {s : Sched} {job : Job} {af : AcceptedForeground}
    (h_job : s.job = some job)
    (h_unrelated : ∀ activation decision, job.branch = .activation activation decision →
      Unrelated selfPid af activation decision) :
    ∀ entry ∈ s.inHand, Unrelated selfPid af entry.activation entry.decision := by
  intro entry h_entry
  unfold Sched.inHand at h_entry
  rw [h_job] at h_entry
  -- no other branch holds an activation
  cases job with
  | exited pid => exact absurd h_entry List.not_mem_nil
  | graceTimer => exact absurd h_entry List.not_mem_nil
  | activation entry' =>
    rw [List.mem_singleton.mp h_entry]
    exact h_unrelated entry'.activation entry'.decision rfl

/-- Applying an outcome keeps the invariant. -/
theorem Sched.Inv.finish {selfPid : ℕ} {s : Sched} {entries : List Entry}
    (h : s.Inv selfPid entries) {job : Job} (h_job : s.job = some job) (config : Config) {t : Sched}
    (h_t : t = { s with
      job := none, loop := (react selfPid s.loop (s.input job config)).next }) :
    t.Inv selfPid (arrived s (.finish config) t entries) := by
  have h_enabled : Enabled s.loop (s.input job config) := by
    intro h_branch
    cases job with
    | exited pid => exact nomatch h_branch
    | graceTimer => exact h.due h_job
    | activation entry => exact nomatch h_branch
  have h_moves : Moves selfPid s.loop (s.input job config) (react selfPid s.loop (s.input job config)) :=
    react_moves h.synced h_enabled
  have h_synced : t.loop.Synced := by
    rw [h_t]
    exact h.synced.step (if_pos h_enabled)
  have h_due : t.job = some .graceTimer → ∃ deadline ∈ t.loop.graceTimer, deadline ≤ t.clock := by
    intro h_timer
    rw [h_t] at h_timer
    exact nomatch h_timer
  have h_not_self : ∀ af, t.loop.state.current = some af → af.pid ≠ selfPid := by
    intro af h_current
    rw [h_t] at h_current
    exact h_moves.not_self h.not_self h_current
  refine ⟨h_synced, h_due, h_not_self, fun af h_state => ?_⟩
  generalize react selfPid s.loop (s.input job config) = r at h_moves h_t
  cases h_moves with
  | stay h_unrelated =>
    have h_loop : t.loop = s.loop := by rw [h_t]
    rw [h_loop] at h_state
    obtain ⟨handled, h_entries, h_handled⟩ := h.arrivals af h_state
    have h_arrived : arrived s (.finish config) t entries = entries := by
      unfold arrived
      rw [h_loop, h_state]
    refine ⟨handled ++ s.inHand, ?_, ?_⟩
    · rw [h_arrived, h_entries, h_t, List.append_assoc]
      rfl
    · -- the activation that was in hand has done nothing
      intro entry h_entry
      rcases List.mem_append.mp h_entry with h_entry | h_entry
      · exact h_handled entry h_entry
      · exact unrelated_inHand h_job (fun _ _ => h_unrelated af _ _ h_state) entry h_entry
  | switch activation accepted af' h_branch h_self h_af h_marks h_watched h_next =>
    rw [h_t] at h_state
    exact nomatch (congrArg Loop.state h_next).symm.trans h_state
  | background af' h_tracked =>
    -- what is queued now arrived after the activation that sent the game there
    refine ⟨[], ?_, fun entry h_entry => absurd h_entry List.not_mem_nil⟩
    unfold arrived
    rw [h_tracked, h_state, h_t]
    rfl
  | resume af' h_backgrounded =>
    rw [h_t] at h_state
    exact nomatch h_state
  | stop af' h_current =>
    rw [h_t] at h_state
    exact nomatch h_state

/-- Every step keeps the invariant. -/
theorem Sched.Inv.step {selfPid : ℕ} {s t : Sched} {l : Label} {entries : List Entry}
    (h : s.Inv selfPid entries) (h_step : s.Step selfPid l t) :
    t.Inv selfPid (arrived s l t entries) := by
  unfold Sched.Step Sched.next at h_step
  cases l with
  | tick duration =>
    -- a deadline that has passed stays passed
    obtain rfl := Option.some.inj h_step
    refine ⟨h.synced, fun h_job => ?_, h.not_self, h.arrivals⟩
    obtain ⟨deadline, h_timer, h_le⟩ := h.due h_job
    exact ⟨deadline, h_timer, h_le.trans (Nat.le_add_right _ _)⟩
  | enqueue activation decision =>
    -- the arrival is behind all others
    obtain rfl := Option.some.inj h_step
    refine ⟨h.synced, h.due, h.not_self, fun af h_state => ?_⟩
    obtain ⟨handled, h_entries, h_handled⟩ := h.arrivals af h_state
    refine ⟨handled, ?_, h_handled⟩
    change entries ++ _ = handled ++ (s.inHand ++ (s.queue ++ _))
    rw [h_entries, List.append_assoc, List.append_assoc]
  | exitNotice pid =>
    obtain rfl := Option.some.inj h_step
    exact ⟨h.synced, h.due, h.not_self, h.arrivals⟩
  | requestShutdown =>
    obtain rfl := Option.some.inj h_step
    exact ⟨h.synced, h.due, h.not_self, h.arrivals⟩
  | select =>
    -- what is taken up moves from the queue into the hand, which keeps the order
    by_cases h_idle : (s.job.isNone && !s.stopped) = true
    · simp only [h_idle, if_true] at h_step
      have h_job : s.job = none := Option.isNone_iff_eq_none.mp (Bool.and_eq_true_iff.mp h_idle).1
      obtain ⟨h_loop, h_clock, h_queue, h_due⟩ := select_spec h_job h_step
      refine ⟨?_, ?_, ?_, ?_⟩
      · rw [h_loop]
        exact h.synced
      · rw [h_loop, h_clock]
        exact h_due
      · rw [h_loop]
        exact h.not_self
      · rw [h_loop, h_queue]
        exact h.arrivals
    · simp only [h_idle, Bool.false_eq_true, if_false] at h_step
      exact nomatch h_step
  | finish config =>
    cases h_job : s.job with
    | none =>
      simp only [h_job] at h_step
      exact nomatch h_step
    | some job =>
      simp only [h_job] at h_step
      exact h.finish h_job config (Option.some.inj h_step).symm

/-- The invariant holds after any run, of the arrivals of the run. -/
theorem Sched.Inv.run {selfPid : ℕ} {s : Sched} {tr : List (Label × Sched)}
    (hrun : IsRun (Sched.Step selfPid) s tr) {entries : List Entry}
    (h : s.Inv selfPid entries) :
    (final s tr).Inv selfPid (Kwin.arrivals s entries tr) := by
  induction hrun generalizing entries with
  | nil s => exact h
  | cons h_step _ ih => exact ih (h.step h_step)

/-! ### When a return is in time -/

/-- What was handled without effect does not count for the return. -/
theorem returned_append_iff {selfPid : ℕ} {af : AcceptedForeground} {deadline : ℕ}
    {handled queue : List Entry} (h_self : af.pid ≠ selfPid)
    (h_handled : ∀ entry ∈ handled, Unrelated selfPid af entry.activation entry.decision) :
    Returned selfPid af deadline (handled ++ queue) ↔ Returned selfPid af deadline queue := by
  -- an unrelated activation is not of this window, and not of another game
  have h_pid : ∀ entry ∈ handled, entry.activation.pid ≠ af.pid := by
    intro entry h_entry
    obtain h_own | ⟨h_ne, -⟩ := h_handled entry h_entry
    · rw [h_own]
      exact h_self.symm
    · exact h_ne
  have h_game : ∀ entry ∈ handled, ¬ entry.OtherGame selfPid af := by
    rintro entry h_entry ⟨-, h_other, accepted, h_accept⟩
    obtain h_own | ⟨-, reason, h_reject⟩ := h_handled entry h_entry
    · exact h_other h_own
    · exact nomatch h_accept.symm.trans h_reject
  refine ⟨?_, ?_⟩
  · rintro ⟨before, entry, after, h_split, h_return, h_time, h_before⟩
    obtain ⟨rest, h_queue, h_eq⟩ | ⟨rest, h_queue, h_eq⟩ := List.append_eq_append_iff.mp h_split
    · refine ⟨rest, entry, after, h_eq, h_return, h_time, fun x hx => h_before x ?_⟩
      rw [h_queue]
      exact List.mem_append_right _ hx
    · cases rest with
      | nil => exact ⟨[], entry, after, h_eq.symm, h_return, h_time, fun x hx => nomatch hx⟩
      | cons x rest =>
        -- the return would have been handled
        obtain ⟨rfl, -⟩ := List.cons.inj h_eq
        have h_mem : entry ∈ handled := by
          rw [h_queue]
          exact List.mem_append_right _ List.mem_cons_self
        exact absurd h_return (h_pid entry h_mem)
  · rintro ⟨before, entry, after, rfl, h_return, h_time, h_before⟩
    refine ⟨handled ++ before, entry, after, (List.append_assoc _ _ _).symm, h_return, h_time, ?_⟩
    intro x hx
    rcases List.mem_append.mp hx with hx | hx
    · exact h_game x hx
    · exact h_before x hx

/-- **One step.** A session is cut short exactly by a step that applies a fired timer while the
return is still queued. -/
theorem cutShort_iff {selfPid : ℕ} {s : Sched} {l : Label} {entries : List Entry}
    (h : s.Inv selfPid entries) : CutShort selfPid s l entries ↔ ¬ TakenInTime selfPid s l := by
  -- the queue at the step and what has arrived since the pause hold the same returns
  have h_returned : ∀ {config af deadline}, GraceFires s l config af deadline →
      (Returned selfPid af deadline entries ↔ Returned selfPid af deadline s.queue) := by
    rintro config af deadline ⟨-, h_job, h_loop, -⟩
    have h_state : s.loop.state = .trackedBackgrounded af := by rw [h_loop]
    obtain ⟨handled, h_entries, h_handled⟩ := h.arrivals af h_state
    have h_inHand : s.inHand = [] := by
      unfold Sched.inHand
      rw [h_job]
    rw [h_entries, h_inHand, List.nil_append]
    exact returned_append_iff (h.not_self af (by rw [h_state]; rfl)) h_handled
  -- the timer stops the game exactly when pausing is on
  have h_stop : ∀ {config af deadline}, GraceFires s l config af deadline →
      (.stop af.key ∈ (react selfPid s.loop (s.input .graceTimer config)).events ↔
        config.pauseWhenBackgrounded = true) := by
    rintro config af deadline ⟨-, -, h_loop, -⟩
    have h_state : s.loop.state = .trackedBackgrounded af := by rw [h_loop]
    rw [graceTimer_events rfl h_state]
    change _ ∈ (if config.pauseWhenBackgrounded then _ else _) ↔ _
    cases config.pauseWhenBackgrounded with
    | true => exact iff_of_true List.mem_cons_self rfl
    | false => exact iff_of_false List.not_mem_nil Bool.false_ne_true
  unfold TakenInTime
  push Not
  refine ⟨?_, ?_⟩
  · rintro ⟨config, af, deadline, h_fires, h_return, h_event⟩
    exact ⟨config, af, deadline, h_fires, (h_stop h_fires).mp h_event, (h_returned h_fires).mp h_return⟩
  · rintro ⟨config, af, deadline, h_fires, h_pause, h_return⟩
    exact ⟨config, af, deadline, h_fires, (h_returned h_fires).mpr h_return, (h_stop h_fires).mpr h_pause⟩

/-- **When the promise of the grace window is kept.** No session of a run is cut short after the
window of its game came back in time, if and only if at every fired timer that is applied the loop
had already taken every such return off the queue. -/
theorem return_in_time_iff {selfPid : ℕ} {tr : List (Label × Sched)}
    (hrun : IsRun (Sched.Step selfPid) {} tr) :
    ReturnsInTime selfPid tr ↔ ∀ x ∈ steps {} tr, TakenInTime selfPid x.1 x.2.1 := by
  -- the step lemma, at each step of the run
  have h_step : ∀ before l t after, tr = before ++ (l, t) :: after →
      (CutShort selfPid (final {} before) l (arrivals {} [] before) ↔
        ¬ TakenInTime selfPid (final {} before) l) := by
    rintro before l t after rfl
    exact cutShort_iff ((inv_initial selfPid).run hrun.of_append.1)
  refine ⟨?_, ?_⟩
  · intro h x hx
    obtain ⟨before, l, t, after, h_split, rfl⟩ := Run.mem_steps_iff.mp hx
    by_contra h_late
    exact h before l t after h_split ((h_step before l t after h_split).mpr h_late)
  · intro h before l t after h_split h_cut
    refine (h_step before l t after h_split).mp h_cut ?_
    exact h _ (Run.mem_steps_iff.mpr ⟨before, l, t, after, h_split, rfl⟩)

/-- A game (process 7) goes to the background for a grace of 30. At 20 its window is activated
again, behind a desktop window whose gate decision the loop is still waiting for; that takes until
40, and then the timer comes first. -/
def slowGate : List Label :=
  let desktop : Label := .enqueue ⟨9, false, "plasmashell", ""⟩ (.reject .blocklisted)
  let game : Label := .enqueue ⟨7, true, "game", ""⟩ (.accept ⟨⟨"/opt/a"⟩, {}, none⟩)
  let config : Config := ⟨30, true⟩
  [game, .select, .finish config, desktop, .select, .finish config, desktop, .select, .tick 20,
    game, .tick 20, .finish config, .select, .finish config]

theorem return_in_time_iff_slowGate :
    ReturnsInTime 1 (Run.trace (Sched.next 1) {} slowGate) ↔
      ∀ x ∈ steps {} (Run.trace (Sched.next 1) {} slowGate), TakenInTime 1 x.1 x.2.1 :=
  return_in_time_iff (Run.isRun_trace (Sched.next 1) {} slowGate)

/-- The return at 20 was in time for the deadline of 30, and the session is stopped all the same. -/
theorem return_cut_short :
    ∃ tr, IsRun (Sched.Step 1) {} tr ∧ ¬ ReturnsInTime 1 tr := by
  refine ⟨Run.trace (Sched.next 1) {} slowGate, Run.isRun_trace (Sched.next 1) {} slowGate, ?_⟩
  intro h
  let before := Run.trace (Sched.next 1) {} (slowGate.take 13)
  let fired : Sched := final {} before
  let config : Config := ⟨30, true⟩
  let game : AcceptedForeground := ⟨7, GameKey.native "/opt/a", ⟨"/opt/a"⟩⟩
  have h_split : Run.trace (Sched.next 1) {} slowGate =
      before ++ Run.trace (Sched.next 1) fired [.finish config] := by decide
  let desktopEntry : Entry := ⟨⟨9, false, "plasmashell", ""⟩, .reject .blocklisted, 0⟩
  let gameEntry : Entry := ⟨⟨7, true, "game", ""⟩, .accept ⟨⟨"/opt/a"⟩, {}, none⟩, 20⟩
  have h_arrivals : arrivals {} [] before = [desktopEntry, gameEntry] := by decide
  refine h before _ _ [] h_split ⟨config, game, 30, ⟨rfl, by decide, by decide, by decide⟩, ?_, ?_⟩
  · -- the desktop window was handled without effect, the game waits behind it
    refine ⟨[desktopEntry], gameEntry, [], h_arrivals, rfl, by decide, ?_⟩
    rintro x hx ⟨-, -, accepted, h_accept⟩
    rw [List.mem_singleton.mp hx] at h_accept
    exact nomatch h_accept
  · decide

end Kwin

end Ludex
