import Ludex.Lib.Fair
import Ludex.Daemon.Kwin.Schedule

/-!
# Watching the tracked process

The loop of `kwin/source.rs` asks `pidfd::watch` for a watcher when it sends a Start. A watcher is a
task that waits until the pidfd of its process becomes readable and then sends the exit notice the
loop takes up. `watch` can fail, and the loop drops its result; what the last one returned is kept
here beside the loop (`Watched.lastWatch`), where nothing reads it.

`Watched` is the schedule of the loop with its watchers and the processes they wait for. The
invariant is that a process whose watch succeeded is awaited (`Watched.Inv`): its watcher is armed,
its notice is queued, or the loop has it in hand. So the session of a process that exits ends in
every fair execution, with no activation in it: a readable watcher sends (`ready_leadsTo`), and the
notice moves to the front of its channel and into the hand of the loop (`noticed_leadsTo`, on the
rank of the notice). The session of a process whose watch failed has no such end: without the pause
the loop does nothing when the user turns to a window that is no game (`failedWatch_forgotten`).
-/

namespace Ludex

namespace Kwin

open Run (IsRun final)
open Fair (Execution)

/-! ### `pidfd::watch` -/

/-- The task that waits for a process, with whether its pidfd is readable. -/
structure Watcher where
  pid : ℕ
  exited : Bool
deriving DecidableEq, Repr

/-- An I/O error. -/
inductive WatchError where
  | invalidInput (message : String)
  | os (errno : ℕ)
deriving DecidableEq, Repr

/-- A process exits. -/
def Watcher.saw (pid : ℕ) (w : Watcher) : Watcher :=
  if w.pid = pid then { w with exited := true } else w

theorem Watcher.saw_pid (pid : ℕ) (w : Watcher) : (w.saw pid).pid = w.pid := by
  unfold saw
  split
  · rfl
  · rfl

/-- What a watch meets: the results of `pidfd_open` and of the registration of the descriptor, and
whether the process has exited without having been reaped. -/
structure WatchEnv where
  pidfdOpen : Except ℕ Unit := .ok ()
  asyncFd : Except ℕ Unit := .ok ()
  exited : Bool := false

/-- Spawn the watcher of a process. -/
def watch (pid : ℕ) (env : WatchEnv) : Except WatchError Watcher :=
  if 2 ^ 31 ≤ pid then .error (.invalidInput "pid does not fit in i32")
  else if pid = 0 then .error (.invalidInput "zero pid")
  else
    match env.pidfdOpen with
    | .error errno => .error (.os errno)
    | .ok _ =>
      match env.asyncFd with
      | .error errno => .error (.os errno)
      | .ok _ => .ok ⟨pid, env.exited⟩

theorem watch_pid {pid : ℕ} {env : WatchEnv} {w : Watcher} (h : watch pid env = .ok w) :
    w.pid = pid := by
  unfold watch at h
  split at h
  · exact nomatch h
  · split at h
    · exact nomatch h
    · split at h
      · exact nomatch h
      · split at h
        · exact nomatch h
        · rw [← Except.ok.inj h]

/-! ### The loop and its watchers -/

/-- The schedule with the watchers that have not sent their notice. -/
structure Watched where
  sched : Sched := {}
  watchers : List Watcher := []
  lastWatch : Option (Except WatchError Watcher) := none

namespace Watched

/-- What can happen next. -/
inductive Label where
  /-- A step of the schedule that neither applies an outcome nor delivers a notice. -/
  | plain (l : Kwin.Label)
  | finish (config : Config) (env : WatchEnv)
  /-- A process exits: the pidfds of its watchers become readable. -/
  | exits (pid : ℕ)
  /-- A watcher sends its notice. -/
  | sends (watcher : Watcher)

end Watched

/-- A step of the schedule that is its own in the presence of watchers. -/
def Label.isPlain : Label → Bool
  | exitNotice _ | finish _ => false
  | _ => true

namespace Watched

/-- One step. A watcher that fails to wait sends its notice all the same, so it may send at any
time. -/
def next (selfPid : ℕ) (s : Watched) : Label → Option Watched
  | .plain l =>
    if l.isPlain then (s.sched.next selfPid l).map fun sched => { s with sched := sched } else none
  | .finish config env =>
    match s.sched.job with
    | some job =>
      let reaction := react selfPid s.sched.loop (s.sched.input job config)
      some
        { sched := { s.sched with job := none, loop := reaction.next }
          watchers := s.watchers ++
            reaction.watched.filterMap fun pid => (watch pid env).toOption
          lastWatch := reaction.watched.foldl (fun _ pid => some (watch pid env)) s.lastWatch }
    | none => none
  | .exits pid => some { s with watchers := s.watchers.map (Watcher.saw pid) }
  | .sends watcher =>
    if watcher ∈ s.watchers then
      some { s with
        sched := { s.sched with exits := s.sched.exits ++ [watcher.pid] }
        watchers := s.watchers.erase watcher }
    else none

/-- A step. -/
def Step (selfPid : ℕ) (s : Watched) (l : Label) (t : Watched) : Prop := s.next selfPid l = some t

/-- The process is tracked, in the foreground or in the background. -/
def Tracks (s : Watched) (af : AcceptedForeground) : Prop := s.sched.loop.state.current = some af

/-- The watch of the process that was tracked last succeeded. -/
def Monitored (s : Watched) : Prop := ∃ w, s.lastWatch = some (.ok w)

/-- A watcher of the process is armed, or its exit notice is queued. -/
def Awaited (s : Watched) (pid : ℕ) : Prop :=
  (∃ w ∈ s.watchers, w.pid = pid) ∨ pid ∈ s.sched.exits

/-- The process has exited, as its watchers see it. -/
def Exited (s : Watched) (pid : ℕ) : Prop := ∀ w ∈ s.watchers, w.pid = pid → w.exited = true

instance instDecidableExited (s : Watched) (pid : ℕ) : Decidable (s.Exited pid) :=
  inferInstanceAs (Decidable (∀ w ∈ s.watchers, _))

/-- **The invariant.** A tracked process whose watch succeeded is awaited, or its notice is in
hand. -/
structure Inv (selfPid : ℕ) (s : Watched) : Prop where
  sched : ∃ entries, s.sched.Inv selfPid entries
  awaited : ∀ af, s.Tracks af → s.Monitored →
    s.Awaited af.pid ∨ s.sched.job = some (.exited af.pid)

end Watched

/-! ### What a turn does to the tracked process -/

section Turn

variable {selfPid : ℕ} {s : Loop} {i : Input} {r : Reaction}

/-- The tracked process after a turn: none, the one before, or one that the turn watches. -/
theorem Moves.tracked (h : Moves selfPid s i r) :
    r.next.state.current = none ∨
      r.next.state.current = s.state.current ∧ r.watched = [] ∨
        ∃ af, r.next.state.current = some af ∧ r.watched = [af.pid] := by
  cases h with
  | stay _ => exact .inr (.inl ⟨rfl, rfl⟩)
  -- a switch is the only move that tracks another process, and it watches it at once
  | switch activation accepted af h_branch h_self h_af h_marks h_watched h_next =>
    refine .inr (.inr ⟨af, ?_, h_watched⟩)
    rw [h_next]
    rfl
  -- the grace period changes how a game is tracked, but not which one
  | background af h_state =>
    refine .inr (.inl ⟨?_, rfl⟩)
    rw [h_state]
    rfl
  | resume af h_state =>
    refine .inr (.inl ⟨?_, rfl⟩)
    rw [h_state]
    rfl
  | stop af h_current => exact .inl rfl

/-- A process that a turn stops tracking has its session stopped. -/
theorem Moves.stops (h : Moves selfPid s i r) {af : AcceptedForeground}
    (h_before : s.state.current = some af) (h_after : r.next.state.current ≠ some af) :
    .stop af.key ∈ r.events := by
  cases h with
  | stay _ => exact absurd h_before h_after
  | switch activation accepted af' h_branch h_self h_af h_marks h_watched h_next =>
    -- the boundaries of the turn begin with the Stop
    have h_mark : Mark.stop af.key ∈ r.events.map TransitionEvent.mark := by
      rw [h_marks]
      refine List.mem_append_left _ ?_
      unfold shutdownMarks
      rw [h_before]
      exact List.mem_cons_self
    obtain ⟨event, h_event, h_stop⟩ := List.mem_map.mp h_mark
    cases event with
    | start key executablePath displayName => exact nomatch h_stop
    | stop key =>
      obtain rfl := Mark.stop.inj h_stop
      exact h_event
  | background af' h_state =>
    rw [h_state] at h_before
    exact absurd h_before h_after
  | resume af' h_state =>
    rw [h_state] at h_before
    exact absurd h_before h_after
  | stop af' h_current =>
    obtain rfl : af' = af := Option.some.inj (h_current.symm.trans h_before)
    exact List.mem_cons_self

/-- The exit notice of the tracked process ends the tracking. -/
theorem react_exited {af : AcceptedForeground} (h_current : s.state.current = some af)
    (h_branch : i.branch = .exited af.pid) : (react selfPid s i).next.state.current = none := by
  unfold react
  rw [h_branch]
  show (onTrackedExit s.state af.pid).state.current = none
  unfold onTrackedExit
  rw [h_current]
  simp only [if_true]
  rfl

end Turn

/-- What the `select!` does to the notices: it ends the loop, or takes up the first of them, or there
is none. -/
theorem select_notices {s t : Sched} (h : select s = some t) :
    t.loop = s.loop ∧
      (t.stopped = true ∧ t.exits = s.exits ∧ t.job = s.job ∨
        t.stopped = s.stopped ∧ (∃ pid, s.exits = pid :: t.exits ∧ t.job = some (.exited pid)) ∨
          t.stopped = s.stopped ∧ s.exits = [] ∧ t.exits = []) := by
  obtain ⟨loop, job, clock, exits, queue, shutdown, stopped⟩ := s
  unfold select at h
  cases shutdown with
  | true =>
    obtain rfl := Option.some.inj h
    exact ⟨rfl, .inl ⟨rfl, rfl, rfl⟩⟩
  | false =>
    cases exits with
    -- an exit is taken before the timer and the queue are looked at
    | cons pid exits =>
      obtain rfl := Option.some.inj h
      exact ⟨rfl, .inr (.inl ⟨rfl, pid, rfl, rfl⟩)⟩
    | nil =>
      -- what the other two arms take leaves the exits alone, and there were none
      by_cases h_due : (loop.graceTimer.any fun deadline => deadline ≤ clock) = true
      · simp only [h_due, if_true, Bool.false_eq_true, if_false] at h
        obtain rfl := Option.some.inj h
        exact ⟨rfl, .inr (.inr ⟨rfl, rfl, rfl⟩)⟩
      · simp only [h_due, Bool.false_eq_true, if_false] at h
        cases queue with
        | nil => exact nomatch h
        | cons entry queue =>
          obtain rfl := Option.some.inj h
          exact ⟨rfl, .inr (.inr ⟨rfl, rfl, rfl⟩)⟩

namespace Watched

variable {selfPid : ℕ} {s t : Watched} {af : AcceptedForeground}

/-! ### What one step does -/

/-- **Inversion of a step.** The plain steps are the `select!` and those that touch neither the loop
nor the notices. -/
inductive Does (selfPid : ℕ) (s : Watched) : Label → Watched → Prop
  | outside {l : Kwin.Label} {t : Watched} : l ≠ .select → t.sched.loop = s.sched.loop →
      t.sched.exits = s.sched.exits → t.sched.job = s.sched.job →
      t.sched.stopped = s.sched.stopped → t.watchers = s.watchers → t.lastWatch = s.lastWatch →
      Does selfPid s (.plain l) t
  | select {sched : Sched} : s.sched.job = none → s.sched.stopped = false →
      Kwin.select s.sched = some sched → Does selfPid s (.plain .select) { s with sched := sched }
  | finish (config : Config) (env : WatchEnv) (job : Job) : s.sched.job = some job →
      Does selfPid s (.finish config env)
        { sched := { s.sched with
            job := none, loop := (react selfPid s.sched.loop (s.sched.input job config)).next }
          watchers := s.watchers ++
            (react selfPid s.sched.loop (s.sched.input job config)).watched.filterMap
              fun pid => (watch pid env).toOption
          lastWatch := (react selfPid s.sched.loop (s.sched.input job config)).watched.foldl
            (fun _ pid => some (watch pid env)) s.lastWatch }
  | exits (pid : ℕ) :
      Does selfPid s (.exits pid) { s with watchers := s.watchers.map (Watcher.saw pid) }
  | sends (watcher : Watcher) : watcher ∈ s.watchers →
      Does selfPid s (.sends watcher)
        { s with
          sched := { s.sched with exits := s.sched.exits ++ [watcher.pid] }
          watchers := s.watchers.erase watcher }

theorem Step.does {l : Label} (h : Step selfPid s l t) : Does selfPid s l t := by
  unfold Step next at h
  cases l with
  | plain l =>
    cases l with
    | exitNotice pid => exact nomatch h
    | finish config => exact nomatch h
    -- time, new activations and the shutdown request come from outside the loop
    | tick duration =>
      obtain rfl := Option.some.inj h
      exact .outside (fun h_label => nomatch h_label) rfl rfl rfl rfl rfl rfl
    | enqueue activation decision =>
      obtain rfl := Option.some.inj h
      exact .outside (fun h_label => nomatch h_label) rfl rfl rfl rfl rfl rfl
    | requestShutdown =>
      obtain rfl := Option.some.inj h
      exact .outside (fun h_label => nomatch h_label) rfl rfl rfl rfl rfl rfl
    -- the loop selects only when it has no job and has not stopped
    | select =>
      obtain ⟨sched, h_select, rfl⟩ := Option.map_eq_some_iff.mp h
      change (if s.sched.job.isNone && !s.sched.stopped then Kwin.select s.sched else none) = _
        at h_select
      by_cases h_idle : (s.sched.job.isNone && !s.sched.stopped) = true
      · rw [if_pos h_idle] at h_select
        obtain ⟨h_job, h_running⟩ := Bool.and_eq_true_iff.mp h_idle
        exact .select (Option.isNone_iff_eq_none.mp h_job) ((Bool.not_eq_true' _).mp h_running) h_select
      · rw [if_neg h_idle] at h_select
        exact nomatch h_select
  | finish config env =>
    -- a job is finished with whatever the environment then is
    cases h_job : s.sched.job with
    | none =>
      simp only [h_job] at h
      exact nomatch h
    | some job =>
      simp only [h_job] at h
      obtain rfl := Option.some.inj h
      exact .finish config env job h_job
  | exits pid =>
    obtain rfl := Option.some.inj h
    exact .exits pid
  | sends watcher =>
    -- a watcher writes to the channel only while it is there
    by_cases h_mem : watcher ∈ s.watchers
    · simp only [h_mem, if_true] at h
      obtain rfl := Option.some.inj h
      exact .sends watcher h_mem
    · simp only [h_mem, if_false] at h
      exact nomatch h

/-- A step is one of the schedule, or leaves the schedule alone. -/
theorem Step.sched {l : Label} (h : Step selfPid s l t) :
    t.sched = s.sched ∨ ∃ l', s.sched.Step selfPid l' t.sched := by
  cases l with
  | plain l =>
    unfold Step next at h
    by_cases h_plain : l.isPlain = true
    · simp only [h_plain, if_true] at h
      obtain ⟨sched, h_sched, rfl⟩ := Option.map_eq_some_iff.mp h
      exact .inr ⟨l, h_sched⟩
    · simp only [h_plain, Bool.false_eq_true, if_false] at h
      exact nomatch h
  | finish config env =>
    -- what a watcher or an exit does is a step of the scheduler, or none of its own
    cases h.does with
    | finish _ _ job h_job =>
      refine .inr ⟨.finish config, ?_⟩
      show (match s.sched.job with | some job => _ | none => none) = _
      rw [h_job]
  | exits pid =>
    cases h.does
    exact .inl rfl
  | sends watcher =>
    cases h.does
    exact .inr ⟨.exitNotice watcher.pid, rfl⟩

/-! ### The invariant -/

theorem inv_initial (selfPid : ℕ) : Inv selfPid {} where
  sched := ⟨[], Kwin.inv_initial selfPid⟩
  awaited := fun _ h_tracks => nomatch h_tracks

/-- The turn that is made of the job in hand. -/
theorem Inv.moves (h : Inv selfPid s) {job : Job} (h_job : s.sched.job = some job)
    (config : Config) :
    Moves selfPid s.sched.loop (s.sched.input job config)
      (react selfPid s.sched.loop (s.sched.input job config)) := by
  obtain ⟨entries, h_sched⟩ := h.sched
  apply react_moves h_sched.synced
  intro h_branch
  cases job with
  | exited pid => exact nomatch h_branch
  | graceTimer => exact h_sched.due h_job
  | activation entry => exact nomatch h_branch

/-- A process is awaited however many processes have exited. -/
theorem awaited_saw {pid pid' : ℕ} (h : s.Awaited pid) :
    Awaited { s with watchers := s.watchers.map (Watcher.saw pid') } pid := by
  refine h.imp_left ?_
  rintro ⟨w, hw, rfl⟩
  exact ⟨w.saw pid', List.mem_map_of_mem hw, w.saw_pid pid'⟩

/-- The watcher that sends its notice leaves the notice in its place. -/
theorem awaited_sends {pid : ℕ} (watcher : Watcher) (h : s.Awaited pid) :
    Awaited { s with
      sched := { s.sched with exits := s.sched.exits ++ [watcher.pid] }
      watchers := s.watchers.erase watcher } pid := by
  rcases h with ⟨w, hw, rfl⟩ | h_notice
  · by_cases h_same : w = watcher
    · rw [h_same]
      exact .inr (List.mem_append_right _ List.mem_cons_self)
    · exact .inl ⟨w, (List.mem_erase_of_ne h_same).mpr hw, rfl⟩
  · exact .inr (List.mem_append_left _ h_notice)

/-- The `select!` leaves the notice queued, or takes it up. -/
theorem awaited_select {pid : ℕ} {sched : Sched} (h_select : select s.sched = some sched)
    (h : s.Awaited pid) :
    Awaited { s with sched := sched } pid ∨ sched.job = some (.exited pid) := by
  -- a watcher that is armed stays so; a notice is in the channel, or was the first in it
  rcases h with h_armed | h_notice
  · exact .inl (.inl h_armed)
  · rcases (select_notices h_select).2 with ⟨-, h_exits, -⟩ | ⟨-, first, h_exits, h_taken⟩ |
      ⟨-, h_none, -⟩
    · exact .inl (.inr (by rw [← h_exits] at h_notice; exact h_notice))
    · rw [h_exits] at h_notice
      rcases List.mem_cons.mp h_notice with rfl | h_rest
      · exact .inr h_taken
      · exact .inl (.inr h_rest)
    · rw [h_none] at h_notice
      exact absurd h_notice List.not_mem_nil

/-- What is tracked when a turn comes to its end was tracked before, and is not what the turn was
about, or has just been given its watcher. -/
theorem Inv.awaited_finish (h : Inv selfPid s) {config : Config} {env : WatchEnv}
    (h_step : Step selfPid s (.finish config env) t) (h_tracks : t.Tracks af)
    (h_monitored : t.Monitored) : t.Awaited af.pid := by
  cases h_step.does with
  | finish config env job h_job =>
    have h_moves := h.moves h_job config
    unfold Tracks at h_tracks
    unfold Monitored at h_monitored
    rcases h_moves.tracked with h_none | ⟨h_same, h_watched⟩ | ⟨af', h_new, h_watched⟩
    · exact nomatch h_none.symm.trans h_tracks
    · -- the process was tracked before, and its notice was not the one in hand
      have h_before : s.sched.loop.state.current = some af := h_same.symm.trans h_tracks
      simp only [h_watched, List.foldl_nil] at h_monitored
      rcases h.awaited af h_before h_monitored with (⟨w, hw, h_pid⟩ | h_notice) | h_hand
      · exact .inl ⟨w, List.mem_append_left _ hw, h_pid⟩
      · exact .inr h_notice
      · obtain rfl := Option.some.inj (h_job.symm.trans h_hand)
        exact nomatch (react_exited h_before rfl).symm.trans h_tracks
    · -- the watch of this turn succeeded
      obtain rfl : af' = af := Option.some.inj (h_new.symm.trans h_tracks)
      simp only [h_watched, List.foldl_cons, List.foldl_nil] at h_monitored
      obtain ⟨w, h_last⟩ := h_monitored
      have h_ok : watch af'.pid env = .ok w := Option.some.inj h_last
      refine .inl ⟨w, List.mem_append_right _ ?_, watch_pid h_ok⟩
      rw [h_watched]
      refine List.mem_filterMap.mpr ⟨af'.pid, List.mem_cons_self, ?_⟩
      rw [h_ok]
      rfl

/-- **Every step keeps the invariant.** -/
theorem Inv.step (h : Inv selfPid s) {l : Label} (h_step : Step selfPid s l t) : Inv selfPid t where
  sched := by
    obtain ⟨entries, h_sched⟩ := h.sched
    rcases h_step.sched with h_same | ⟨l', h_next⟩
    · rw [h_same]
      exact ⟨entries, h_sched⟩
    · exact ⟨_, h_sched.step h_next⟩
  awaited := by
    intro af h_tracks h_monitored
    cases h_step.does with
    | outside _ h_loop h_exits h_job _ h_watchers h_last =>
      unfold Tracks at h_tracks
      unfold Monitored at h_monitored
      rw [h_loop] at h_tracks
      rw [h_last] at h_monitored
      unfold Awaited
      rw [h_watchers, h_exits, h_job]
      exact h.awaited af h_tracks h_monitored
    | select h_job h_running h_select =>
      unfold Tracks at h_tracks
      rw [(select_notices h_select).1] at h_tracks
      -- nothing is in hand when the loop selects, so what is awaited is armed or in the channel
      have h_before : s.Awaited af.pid := by
        refine (h.awaited af h_tracks h_monitored).resolve_right ?_
        rw [h_job]
        exact fun h_none => nomatch h_none
      exact awaited_select h_select h_before
    -- only this step can begin to track a process, and then it arms the watcher
    | finish config env job h_job => exact .inl (h.awaited_finish h_step h_tracks h_monitored)
    | exits pid => exact (h.awaited af h_tracks h_monitored).imp_left awaited_saw
    | sends watcher _ => exact (h.awaited af h_tracks h_monitored).imp_left (awaited_sends watcher)

/-! ### An exit is noticed -/

/-- The session is over, or the loop is, which then sends its closing Stop. -/
def Over (af : AcceptedForeground) (s : Watched) : Prop := ¬ s.Tracks af ∨ s.sched.stopped = true

/-- The pidfd of the tracked process is readable. -/
structure Ready (selfPid : ℕ) (af : AcceptedForeground) (s : Watched) : Prop where
  inv : Inv selfPid s
  tracks : s.Tracks af
  running : s.sched.stopped = false
  readable : ⟨af.pid, true⟩ ∈ s.watchers

/-- The exit notice of the tracked process is queued or in hand. -/
structure Noticed (selfPid : ℕ) (af : AcceptedForeground) (s : Watched) : Prop where
  inv : Inv selfPid s
  tracks : s.Tracks af
  running : s.sched.stopped = false
  notice : af.pid ∈ s.sched.exits ∨ s.sched.job = some (.exited af.pid)

/-- A step leaves a running session running, or it is over. -/
theorem over_or (af : AcceptedForeground) (s : Watched) :
    Over af s ∨ s.Tracks af ∧ s.sched.stopped = false := by
  unfold Over
  by_cases h_tracks : s.Tracks af
  · cases h_stopped : s.sched.stopped with
    | true => exact .inl (.inr rfl)
    | false => exact .inr ⟨h_tracks, rfl⟩
  · exact .inl (.inl h_tracks)

/-- The readable watcher stays, until it sends. -/
theorem Ready.step (h : Ready selfPid af s) {l : Label} (h_step : Step selfPid s l t) :
    (Over af t ∨ Noticed selfPid af t) ∨ l ≠ .sends ⟨af.pid, true⟩ ∧ Ready selfPid af t := by
  rcases over_or af t with h_over | ⟨h_tracks, h_running⟩
  · -- the process is still tracked, or there is nothing to show
    exact .inl (.inl h_over)
  have h_inv := h.inv.step h_step
  have h_stays : ⟨af.pid, true⟩ ∈ t.watchers → Ready selfPid af t := fun h_mem =>
    ⟨h_inv, h_tracks, h_running, h_mem⟩
  cases h_step.does with
  | outside _ _ _ _ _ h_watchers _ =>
    exact .inr ⟨(fun h_label => nomatch h_label), h_stays (by rw [h_watchers]; exact h.readable)⟩
  | select _ _ _ => exact .inr ⟨(fun h_label => nomatch h_label), h_stays h.readable⟩
  | finish config env job _ =>
    exact .inr ⟨(fun h_label => nomatch h_label), h_stays (List.mem_append_left _ h.readable)⟩
  | exits pid =>
    refine .inr ⟨(fun h_label => nomatch h_label), h_stays ?_⟩
    -- the exit of a process marks the watchers of it, and leaves the others as they are
    refine List.mem_map.mpr ⟨_, h.readable, ?_⟩
    unfold Watcher.saw
    split
    · rfl
    · rfl
  | sends watcher _ =>
    -- the watcher of the process has written its notice, or another one has
    by_cases h_same : watcher = ⟨af.pid, true⟩
    · subst h_same
      exact .inl (.inr ⟨h_inv, h_tracks, h_running,
        .inl (List.mem_append_right _ List.mem_cons_self)⟩)
    · refine .inr ⟨fun h_label => h_same (Label.sends.inj h_label), h_stays ?_⟩
      exact (List.mem_erase_of_ne (Ne.symm h_same)).mpr h.readable

/-- **A readable watcher sends its notice.** -/
theorem ready_leadsTo {e : Execution (Step selfPid)}
    (h_fair : e.WeaklyFair fun l => l = .sends ⟨af.pid, true⟩) :
    e.LeadsTo (Ready selfPid af) fun s => Over af s ∨ Noticed selfPid af s := by
  apply Fair.leadsTo_of_fair h_fair
  · intro s h _
    exact ⟨_, _, rfl, if_pos h.readable⟩
  · intro s l t h_step h _
    exact (h.step h_step).symm.imp_left And.right
  · intro s l t h_step h _ h_label
    exact (h.step h_step).resolve_right fun h_other => h_other.1 h_label

/-- How many turns of the loop the exit notice of a process is away from being applied, each turn
counted as its `select!` and its outcome. -/
def noticeRank (pid : ℕ) (s : Watched) : ℕ :=
  if s.sched.job = some (.exited pid) then 0
  else 2 * s.sched.exits.idxOf pid + if s.sched.job.isSome then 2 else 1

/-- A step of the loop itself. -/
def Label.isLoop : Label → Bool
  | plain .select | finish _ _ => true
  | _ => false

/-- While a notice of the tracked process is there, the loop can go on. -/
theorem Noticed.enabled (h : Noticed selfPid af s) :
    Fair.Enabled (Step selfPid) (fun l => l.isLoop = true) s := by
  -- the job in hand can be finished; if there is none, the notice in the channel can be taken
  cases h_job : s.sched.job with
  | some job =>
    have h_some : (s.next selfPid (.finish ⟨0, true⟩ {})).isSome = true := by
      simp only [next, h_job]
      rfl
    obtain ⟨t, h_t⟩ := Option.isSome_iff_exists.mp h_some
    exact ⟨.finish ⟨0, true⟩ {}, t, rfl, h_t⟩
  | none =>
    have h_notice : af.pid ∈ s.sched.exits := by
      refine h.notice.resolve_right ?_
      rw [h_job]
      exact fun h_none => nomatch h_none
    -- an exit is waiting, so the select cannot find all of its arms idle
    obtain ⟨sched, h_select⟩ : ∃ sched, Kwin.select s.sched = some sched := by
      unfold Kwin.select
      split
      · exact ⟨_, rfl⟩
      · cases h_exits : s.sched.exits with
        | nil =>
          rw [h_exits] at h_notice
          exact absurd h_notice List.not_mem_nil
        | cons pid exits => exact ⟨_, rfl⟩
    refine ⟨.plain .select, { s with sched := sched }, rfl, ?_⟩
    show (if true = true then (if s.sched.job.isNone && !s.sched.stopped then Kwin.select s.sched
      else none).map _ else none) = _
    rw [h_job, h.running, h_select]
    rfl

/-- The `select!` that takes up a notice brings each later one nearer. -/
theorem noticeRank_select {pid first : ℕ} {sched : Sched} (h_job : s.sched.job = none)
    (h_exits : s.sched.exits = first :: sched.exits)
    (h_taken : sched.job = some (.exited first)) :
    noticeRank pid { s with sched := sched } < noticeRank pid s := by
  have h_rank : noticeRank pid s = 2 * (first :: sched.exits).idxOf pid + 1 := by
    unfold noticeRank
    rw [h_job, h_exits]
    rfl
  rw [h_rank]
  unfold noticeRank
  -- the notice itself has been taken, or one that was ahead of it
  by_cases h_pid : first = pid
  · rw [if_pos (by rw [← h_pid]; exact h_taken)]
    exact Nat.succ_pos _
  · have h_other : ¬ sched.job = some (.exited pid) := by
      rw [h_taken]
      exact fun h_same => h_pid (Job.exited.inj (Option.some.inj h_same))
    rw [if_neg h_other, h_taken, List.idxOf_cons_ne _ h_pid]
    show 2 * sched.exits.idxOf pid + 2 < _
    omega

/-- The notice moves forward with every step of the loop, and no other step moves it. -/
theorem Noticed.step (h : Noticed selfPid af s) {l : Label} (h_step : Step selfPid s l t) :
    (Over af t ∨ Noticed selfPid af t ∧ noticeRank af.pid t < noticeRank af.pid s) ∨
      l.isLoop = false ∧ Noticed selfPid af t ∧ noticeRank af.pid t = noticeRank af.pid s := by
  rcases over_or af t with h_over | ⟨h_tracks, h_running⟩
  · exact .inl (.inl h_over)
  have h_inv := h.inv.step h_step
  cases h_step.does with
  | @outside l _ h_label _ h_exits h_job _ _ _ =>
    refine .inr ⟨?_, ⟨h_inv, h_tracks, h_running, ?_⟩, ?_⟩
    · cases l with
      | select => exact absurd rfl h_label
      | _ => rfl
    · rw [h_exits, h_job]
      exact h.notice
    · unfold noticeRank
      rw [h_exits, h_job]
  | @select sched h_job h_before h_select =>
    have h_notice : af.pid ∈ s.sched.exits := by
      refine h.notice.resolve_right ?_
      rw [h_job]
      exact fun h_none => nomatch h_none
    obtain ⟨-, ⟨h_stopped, -⟩ | ⟨-, pid, h_exits, h_taken⟩ | ⟨-, h_none, -⟩⟩ := select_notices h_select
    · exact .inl (.inl (.inr h_stopped))
    · -- the first notice is taken up
      rw [h_exits] at h_notice
      refine .inl (.inr ⟨⟨h_inv, h_tracks, h_running, ?_⟩, noticeRank_select h_job h_exits h_taken⟩)
      rcases List.mem_cons.mp h_notice with rfl | h_rest
      · exact .inr h_taken
      · exact .inl h_rest
    · rw [h_none] at h_notice
      exact absurd h_notice List.not_mem_nil
  | finish config env job h_job =>
    have h_other : ¬ s.sched.job = some (.exited af.pid) := by
      intro h_hand
      obtain rfl := Option.some.inj (h_job.symm.trans h_hand)
      -- applying the notice ends the tracking
      exact nomatch (react_exited h.tracks rfl).symm.trans h_tracks
    have h_notice : af.pid ∈ s.sched.exits := h.notice.resolve_right h_other
    refine .inl (.inr ⟨⟨h_inv, h_tracks, h_running, .inl h_notice⟩, ?_⟩)
    unfold noticeRank
    rw [if_neg h_other, h_job, if_neg (fun h_none => nomatch h_none)]
    show 2 * s.sched.exits.idxOf af.pid + 1 < 2 * s.sched.exits.idxOf af.pid + 2
    omega
  | exits pid => exact .inr ⟨rfl, ⟨h_inv, h_tracks, h_running, h.notice⟩, rfl⟩
  | sends watcher _ =>
    refine .inr ⟨rfl, ⟨h_inv, h_tracks, h_running, ?_⟩, ?_⟩
    · exact h.notice.imp_left fun h_queued => List.mem_append_left _ h_queued
    · unfold noticeRank
      by_cases h_hand : s.sched.job = some (.exited af.pid)
      · rw [if_pos h_hand, if_pos h_hand]
      · have h_queued := h.notice.resolve_right h_hand
        rw [if_neg h_hand, if_neg h_hand]
        show 2 * (s.sched.exits ++ [watcher.pid]).idxOf af.pid + _ = _
        rw [List.idxOf_append_of_mem h_queued]

/-- **An exit notice ends the session.** -/
theorem noticed_leadsTo {e : Execution (Step selfPid)}
    (h_fair : e.WeaklyFair fun l => l.isLoop = true) :
    e.LeadsTo (Noticed selfPid af) (Over af) := by
  -- by induction on how far the notice is from being in hand and done
  apply Fair.leadsTo_of_rank (noticeRank af.pid)
  intro k
  apply Fair.leadsTo_of_fair h_fair
  · intro s h _
    exact h.1.enabled
  · rintro s l t h_step ⟨h, rfl⟩ -
    rcases h.step h_step with h_goal | ⟨-, h_kept⟩
    · exact .inr h_goal
    · exact .inl h_kept
  · -- a step of the loop that keeps the notice where it is would not be one
    rintro s l t h_step ⟨h, rfl⟩ - h_label
    refine (h.step h_step).resolve_right fun h_other => ?_
    rw [h_other.1] at h_label
    exact nomatch h_label

/-- An awaited process that has exited is noticed. -/
theorem awaited_leadsTo {e : Execution (Step selfPid)}
    (h_loop : e.WeaklyFair fun l => l.isLoop = true)
    (h_watchers : e.WeaklyFair fun l => l = .sends ⟨af.pid, true⟩) :
    e.LeadsTo (fun s => Inv selfPid s ∧ s.Tracks af ∧ s.Monitored ∧ s.Exited af.pid) (Over af) := by
  -- first the watcher writes its notice, and then the loop comes to it
  have h_ready : e.LeadsTo (Ready selfPid af) (Over af) :=
    (ready_leadsTo h_watchers).or_trans (noticed_leadsTo h_loop)
  rintro n ⟨h_inv, h_tracks, h_monitored, h_exited⟩
  rcases over_or af (e.state n) with h_over | ⟨-, h_running⟩
  · exact ⟨n, le_rfl, h_over⟩
  -- the exit is awaited in one of three places
  rcases h_inv.awaited af h_tracks h_monitored with (⟨w, hw, h_pid⟩ | h_notice) | h_hand
  · obtain rfl : w = ⟨af.pid, true⟩ := by
      have h_true := h_exited w hw h_pid
      obtain ⟨pid, exited⟩ := w
      obtain rfl : pid = af.pid := h_pid
      obtain rfl : exited = true := h_true
      rfl
    exact h_ready n ⟨h_inv, h_tracks, h_running, hw⟩
  · exact noticed_leadsTo h_loop n ⟨h_inv, h_tracks, h_running, .inl h_notice⟩
  · exact noticed_leadsTo h_loop n ⟨h_inv, h_tracks, h_running, .inr h_hand⟩

/-- The step sends the Stop of a session. -/
def Stops (selfPid : ℕ) (s : Watched) (l : Label) (af : AcceptedForeground) : Prop :=
  ∃ config env job, l = .finish config env ∧ s.sched.job = some job ∧
    .stop af.key ∈ (react selfPid s.sched.loop (s.sched.input job config)).events

/-- A session is over by its Stop. -/
theorem Step.stops {l : Label} (h_step : Step selfPid s l t) (h : Inv selfPid s)
    (h_before : s.Tracks af) (h_after : ¬ t.Tracks af) : Stops selfPid s l af := by
  cases h_step.does with
  -- only what finishes a job changes the state of the loop
  | outside _ h_loop _ _ _ _ _ =>
    unfold Tracks at h_after
    rw [h_loop] at h_after
    exact absurd h_before h_after
  | select _ _ h_select =>
    unfold Tracks at h_after
    rw [(select_notices h_select).1] at h_after
    exact absurd h_before h_after
  | finish config env job h_job =>
    exact ⟨config, env, job, rfl, h_job, (h.moves h_job config).stops h_before h_after⟩
  | exits pid => exact absurd h_before h_after
  | sends watcher _ => exact absurd h_before h_after

/-- **A process whose watch succeeded is watched while it is tracked.** In every state between two
turns of the loop, after any history, a watcher of it is armed or its exit notice is queued. And once
the process has exited, its session is stopped or the loop is, in every execution in which readable
watchers send and the loop goes on. That does not take an activation, and the settings do not
matter. -/
theorem watched_while_tracked (selfPid : ℕ) :
    (∀ tr, IsRun (Step selfPid) {} tr → (final {} tr).sched.job = none → (final {} tr).Monitored →
      ∀ af, (final {} tr).Tracks af → (final {} tr).Awaited af.pid) ∧
    ∀ e : Execution (Step selfPid), e.state 0 = {} → e.WeaklyFair (fun l => l.isLoop = true) →
      (∀ pid, e.WeaklyFair fun l => l = .sends ⟨pid, true⟩) →
      ∀ n af, (e.state n).Tracks af → (e.state n).Monitored → (e.state n).Exited af.pid →
        ∃ m, n ≤ m ∧
          (Stops selfPid (e.state m) (e.label m) af ∨ (e.state m).sched.stopped = true) := by
  refine ⟨fun tr hrun h_job h_monitored af h_tracks => ?_,
    fun e h_first h_loop h_watchers n af h_tracks h_monitored h_exited => ?_⟩
  · have h_inv := hrun.final_invariant (Inv selfPid) (fun _ _ _ h_step h => h.step h_step)
      (inv_initial selfPid)
    refine (h_inv.awaited af h_tracks h_monitored).resolve_right ?_
    rw [h_job]
    exact fun h_none => nomatch h_none
  · have h_inv : ∀ k, Inv selfPid (e.state k) := by
      apply e.invariant (Inv selfPid) (fun _ _ _ h_step h => h.step h_step)
      rw [h_first]
      exact inv_initial selfPid
    obtain ⟨m, h_le, h_over | h_stopped⟩ := awaited_leadsTo h_loop (h_watchers af.pid) n
      ⟨h_inv n, h_tracks, h_monitored, h_exited⟩
    · -- between the two times there is a step that ended the tracking
      obtain ⟨k, h_k, h_before, h_after⟩ :=
        e.exists_leaving (P := fun s => s.Tracks af) h_le h_tracks h_over
      exact ⟨k, h_k, .inl ((e.step_at k).stops (h_inv k) h_before h_after)⟩
    · exact ⟨m, h_le, .inr h_stopped⟩

/-- When a process exits, its watchers see it. -/
theorem Step.exited {pid : ℕ} (h : Step selfPid s (.exits pid) t) : t.Exited pid := by
  cases h.does
  intro w' hw' h_pid
  obtain ⟨w, -, rfl⟩ := List.mem_map.mp hw'
  rw [Watcher.saw_pid] at h_pid
  unfold Watcher.saw
  rw [if_pos h_pid]

/-! ### A game that exits -/

/-- Process 7 is accepted, under a setting that never pauses, and watched as `env` allows. -/
def gameStarts (env : WatchEnv) : List Label :=
  [.plain (.enqueue ⟨7, true, "game", ""⟩ (.accept ⟨⟨"/opt/a"⟩, {}, none⟩)), .plain .select,
    .finish ⟨30, false⟩ env]

/-- It exits, which the loop takes note of. -/
def gameExits : List Label :=
  gameStarts {} ++ [.exits 7, .sends ⟨7, true⟩, .plain .select, .finish ⟨30, false⟩ {}]

def exitExecution : Execution (Step 1) :=
  Fair.idling (next 1) (.plain (.tick 0)) (fun _ => rfl) gameExits {} (by decide)

/-- The game is watched from its start, and its exit ends its session without an activation. -/
theorem watched_while_tracked_exit :
    (final {} (Run.trace (next 1) {} (gameStarts {}))).Awaited 7 ∧
      ∃ m, 4 ≤ m ∧
        (Stops 1 (exitExecution.state m) (exitExecution.label m) ⟨7, .native "/opt/a", ⟨"/opt/a"⟩⟩ ∨
          (exitExecution.state m).sched.stopped = true) := by
  have h_rest : Fair.path (next 1) (.plain (.tick 0)) gameExits {} gameExits.length =
      { lastWatch := some (.ok ⟨7, false⟩) } := rfl
  obtain ⟨h_safe, h_live⟩ := watched_while_tracked 1
  refine ⟨?_, ?_⟩
  · exact h_safe _ (Run.isRun_trace (next 1) {} (gameStarts {})) rfl ⟨⟨7, false⟩, rfl⟩
      ⟨7, .native "/opt/a", ⟨"/opt/a"⟩⟩ rfl
  · refine h_live exitExecution rfl (Fair.idling_weaklyFair ?_)
      (fun pid => Fair.idling_weaklyFair ?_) 4 _ rfl ⟨⟨7, false⟩, rfl⟩ (by decide)
    · rintro ⟨l, t, h_label, h_next⟩
      rw [h_rest] at h_next
      cases l with
      | plain l =>
        cases l with
        | select => exact nomatch h_next
        | _ => exact nomatch h_label
      | finish config env => exact nomatch h_next
      | exits pid => exact nomatch h_label
      | sends watcher => exact nomatch h_label
    · rintro ⟨l, t, rfl, h_next⟩
      rw [h_rest] at h_next
      exact nomatch h_next

/-- The activation of a window of another process that is no game. -/
def Elsewhere (af : AcceptedForeground) (activation : Activation) (decision : GateDecision) : Prop :=
  activation.pid ≠ af.pid ∧ ∃ reason, decision = .reject reason

/-- A step in which no other window than such a one is activated, under a setting that never
pauses. -/
def Label.Unnoticed (af : AcceptedForeground) : Label → Prop
  | .plain (.enqueue activation decision) => Elsewhere af activation decision
  | .finish config _ => config.pauseWhenBackgrounded = false
  | _ => True

/-- The session of `af` is open, nothing watches its process, and what the loop has to do are
activations elsewhere. -/
structure Forgotten (af : AcceptedForeground) (s : Watched) : Prop where
  loop : s.sched.loop = ⟨.tracked af, none⟩
  job : ∀ job, s.sched.job = some job →
    ∃ entry, job = .activation entry ∧ Elsewhere af entry.activation entry.decision
  exits : s.sched.exits = []
  queue : ∀ entry ∈ s.sched.queue, Elsewhere af entry.activation entry.decision
  watchers : s.watchers = []

/-- Without the pause the loop does not react to an activation elsewhere. -/
theorem react_elsewhere {entry : Entry} (h : Elsewhere af entry.activation entry.decision)
    {config : Config} (h_config : config.pauseWhenBackgrounded = false) (now : ℕ) :
    react selfPid ⟨.tracked af, none⟩ ⟨.activation entry.activation entry.decision, now, config⟩ =
      { next := ⟨.tracked af, none⟩ } := by
  obtain ⟨h_pid, reason, h_reject⟩ := h
  show handleActivation selfPid _ entry.activation entry.decision now config = _
  unfold handleActivation
  split
  · rfl
  · have h_other : (FgState.tracked af).current.any
        (fun af' => af'.pid = entry.activation.pid) = false :=
      decide_eq_false (Ne.symm h_pid)
    simp only [nextAction, h_other, h_reject, h_config, Bool.false_eq_true, if_false]
    rfl

/-- A session that is forgotten stays so, whatever else the user turns to. -/
theorem Forgotten.step (h : Forgotten af s) {l : Label} (h_step : Step selfPid s l t)
    (h_label : l.Unnoticed af) : Forgotten af t := by
  obtain ⟨⟨loop, job, clock, exits, queue, shutdown, stopped⟩, watchers, lastWatch⟩ := s
  obtain ⟨rfl, h_job, rfl, h_queue, rfl⟩ := h
  unfold Step next at h_step
  cases l with
  | plain l =>
    cases l with
    | tick duration =>
      obtain rfl := Option.some.inj h_step
      exact ⟨rfl, h_job, rfl, h_queue, rfl⟩
    | enqueue activation decision =>
      obtain rfl := Option.some.inj h_step
      refine ⟨rfl, h_job, rfl, fun entry h_entry => ?_, rfl⟩
      rcases List.mem_append.mp h_entry with h_entry | h_entry
      · exact h_queue entry h_entry
      · rw [List.mem_singleton.mp h_entry]
        exact h_label
    | exitNotice pid => exact nomatch h_step
    | requestShutdown =>
      obtain rfl := Option.some.inj h_step
      exact ⟨rfl, h_job, rfl, h_queue, rfl⟩
    | select =>
      obtain ⟨sched, h_sched, rfl⟩ := Option.map_eq_some_iff.mp h_step
      cases job with
      | some job => exact nomatch h_sched
      | none =>
        cases stopped with
        | true => exact nomatch h_sched
        | false =>
          cases shutdown with
          | true =>
            obtain rfl := Option.some.inj h_sched
            exact ⟨rfl, h_job, rfl, h_queue, rfl⟩
          | false =>
            -- no notice and no timer: what it takes up is an activation
            cases queue with
            | nil => exact nomatch h_sched
            | cons entry queue =>
              obtain rfl := Option.some.inj h_sched
              refine ⟨rfl, fun job h_some => ?_, rfl, fun x hx => ?_, rfl⟩
              · obtain rfl := Option.some.inj h_some
                exact ⟨entry, rfl, h_queue entry List.mem_cons_self⟩
              · exact h_queue x (List.mem_cons_of_mem _ hx)
    | finish config => exact nomatch h_step
  | finish config env =>
    cases job with
    | none => exact nomatch h_step
    | some job =>
      obtain ⟨entry, rfl, h_entry⟩ := h_job job rfl
      obtain rfl := Option.some.inj h_step
      have h_react : react selfPid ⟨.tracked af, none⟩
          ⟨.activation entry.activation entry.decision, clock, config⟩ =
            { next := ⟨.tracked af, none⟩ } :=
        react_elsewhere h_entry h_label clock
      refine ⟨congrArg Reaction.next h_react, ?_, rfl, h_queue, ?_⟩
      · intro job h_none
        exact nomatch h_none
      · exact congrArg
          (fun r : Reaction => r.watched.filterMap fun pid => (watch pid env).toOption) h_react
  | exits pid =>
    obtain rfl := Option.some.inj h_step
    exact ⟨rfl, h_job, rfl, h_queue, rfl⟩
  | sends watcher => exact nomatch h_step

/-- The process has exited before it could be watched (`ESRCH`). It is tracked, no watcher is armed
and no notice is queued; and it stays tracked, whatever windows that are no games the user turns to,
under a setting that never pauses. -/
theorem failedWatch_forgotten :
    ∃ tr af, IsRun (Step 1) {} tr ∧ (final {} tr).sched.job = none ∧ (final {} tr).Tracks af ∧
      ¬ (final {} tr).Awaited af.pid ∧
        ∀ tr', IsRun (Step 1) (final {} tr) tr' → (∀ x ∈ tr', x.1.Unnoticed af) →
          (final (final {} tr) tr').Tracks af := by
  let env : WatchEnv := { pidfdOpen := .error 3 }
  let af : AcceptedForeground := ⟨7, .native "/opt/a", ⟨"/opt/a"⟩⟩
  refine ⟨Run.trace (next 1) {} (gameStarts env), af,
    Run.isRun_trace (next 1) {} (gameStarts env), rfl, rfl, ?_, ?_⟩
  · rintro (⟨w, hw, -⟩ | h_notice)
    · exact absurd hw List.not_mem_nil
    · exact absurd h_notice List.not_mem_nil
  · intro tr' hrun h_labels
    have h_first : Forgotten af (final {} (Run.trace (next 1) {} (gameStarts env))) :=
      ⟨rfl, fun _ h_none => absurd h_none.symm (Option.some_ne_none _), rfl,
        fun _ h_mem => absurd h_mem List.not_mem_nil, rfl⟩
    have h_last := hrun.invariant_of_steps (Forgotten af) (fun _ l => l.Unnoticed af)
      (fun _ _ _ h_step h_label h => h.step h_step h_label) ?_ h_first _
      (Run.final_mem_states _ tr')
    · unfold Tracks
      rw [h_last.loop]
      rfl
    · intro x hx
      obtain ⟨pre, l, u, post, rfl, rfl⟩ := Run.mem_steps_iff.mp hx
      exact h_labels (l, u) (List.mem_append_right _ List.mem_cons_self)

end Watched

end Kwin

end Ludex
