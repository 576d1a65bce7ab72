import Ludex.Lib.Run
import Ludex.Daemon.Settings

/-!
# The backup scheduler

`run_scheduler` of `backup.rs`, as a task that is polled while setters are called over D-Bus, next to
a signal that shuts the daemon down, over any number of starts of the daemon. The interval comes from
the stored hours when the daemon starts, and from the hours that a setter is given; it is clamped when
the scheduler reads it, and handed to `make_tick`.

`make_tick` adds the interval to the current instant, and that panics if the sum is not an instant.
Nothing bounds the hours from above. So the scheduler is sound in all states of a run if and only if
each time it makes a timer the hours in force, one at least, lead from the current instant to another
one (`scheduler_sound_iff`).
-/

namespace Ludex

open Run
open Calendar (nanosPerSecond)

/-- `Instant::checked_add` -/
def Instant.checkedAdd (t : Instant) (duration : ℕ) : Option Instant :=
  if h : t.nanos + duration < 2 ^ 63 * nanosPerSecond then some ⟨t.nanos + duration, h⟩ else none

namespace BackupScheduler

open Settings

/-! ### Timers -/

/-- What the scheduler uses of the configuration. -/
structure Current where
  interval : ℕ
  retention : ℕ
deriving DecidableEq

/-- The configuration with its safety floors. -/
def readClamped (config : BackupConfig) : Current where
  interval := max config.interval (fromSecs minIntervalSeconds)
  retention := max config.retention 1

/-- A timer that ticks periodically. -/
structure Tick where
  period : ℕ
  deadline : Instant
deriving DecidableEq

/-- A timer that does not fire immediately. `none` is a panic: `interval` refuses a period of zero,
and `reset` adds the period to the current instant. -/
def makeTick (now : Instant) (period : ℕ) : Option Tick :=
  if period = 0 then none else (now.checkedAdd period).map fun deadline => ⟨period, deadline⟩

/-! ### The task -/

/-- Where the task is. -/
inductive Task where
  /-- It has not been polled yet. -/
  | spawned
  /-- There is no backup directory. -/
  | disabled
  /-- It waits in `select!`. -/
  | running (current : Current) (tick : Tick)
  /-- It has been notified, and waits for the lock of the configuration. -/
  | reloading (current : Current) (tick : Tick)
  | panicked
  | returned
deriving DecidableEq

/-- The timer that a task has. -/
def Task.tick? : Task → Option Tick
  | running _ tick | reloading _ tick => some tick
  | _ => none

/-- A call of `run_once`, with its retention. -/
inductive Snapshot where
  | periodic (retention : ℕ)
  | final (retention : ℕ)
deriving DecidableEq

/-- The settings, and the scheduler with what it is told. -/
structure Daemon extends Settings.System where
  /-- Is there a backup directory? -/
  backupDir : Bool
  /-- The permit of `backup_changed`. -/
  backupChanged : Bool := false
  shutdown : Bool := false
  task : Task := .spawned
  snapshots : List Snapshot := []
  /-- The hours that the interval in force was made from, as an observer notes them. -/
  hours : UInt64

/-- Go on with a new timer. -/
def arm (now : Instant) (current : Current) : Task :=
  match makeTick now current.interval with
  | none => .panicked
  | some tick => .running current tick

/-- The scheduler is polled. When its timer fires it sets the deadline of the next tick itself, to
`next`. -/
def Daemon.poll (d : Daemon) (now next : Instant) : Daemon :=
  match d.task with
  | .spawned =>
    if d.backupDir then { d with task := arm now (readClamped d.config.backup) }
    else { d with task := .disabled }
  | .running current tick =>
    -- `select!` is biased: a shutdown first, then a notification, then the timer
    if d.shutdown then
      { d with task := .returned, snapshots := d.snapshots ++ [.final current.retention] }
    else if d.backupChanged then { d with backupChanged := false, task := .reloading current tick }
    else if tick.deadline ≤ now then
      { d with
        task := .running current { tick with deadline := next }
        snapshots := d.snapshots ++ [.periodic current.retention] }
    else d
  | .reloading current tick =>
    let new := readClamped d.config.backup
    -- the timer goes on if only the retention has changed
    if new.interval ≠ current.interval then { d with task := arm now new }
    else { d with task := .running new tick }
  | .disabled | .panicked | .returned => d

/-! ### The daemon -/

/-- Setters that notify the scheduler. -/
def notifies : Method → Bool
  | .setBackupIntervalHours _ | .setBackupRetentionCount _ => true
  | _ => false

/-- The setter that writes the configuration in a turn. -/
def applied (s : Settings.System) (turn : Turn) : Option Method :=
  match s.calls[turn.call]? with
  | some ⟨method, .applying⟩ => some method
  | _ => none

/-- The hours after a setter, if they are about the interval. -/
def hoursAfter (hours : UInt64) : Option Method → UInt64
  | some (.setBackupIntervalHours new) => new
  | _ => hours

/-- The daemon starts: it loads its configuration, and spawns the scheduler. -/
def boot (failure : String → Option Error) (backupDir : Bool) (table : SettingsTable)
    (methods : List Method) : Daemon where
  toSystem := starting failure table methods
  backupDir := backupDir
  hours := loadU64 failure table SettingsRepo.backupIntervalHours
    SettingsRepo.defaultBackupIntervalHours

inductive Event where
  /-- A call of a setter takes its next step. -/
  | call (turn : Turn)
  | stop
  | poll (now next : Instant)
  /-- The daemon ends, and starts again with what is stored. -/
  | restart (failure : String → Option Error) (backupDir : Bool) (methods : List Method)

def Daemon.step (d : Daemon) : Event → Daemon
  | .call turn =>
    { d with
      toSystem := d.toSystem.turn turn
      backupChanged := d.backupChanged || (applied d.toSystem turn).any notifies
      hours := hoursAfter d.hours (applied d.toSystem turn) }
  | .stop => { d with shutdown := true }
  | .poll now next => d.poll now next
  | .restart failure backupDir methods => boot failure backupDir d.table methods

def Step (d : Daemon) (e : Event) (t : Daemon) : Prop := t = d.step e

/-! ### What is asked of the scheduler -/

/-- The scheduler makes a timer when it is polled: it has just been spawned, or the interval has
changed. -/
def Daemon.makesTimer (d : Daemon) : Bool :=
  match d.task with
  | .spawned => d.backupDir
  | .reloading current _ => (readClamped d.config.backup).interval ≠ current.interval
  | _ => false

/-- The period handed to `make_tick` can be added to the current instant, and has its floor. -/
def Schedulable (d : Daemon) (e : Event) : Prop :=
  ∀ now next, e = .poll now next → d.makesTimer = true →
    ((now.checkedAdd (readClamped d.config.backup).interval).isSome = true ∧
      fromSecs minIntervalSeconds ≤ (readClamped d.config.backup).interval)

/-- The scheduler has not panicked; its timer has the floor; and it has only returned after a
shutdown, with a snapshot. -/
structure Sound (d : Daemon) : Prop where
  alive : d.task ≠ .panicked
  period : ∀ tick ∈ d.task.tick?, fromSecs minIntervalSeconds ≤ tick.period
  final : d.task = .returned → d.shutdown = true ∧ ∃ retention, .final retention ∈ d.snapshots

/-- The hours, one at least, lead from an instant to another one. -/
def Reaches (now : Instant) (hours : UInt64) : Prop :=
  now.nanos + max hours.toNat 1 * 3600 * nanosPerSecond < 2 ^ 63 * nanosPerSecond

/-- A timer is only made where the hours in force lead to another instant. -/
def InReach (d : Daemon) (e : Event) : Prop :=
  ∀ now next, e = .poll now next → d.makesTimer = true → Reaches now d.hours

instance instDecidableInReach (d : Daemon) : (e : Event) → Decidable (InReach d e)
  | .poll now next =>
    decidable_of_iff (d.makesTimer = true →
        now.nanos + max d.hours.toNat 1 * 3600 * nanosPerSecond < 2 ^ 63 * nanosPerSecond)
      ⟨fun h _ _ h_eq => by cases h_eq; exact h, fun h => h now next rfl⟩
  | .call _ => isTrue nofun
  | .stop => isTrue nofun
  | .restart _ _ _ => isTrue nofun

/-! ### The interval in force -/

/-- What hours come to after the multiplication and the clamp. -/
def periodOf (hours : UInt64) : ℕ :=
  min (max hours.toNat 1 * 3600) (2 ^ 64 - 1) * nanosPerSecond

theorem toNat_saturatingMul (a b : UInt64) :
    (saturatingMul a b).toNat = min (a.toNat * b.toNat) (2 ^ 64 - 1) := by
  unfold saturatingMul
  by_cases h : a.toNat * b.toNat < 2 ^ 64
  · rw [if_pos h, UInt64.toNat_mul, Nat.mod_eq_of_lt h, Nat.min_eq_left (by omega)]
  · rw [if_neg h, Nat.min_eq_right (by omega)]
    rfl

theorem toNat_max (a b : UInt64) : (max a b).toNat = max a.toNat b.toNat := by
  show (if a ≤ b then b else a).toNat = _
  by_cases h : a ≤ b
  · rw [if_pos h, max_eq_right (UInt64.le_iff_toNat_le.mp h)]
  · rw [if_neg h, max_eq_left (not_le.mp (mt UInt64.le_iff_toNat_le.mpr h)).le]

/-- The hours that are loaded are clamped when they are read. -/
theorem interval_loaded (hours : UInt64) (retention : ℕ) :
    (readClamped ⟨fromSecs (saturatingMul hours 3600), retention⟩).interval = periodOf hours := by
  have h_floor : minIntervalSeconds.toNat = 3600 := rfl
  have h_hour : (3600 : UInt64).toNat = 3600 := rfl
  unfold readClamped periodOf fromSecs
  simp only [toNat_saturatingMul, h_floor, h_hour]
  unfold nanosPerSecond
  omega

/-- The hours that are set have been clamped before. -/
theorem interval_set (hours : UInt64) (retention : ℕ) :
    (readClamped ⟨fromSecs (saturatingMul (max hours (minIntervalSeconds / 3600)) 3600),
      retention⟩).interval = periodOf hours := by
  have h_hour : (minIntervalSeconds / 3600).toNat = 1 := rfl
  rw [interval_loaded]
  unfold periodOf
  rw [toNat_max, h_hour, max_assoc, max_self]

theorem floor_le_periodOf (hours : UInt64) : fromSecs minIntervalSeconds ≤ periodOf hours := by
  rw [← interval_loaded hours 0]
  exact le_max_right _ _

/-- **A timer is made** exactly if the hours lead to another instant: where the multiplication
saturates, they do not. -/
theorem checkedAdd_isSome_iff (now : Instant) (hours : UInt64) :
    (now.checkedAdd (periodOf hours)).isSome = true ↔ Reaches now hours := by
  -- a saturated product is more than 2^63 seconds, and so are the hours it was made from
  have h_saturated : now.nanos + periodOf hours < 2 ^ 63 * nanosPerSecond ↔ Reaches now hours := by
    unfold Reaches periodOf nanosPerSecond
    omega
  rw [← h_saturated]
  unfold Instant.checkedAdd
  by_cases h : now.nanos + periodOf hours < 2 ^ 63 * nanosPerSecond
  · rw [dif_pos h]
    exact iff_of_true rfl h
  · rw [dif_neg h]
    exact iff_of_false nofun h

theorem makeTick_periodOf (now : Instant) (hours : UInt64) :
    makeTick now (periodOf hours) =
      (now.checkedAdd (periodOf hours)).map fun deadline => ⟨periodOf hours, deadline⟩ := by
  have h_floor := floor_le_periodOf hours
  have h_pos : 0 < fromSecs minIntervalSeconds := by decide
  exact if_neg (by omega)

/-- The configuration is that of the hours an observer has noted. -/
def Noted (d : Daemon) : Prop := (readClamped d.config.backup).interval = periodOf d.hours

theorem noted_boot (failure : String → Option Error) (backupDir : Bool) (table : SettingsTable)
    (methods : List Method) : Noted (boot failure backupDir table methods) :=
  interval_loaded _ _

/-- A setter writes what its hours come to, or leaves the interval alone. -/
theorem interval_writeConfig (config : TrackerConfig) {hours : UInt64} (method : Method)
    (h : (readClamped config.backup).interval = periodOf hours) :
    (readClamped (method.setter.writeConfig config).backup).interval =
      periodOf (hoursAfter hours (some method)) := by
  cases method with
  | setBackupIntervalHours new => exact interval_set new _
  | _ => exact h

theorem noted_call {d : Daemon} (h : Noted d) (turn : Turn) : Noted (d.step (.call turn)) := by
  show (readClamped (d.toSystem.turn turn).config.backup).interval =
    periodOf (hoursAfter d.hours (applied d.toSystem turn))
  unfold applied
  cases h_call : d.calls[turn.call]? with
  | none =>
    rw [Settings.System.turn_of_none h_call]
    exact h
  | some call =>
    rw [Settings.System.turn_of_call h_call]
    obtain ⟨method, state⟩ := call
    cases state with
    | storing =>
      -- the row is written first, and the configuration is not
      have h_config : ((Call.mk method .storing).step turn.failure d.toStores).1.config = d.config := by
        unfold Call.step
        cases turn.failure with
        | some e => rfl
        | none =>
          simp only
          split <;> rfl
      rw [h_config]
      exact h
    | applying => exact interval_writeConfig d.config method h
    | returned reply => exact h

/-! ### One step -/

theorem poll_of_makesTimer {d : Daemon} (h : d.makesTimer = true) (now next : Instant) :
    d.poll now next = { d with task := arm now (readClamped d.config.backup) } := by
  unfold Daemon.makesTimer at h
  unfold Daemon.poll
  -- a timer is made at the start and after a change of the interval
  cases h_task : d.task with
  | spawned =>
    rw [h_task] at h
    exact if_pos h
  | reloading current tick =>
    rw [h_task] at h
    exact if_pos (of_decide_eq_true h)
  | _ =>
    rw [h_task] at h
    exact nomatch h

/-- Without a new timer the scheduler stays sound. -/
theorem Sound.poll {d : Daemon} (h : Sound d) (h_not : ¬ d.makesTimer = true) (now next : Instant) :
    Sound (d.poll now next) := by
  obtain ⟨h_alive, h_period, h_final⟩ := h
  unfold Daemon.makesTimer at h_not
  unfold Daemon.poll
  cases h_task : d.task with
  | spawned =>
    rw [h_task] at h_not
    simp only [if_neg h_not]
    exact ⟨nofun, nofun, nofun⟩
  | running current tick =>
    rw [h_task] at h_period
    -- the branches of `select!`, in their order
    by_cases h_shutdown : d.shutdown = true
    · simp only [if_pos h_shutdown]
      exact ⟨nofun, nofun, fun _ => ⟨h_shutdown, _, List.mem_append_right _ List.mem_cons_self⟩⟩
    · by_cases h_changed : d.backupChanged = true
      · simp only [if_neg h_shutdown, if_pos h_changed]
        exact ⟨nofun, h_period, nofun⟩
      · by_cases h_due : tick.deadline ≤ now
        · simp only [if_neg h_shutdown, if_neg h_changed, if_pos h_due]
          refine ⟨nofun, ?_, nofun⟩
          rintro _ ⟨⟩
          exact h_period tick rfl
        · simp only [if_neg h_shutdown, if_neg h_changed, if_neg h_due]
          refine ⟨h_alive, ?_, h_final⟩
          rwa [h_task]
  | reloading current tick =>
    rw [h_task] at h_period h_not
    simp only [if_neg fun h_ne => h_not (decide_eq_true h_ne)]
    exact ⟨nofun, h_period, nofun⟩
  | disabled =>
    refine ⟨h_alive, ?_, h_final⟩
    rwa [h_task] at h_period ⊢
  | panicked => exact absurd h_task h_alive
  | returned =>
    refine ⟨h_alive, ?_, h_final⟩
    rwa [h_task] at h_period ⊢

/-- **A new timer** is sound exactly if its period can be added to the current instant. -/
theorem sound_arm_iff {d : Daemon} (h : Noted d) (now : Instant) :
    Sound { d with task := arm now (readClamped d.config.backup) } ↔ Reaches now d.hours := by
  unfold arm
  rw [h, makeTick_periodOf, ← checkedAdd_isSome_iff]
  cases now.checkedAdd (periodOf d.hours) with
  | none =>
    -- the addition panics
    exact iff_of_false (fun h_sound => h_sound.alive rfl) (by simp)
  | some deadline =>
    refine iff_of_true ⟨nofun, ?_, nofun⟩ rfl
    rintro _ ⟨⟩
    exact floor_le_periodOf d.hours

theorem noted_step {d t : Daemon} {e : Event} (h_step : Step d e t) (h : Noted d) : Noted t := by
  obtain rfl := h_step
  cases e with
  | call turn => exact noted_call h turn
  | stop => exact h
  | restart failure backupDir methods => exact noted_boot failure backupDir d.table methods
  | poll now next =>
    -- the scheduler reads the configuration only
    show Noted (d.poll now next)
    unfold Daemon.poll
    cases d.task with
    | spawned =>
      simp only
      split <;> exact h
    | running current tick =>
      simp only
      repeat' split
      all_goals exact h
    | reloading current tick =>
      simp only
      split <;> exact h
    | _ => exact h

/-- **One step** keeps the scheduler sound, and hands over a period that can be scheduled, exactly
if the hours in force are in reach where a timer is made. -/
theorem sound_step_iff {d t : Daemon} {e : Event} (h_step : Step d e t) (h_noted : Noted d)
    (h_sound : Sound d) : Schedulable d e ∧ Sound t ↔ InReach d e := by
  obtain rfl := h_step
  cases e with
  -- no other event makes a timer
  | call turn => exact iff_of_true ⟨nofun, h_sound.alive, h_sound.period, h_sound.final⟩ nofun
  | stop =>
    refine iff_of_true ⟨nofun, h_sound.alive, h_sound.period, fun h_returned => ?_⟩ nofun
    exact ⟨rfl, (h_sound.final h_returned).2⟩
  | restart failure backupDir methods =>
    exact iff_of_true ⟨nofun, nofun, nofun, nofun⟩ nofun
  | poll now next =>
    by_cases h_makes : d.makesTimer = true
    · have h_reach : InReach d (.poll now next) ↔ Reaches now d.hours := by
        refine ⟨fun h => h now next rfl h_makes, ?_⟩
        rintro h _ _ ⟨⟩ _
        exact h
      show _ ∧ Sound (d.poll now next) ↔ _
      rw [h_reach, poll_of_makesTimer h_makes, sound_arm_iff h_noted]
      refine and_iff_right_of_imp fun h => ?_
      rintro _ _ ⟨⟩ _
      rw [show _ = _ from h_noted]
      exact ⟨(checkedAdd_isSome_iff now d.hours).mpr h, floor_le_periodOf d.hours⟩
    · exact iff_of_true ⟨fun _ _ _ h => absurd h h_makes, h_sound.poll h_makes now next⟩
        fun _ _ _ h => absurd h h_makes

/-! ### Runs -/

theorem sound_boot (failure : String → Option Error) (backupDir : Bool) (table : SettingsTable)
    (methods : List Method) : Sound (boot failure backupDir table methods) := ⟨nofun, nofun, nofun⟩

/-- **Every accepted interval is schedulable**, in all runs from a start with any stored values and
any calls of setters, if and only if each time the scheduler makes a timer the hours that were loaded
or set last, one at least, can be added to the current instant. -/
theorem scheduler_sound_iff (failure : String → Option Error) (backupDir : Bool)
    (table : SettingsTable) (methods : List Method) {tr : List (Event × Daemon)}
    (hrun : IsRun Step (boot failure backupDir table methods) tr) :
    ((∀ x ∈ steps (boot failure backupDir table methods) tr, Schedulable x.1 x.2.1) ∧
        ∀ t ∈ states (boot failure backupDir table methods) tr, Sound t) ↔
      ∀ x ∈ steps (boot failure backupDir table methods) tr, InReach x.1 x.2.1 :=
  hrun.steps_and_states_iff Noted Sound Schedulable InReach (fun _ _ _ => noted_step)
    (fun _ _ _ => sound_step_iff) (noted_boot failure backupDir table methods)
    (sound_boot failure backupDir table methods)

/-- A daemon that is asked for snapshots every six hours. -/
def sixHourly : Daemon := boot (fun _ => none) true ∅ [.setBackupIntervalHours 6]

/-- The scheduler starts; the call is made; the scheduler is notified, and reads the configuration;
its timer fires; and the daemon is shut down. -/
def fullDay : List Event :=
  [.poll (.ofSeconds 10) (.ofSeconds 10), .call ⟨0, none⟩, .call ⟨0, none⟩,
    .poll (.ofSeconds 60) (.ofSeconds 60), .poll (.ofSeconds 60) (.ofSeconds 60),
    .poll (.ofSeconds 21660) (.ofSeconds 43260), .stop, .poll (.ofSeconds 40000) (.ofSeconds 40000)]

theorem scheduler_sound_iff_sixHourly :
    (∀ x ∈ steps sixHourly (follow Daemon.step sixHourly fullDay), Schedulable x.1 x.2.1) ∧
      ∀ t ∈ states sixHourly (follow Daemon.step sixHourly fullDay), Sound t :=
  (scheduler_sound_iff (fun _ => none) true ∅ [.setBackupIntervalHours 6]
    (isRun_follow Daemon.step sixHourly fullDay)).mpr (by decide +kernel)

/-- A daemon that is asked for the longest interval. -/
def overlong : Daemon := boot (fun _ => none) true ∅ [.setBackupIntervalHours (.ofNat (2 ^ 64 - 1))]

/-- The scheduler starts; the call is made; the scheduler is notified, and reads the configuration;
and the daemon is shut down. -/
def shortDay : List Event :=
  [.poll (.ofSeconds 10) (.ofSeconds 10), .call ⟨0, none⟩, .call ⟨0, none⟩,
    .poll (.ofSeconds 60) (.ofSeconds 60), .poll (.ofSeconds 60) (.ofSeconds 60), .stop,
    .poll (.ofSeconds 90) (.ofSeconds 90)]

/-- **The scheduler panics**: it takes no snapshot on the shutdown, and it panics again when the
daemon is started with what has been stored. -/
theorem scheduler_panics :
    (final overlong (follow Daemon.step overlong shortDay)).task = .panicked ∧
      (final overlong (follow Daemon.step overlong shortDay)).shutdown = true ∧
      (final overlong (follow Daemon.step overlong shortDay)).snapshots = [] ∧
      (final overlong (follow Daemon.step overlong (shortDay ++
        [.restart (fun _ => none) true [], .poll (.ofSeconds 5) (.ofSeconds 5)]))).task = .panicked ∧
      ¬ ∀ failure backupDir table methods tr, IsRun Step (boot failure backupDir table methods) tr →
        ∀ t ∈ states (boot failure backupDir table methods) tr, Sound t := by
  have h_panicked : (final overlong (follow Daemon.step overlong shortDay)).task = .panicked := by
    decide +kernel
  refine ⟨h_panicked, by decide +kernel, by decide +kernel, by decide +kernel, fun h => ?_⟩
  exact (h _ _ _ _ _ (isRun_follow Daemon.step overlong shortDay) _
    (final_mem_states _ _)).alive h_panicked

end BackupScheduler

end Ludex
