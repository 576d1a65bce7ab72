import Ludex.Lib.Run
import Ludex.Daemon.IdleTracker

/-!
# The Wayland idle source

The worker thread of `idle_wayland.rs` and the task that watches over it. The worker connects to the
compositor, reports how its first connection went, and from then on dispatches the compositor's
events into the idle tracker, connecting again when the connection is lost. The task waits for the
report; when it is bad, or does not come in time, the task falls back to the logind watcher, which
writes to the tracker itself. So exactly one of the two should drive the tracker.

`next` is one step of either side: every roundtrip, dispatched event and message is a step of its
own. The compositor may send events as soon as it has been asked for them, which is before `connect`
has returned. In a run only one source drives the tracker, and every interval the worker opens is
sealed when its connection is gone, if and only if no step is a slip (`one_driver_iff`).
-/

namespace Ludex

namespace IdleWayland

open IdleTracker Run

/-! ### Connections and events -/

/-- An event of the idle notification. -/
inductive NotificationEvent where
  | idled
  | resumed
  /-- An event of a later revision of the protocol. -/
  | unknown
deriving DecidableEq, Repr

/-- The tracker transition an event implies. -/
def eventToIdle : NotificationEvent → Option Bool
  | .idled => some true
  | .resumed => some false
  | .unknown => none

/-- Why a connection attempt failed: whether trying again could change the answer. -/
inductive SetupError where
  | transient
  | definitive
deriving DecidableEq, Repr

/-- What the registry advertises: the version of the notifier, and a seat. -/
structure Globals where
  notifierVersion : Option ℕ
  seat : Bool
deriving DecidableEq, Repr

/-- What is missing for an input-idle notification. -/
def Globals.error (globals : Globals) : Option SetupError :=
  match globals.notifierVersion with
  | none => some .transient
  | some version =>
    if version < 2 then some .definitive
    else if globals.seat then none else some .transient

/-! ### The two sides -/

/-- How far `connect` has come. -/
inductive Attempt where
  | opening
  /-- In the registry roundtrip. -/
  | listing
  /-- In the roundtrip after the notification has been requested. -/
  | arming
deriving DecidableEq, Repr

/-- What the worker thread does. Until the first connection it has a report to send. -/
inductive Worker where
  | connecting (first : Bool) (attempt : Attempt)
  /-- In the backoff after a failed attempt. -/
  | sleeping (first : Bool)
  /-- The first connection is there, and to be reported. -/
  | connected
  /-- There is no first connection, which is to be reported. -/
  | conceding
  | dispatching
  | returned
deriving DecidableEq, Repr

/-- The worker has a connection on which events can arrive. -/
def Worker.live : Worker → Bool
  | connecting _ .arming | connected | dispatching => true
  | _ => false

/-- The worker has reported a connection. -/
def Worker.handedOver : Worker → Bool
  | connecting first _ | sleeping first => !first
  | dispatching => true
  | _ => false

/-- What `run_watcher` does. -/
inductive Watcher where
  /-- Waiting for the report; whether it has looked for one and found none. -/
  | waiting (polled : Bool)
  /-- The worker owns the tracker. -/
  | owned
  | logind
  | returned
deriving DecidableEq, Repr

/-- The channel of the report. -/
inductive Setup where
  | pending
  | sent (ok : Bool)
  /-- The receiver is gone. -/
  | dropped
deriving DecidableEq, Repr

/-- Who calls `set_idle`. -/
inductive Party where
  | worker
  | logind
deriving DecidableEq, Repr

/-- Worker, watcher, channel and tracker. -/
structure IdleSource where
  worker : Worker := .connecting true .opening
  watcher : Watcher := .waiting false
  setup : Setup := .pending
  tracker : State := {}
  /-- Who opened the interval that is open, for the observer. -/
  opener : Option Party := none
  /-- The watcher has fallen back to logind, for the observer. -/
  fellBack : Bool := false
  /-- It has done so although the report of a connection was there, for the observer. -/
  usurped : Bool := false

/-- Record a change of the idle state. -/
def IdleSource.setIdle (s : IdleSource) (party : Party) (idle : Bool) (now : Instant) : IdleSource :=
  { s with
    tracker := IdleTracker.setIdle s.tracker idle now
    opener :=
      match s.tracker.since, idle with
      | none, true => some party
      | some _, false => none
      | _, _ => s.opener }

/-- Apply a notification event to the tracker. -/
def IdleSource.handleNotificationEvent (s : IdleSource) (event : NotificationEvent) (now : Instant) :
    IdleSource :=
  match eventToIdle event with
  | some idle => s.setIdle .worker idle now
  | none => s

/-- A failed connection attempt. A first connection is tried for a while. -/
def Worker.afterFailure (first : Bool) (error : SetupError) (deadlinePassed : Bool) : Worker :=
  match first, error with
  | true, .definitive => .conceding
  | true, .transient => if deadlinePassed then .conceding else .sleeping true
  | false, _ => .sleeping false

/-- Fall back to the logind watcher. The receiver of the report is dropped. -/
def IdleSource.fallBack (s : IdleSource) : IdleSource :=
  { s with
    watcher := .logind
    setup := .dropped
    fellBack := true
    usurped := decide (s.setup = .sent true) }

/-! ### Steps -/

/-- A step of either side. -/
inductive Action where
  /-- The socket is open. -/
  | opened
  /-- The registry roundtrip is done. -/
  | listed (globals : Globals) (deadlinePassed : Bool)
  /-- The roundtrip after the request is done. -/
  | armed
  /-- The socket or a roundtrip has failed. -/
  | failed (deadlinePassed : Bool)
  /-- The backoff is over. -/
  | awoken
  /-- The worker sends its report. -/
  | reported
  /-- The worker dispatches an event. -/
  | notified (event : NotificationEvent) (now : Instant)
  /-- The worker finds the connection gone. -/
  | lost (retryable : Bool) (now : Instant)
  /-- The watcher looks for the report. -/
  | polled
  | watchdog
  | shutdown
  /-- The logind watcher records a hint. -/
  | hinted (idle : Bool) (now : Instant)
deriving DecidableEq

/-- Take a step, if it can be taken. -/
def next (s : IdleSource) : Action → Option IdleSource
  | .opened =>
    match s.worker with
    | .connecting first .opening => some { s with worker := .connecting first .listing }
    | _ => none
  | .listed globals deadlinePassed =>
    match s.worker with
    | .connecting first .listing =>
      match globals.error with
      | none => some { s with worker := .connecting first .arming }
      | some error => some { s with worker := .afterFailure first error deadlinePassed }
    | _ => none
  | .armed =>
    match s.worker with
    | .connecting first .arming => some { s with worker := if first then .connected else .dispatching }
    | _ => none
  | .failed deadlinePassed =>
    match s.worker with
    | .connecting first _ => some { s with worker := .afterFailure first .transient deadlinePassed }
    | _ => none
  | .awoken =>
    match s.worker with
    | .sleeping first => some { s with worker := .connecting first .opening }
    | _ => none
  | .reported =>
    match s.worker with
    | .connected =>
      -- nobody listens any more
      if s.setup = .dropped then some { s with worker := .returned }
      else some { s with worker := .dispatching, setup := .sent true }
    | .conceding =>
      if s.setup = .dropped then some { s with worker := .returned }
      else some { s with worker := .returned, setup := .sent false }
    | _ => none
  | .notified event now =>
    match s.worker with
    | .connecting _ .arming | .dispatching => some (s.handleNotificationEvent event now)
    | _ => none
  | .lost retryable now =>
    match s.worker with
    | .dispatching =>
      some { s.setIdle .worker false now with
        worker := if retryable then .sleeping false else .returned }
    | _ => none
  | .polled =>
    match s.watcher, s.setup with
    | .waiting _, .pending => some { s with watcher := .waiting true }
    | .waiting _, .sent true => some { s with watcher := .owned, setup := .dropped }
    | .waiting _, .sent false => some s.fallBack
    | _, _ => none
  -- the timer is looked at after the channel, so a report may come in between
  | .watchdog =>
    match s.watcher with
    | .waiting true => some s.fallBack
    | _ => none
  | .shutdown =>
    match s.watcher with
    | .waiting _ => some { s with watcher := .returned, setup := .dropped }
    | .owned | .logind => some { s with watcher := .returned }
    | .returned => none
  | .hinted idle now =>
    match s.watcher with
    | .logind => some (s.setIdle .logind idle now)
    | _ => none

/-- A step. -/
def Step (s : IdleSource) (a : Action) (t : IdleSource) : Prop := next s a = some t

/-- The step is a call of `set_idle` by the worker. -/
def Action.workerSets : Action → Bool
  | notified event _ => decide (eventToIdle event ≠ none)
  | lost _ _ => true
  | _ => false

/-- An interval that the worker has opened is open only while the worker has a connection. -/
def Sealed (s : IdleSource) : Prop := s.worker.live = false → s.opener ≠ some .worker

/-- After the fallback the worker does not call `set_idle`. -/
def Exclusive (s : IdleSource) (a : Action) : Prop := s.fellBack = true → a.workerSets = false

/-- The step is not a slip: an event that is dispatched within `connect` after the fallback, an event
or a loss on a connection whose report the fallback ignored, or an attempt that ends with an interval
open that it has opened. -/
def Sound (s : IdleSource) : Action → Prop
  | .notified event _ =>
    eventToIdle event ≠ none →
      (s.worker = .connecting true .arming → s.fellBack = false) ∧
        (s.worker ≠ .connecting true .arming → s.usurped = false)
  | .lost _ _ => s.usurped = false
  | .failed _ => s.opener ≠ some .worker
  | .reported => s.worker = .connected → s.setup = .dropped → s.opener ≠ some .worker
  | _ => True

instance (s : IdleSource) : (a : Action) → Decidable (Sound s a)
  | .notified _ _ => inferInstanceAs (Decidable (_ ≠ _ → (_ = _ → _ = _) ∧ (_ ≠ _ → _ = _)))
  | .lost _ _ => inferInstanceAs (Decidable (_ = _))
  | .failed _ => inferInstanceAs (Decidable (_ ≠ _))
  | .reported => inferInstanceAs (Decidable (_ → _ → _ ≠ _))
  | .opened | .listed _ _ | .armed | .awoken | .polled | .watchdog | .shutdown | .hinted _ _ =>
    instDecidableTrue

/-! ### The hand-over -/

/-- What holds of the hand-over in every state. -/
structure Base (s : IdleSource) : Prop where
  opener : s.opener.isSome = s.tracker.since.isSome
  fellBack : s.fellBack = true → s.setup = .dropped
  pending : s.worker.handedOver = true → s.setup ≠ .pending
  bad : s.setup = .sent false → s.worker = .returned
  waiting : ∀ polled, s.watcher = .waiting polled → s.setup ≠ .dropped
  usurped : s.usurped = true → s.fellBack = true
  handedOver : s.worker.handedOver = true → s.fellBack = true → s.usurped = true

theorem Base.initial : Base {} where
  opener := rfl
  fellBack := nofun
  pending := nofun
  bad := nofun
  waiting := nofun
  usurped := nofun
  handedOver := nofun

theorem setIdle_opener {s : IdleSource} (h : s.opener.isSome = s.tracker.since.isSome)
    (party : Party) (idle : Bool) (now : Instant) :
    (s.setIdle party idle now).opener.isSome = (s.setIdle party idle now).tracker.since.isSome := by
  unfold IdleSource.setIdle IdleTracker.setIdle
  -- the tracker opens and closes an interval together with its opener
  cases h_since : s.tracker.since with
  | none =>
    rw [h_since] at h
    cases idle with
    | true => rfl
    | false =>
      rw [h_since]
      exact h
  | some since =>
    rw [h_since] at h
    cases idle with
    | true =>
      rw [h_since]
      exact h
    | false => rfl

/-- Sealing leaves nothing open. -/
theorem setIdle_false_opener {s : IdleSource} (h : s.opener.isSome = s.tracker.since.isSome)
    (party : Party) (now : Instant) : (s.setIdle party false now).opener = none := by
  have h_after := setIdle_opener h party false now
  have h_since : (s.setIdle party false now).tracker.since = none := by
    unfold IdleSource.setIdle IdleTracker.setIdle
    cases h_since : s.tracker.since with
    | none => exact h_since
    | some since => rfl
  rw [h_since] at h_after
  cases h_opener : (s.setIdle party false now).opener with
  | none => rfl
  | some by_ =>
    rw [h_opener] at h_after
    exact nomatch h_after

/-- Recording a change leaves both sides where they are. -/
theorem handleNotificationEvent_sides (s : IdleSource) (event : NotificationEvent) (now : Instant) :
    (s.handleNotificationEvent event now).worker = s.worker ∧
      (s.handleNotificationEvent event now).watcher = s.watcher ∧
      (s.handleNotificationEvent event now).setup = s.setup ∧
      (s.handleNotificationEvent event now).fellBack = s.fellBack ∧
      (s.handleNotificationEvent event now).usurped = s.usurped := by
  unfold IdleSource.handleNotificationEvent
  cases eventToIdle event with
  | none => exact ⟨rfl, rfl, rfl, rfl, rfl⟩
  | some idle => exact ⟨rfl, rfl, rfl, rfl, rfl⟩

theorem handleNotificationEvent_opener {s : IdleSource}
    (h : s.opener.isSome = s.tracker.since.isSome) (event : NotificationEvent) (now : Instant) :
    (s.handleNotificationEvent event now).opener.isSome =
      (s.handleNotificationEvent event now).tracker.since.isSome := by
  unfold IdleSource.handleNotificationEvent
  cases eventToIdle event with
  | none => exact h
  | some idle => exact setIdle_opener h .worker idle now

theorem afterFailure_handedOver (first : Bool) (error : SetupError) (deadlinePassed : Bool) :
    (Worker.afterFailure first error deadlinePassed).handedOver = !first := by
  cases first with
  | false => rfl
  | true =>
    cases error with
    | definitive => rfl
    | transient => cases deadlinePassed <;> rfl

theorem afterFailure_live (first : Bool) (error : SetupError) (deadlinePassed : Bool) :
    (Worker.afterFailure first error deadlinePassed).live = false := by
  cases first with
  | false => rfl
  | true =>
    cases error with
    | definitive => rfl
    | transient => cases deadlinePassed <;> rfl

theorem setIdle_logind_opener {s : IdleSource} {idle : Bool} {now : Instant}
    (h : (s.setIdle .logind idle now).opener = some .worker) : s.opener = some .worker := by
  unfold IdleSource.setIdle at h
  cases h_since : s.tracker.since with
  | none =>
    rw [h_since] at h
    cases idle with
    | true => exact nomatch h
    | false => exact h
  | some since =>
    rw [h_since] at h
    cases idle with
    | true => exact h
    | false => exact nomatch h

/-! ### What a step can do -/

/-- What a step does. -/
inductive Moves (s : IdleSource) : Action → IdleSource → Prop
  /-- The worker goes on with an attempt, or gives it up for what the registry says. -/
  | goesOn {a : Action} {worker : Worker} : a.workerSets = false → (∀ d, a ≠ .failed d) →
      a ≠ .reported → s.worker ≠ .returned → worker.handedOver = s.worker.handedOver →
      (worker.live = false → s.worker.live = false) → Moves s a { s with worker := worker }
  | fails {deadlinePassed : Bool} {worker : Worker} : s.worker ≠ .returned →
      worker.handedOver = s.worker.handedOver → worker.live = false →
      Moves s (.failed deadlinePassed) { s with worker := worker }
  | unheard : s.worker = .connected ∨ s.worker = .conceding → s.setup = .dropped →
      Moves s .reported { s with worker := .returned }
  | handsOver : s.worker = .connected → s.setup ≠ .dropped →
      Moves s .reported { s with worker := .dispatching, setup := .sent true }
  | concedes : s.worker = .conceding → s.setup ≠ .dropped →
      Moves s .reported { s with worker := .returned, setup := .sent false }
  | notified {event : NotificationEvent} {now : Instant} :
      s.worker = .connecting true .arming ∨ s.worker.handedOver = true → s.worker.live = true →
      Moves s (.notified event now) (s.handleNotificationEvent event now)
  | lost {retryable : Bool} {now : Instant} {worker : Worker} : s.worker = .dispatching →
      worker.live = false → worker ≠ .connected →
      Moves s (.lost retryable now) { s.setIdle .worker false now with worker := worker }
  | looks : s.setup = .pending → Moves s .polled { s with watcher := .waiting true }
  | takes : s.setup = .sent true → Moves s .polled { s with watcher := .owned, setup := .dropped }
  | fallsBack {a : Action} {polled : Bool} : a = .polled ∨ a = .watchdog →
      s.watcher = .waiting polled → Moves s a s.fallBack
  | ends {setup : Setup} : setup = s.setup ∨ setup = .dropped →
      Moves s .shutdown { s with watcher := .returned, setup := setup }
  | hinted {idle : Bool} {now : Instant} : Moves s (.hinted idle now) (s.setIdle .logind idle now)

theorem Step.moves {s t : IdleSource} {a : Action} (h : Step s a t) : Moves s a t := by
  cases a with
  | opened =>
    simp only [Step, next] at h
    split at h
    · rename_i first h_worker
      cases h
      exact .goesOn rfl nofun nofun (by rw [h_worker]; exact nofun) (by rw [h_worker]; rfl)
        fun _ => by rw [h_worker]; rfl
    · exact nomatch h
  | listed globals deadlinePassed =>
    simp only [Step, next] at h
    split at h
    · rename_i first h_worker
      have h_live : s.worker.live = false := by rw [h_worker]; rfl
      have h_not : s.worker ≠ .returned := by rw [h_worker]; exact nofun
      -- the registry has what is needed, or says why the attempt is over
      split at h
      · cases h
        exact .goesOn rfl nofun nofun h_not (by rw [h_worker]; rfl) fun _ => h_live
      · rename_i error _
        cases h
        refine .goesOn rfl nofun nofun h_not ?_ fun _ => h_live
        rw [afterFailure_handedOver, h_worker]
        rfl
    · exact nomatch h
  | armed =>
    simp only [Step, next] at h
    split at h
    · rename_i first h_worker
      cases h
      refine .goesOn rfl nofun nofun (by rw [h_worker]; exact nofun) ?_ ?_
      · rw [h_worker]
        cases first <;> rfl
      · -- a connection there is
        intro h_live
        cases first <;> exact nomatch h_live
    · exact nomatch h
  | failed deadlinePassed =>
    simp only [Step, next] at h
    split at h
    · rename_i first attempt h_worker
      cases h
      refine .fails (by rw [h_worker]; exact nofun) ?_ (afterFailure_live ..)
      rw [afterFailure_handedOver, h_worker]
      rfl
    · exact nomatch h
  | awoken =>
    simp only [Step, next] at h
    split at h
    · rename_i first h_worker
      cases h
      exact .goesOn rfl nofun nofun (by rw [h_worker]; exact nofun) (by rw [h_worker]; rfl)
        fun _ => by rw [h_worker]; rfl
    · exact nomatch h
  | reported =>
    -- a good or a bad report, each of which is heard or not
    simp only [Step, next] at h
    split at h
    · rename_i h_worker
      split at h
      · rename_i h_dropped
        cases h
        exact .unheard (.inl h_worker) h_dropped
      · rename_i h_open
        cases h
        exact .handsOver h_worker h_open
    · rename_i h_worker
      split at h
      · rename_i h_dropped
        cases h
        exact .unheard (.inr h_worker) h_dropped
      · rename_i h_open
        cases h
        exact .concedes h_worker h_open
    · exact nomatch h
  | notified event now =>
    -- within `connect`, or after it
    simp only [Step, next] at h
    split at h
    · rename_i first h_worker
      cases h
      refine .notified ?_ (by rw [h_worker]; rfl)
      cases first with
      | true => exact .inl h_worker
      | false => exact .inr (by rw [h_worker]; rfl)
    · rename_i h_worker
      cases h
      exact .notified (.inr (by rw [h_worker]; rfl)) (by rw [h_worker]; rfl)
    · exact nomatch h
  | lost retryable now =>
    simp only [Step, next] at h
    split at h
    · rename_i h_worker
      cases h
      refine .lost h_worker ?_ ?_
      · cases retryable <;> rfl
      · cases retryable <;> exact nofun
    · exact nomatch h
  | polled =>
    -- no report yet, a good one, a bad one
    simp only [Step, next] at h
    split at h
    · rename_i h_setup
      cases h
      exact .looks h_setup
    · rename_i h_setup
      cases h
      exact .takes h_setup
    · rename_i polled h_watcher _
      cases h
      exact .fallsBack (.inl rfl) h_watcher
    · exact nomatch h
  | watchdog =>
    simp only [Step, next] at h
    split at h
    · rename_i h_watcher
      cases h
      exact .fallsBack (.inr rfl) h_watcher
    · exact nomatch h
  | shutdown =>
    simp only [Step, next] at h
    split at h
    · cases h
      exact .ends (.inr rfl)
    · cases h
      exact .ends (.inl rfl)
    · cases h
      exact .ends (.inl rfl)
    · exact nomatch h
  | hinted idle now =>
    simp only [Step, next] at h
    split at h
    · cases h
      exact .hinted
    · exact nomatch h

theorem Base.step {s t : IdleSource} {a : Action} (h : Step s a t) (hb : Base s) : Base t := by
  obtain ⟨h_opener, h_fellBack, h_pending, h_bad, h_waiting, h_usurped, h_handedOver⟩ := hb
  cases h.moves with
  | goesOn _ _ _ h_not h_same _ =>
    -- whether it has handed over does not change
    refine ⟨h_opener, h_fellBack, ?_, ?_, h_waiting, h_usurped, ?_⟩
    · exact fun h_over => h_pending (h_same ▸ h_over)
    · exact fun h_sent => absurd (h_bad h_sent) h_not
    · exact fun h_over => h_handedOver (h_same ▸ h_over)
  | fails h_not h_same _ =>
    refine ⟨h_opener, h_fellBack, ?_, ?_, h_waiting, h_usurped, ?_⟩
    · exact fun h_over => h_pending (h_same ▸ h_over)
    · exact fun h_sent => absurd (h_bad h_sent) h_not
    · exact fun h_over => h_handedOver (h_same ▸ h_over)
  | unheard _ h_dropped =>
    -- the worker returns, so nothing is promised of it
    exact ⟨h_opener, h_fellBack, nofun, fun _ => rfl, h_waiting, h_usurped, nofun⟩
  | handsOver _ h_open =>
    -- the fallback drops the receiver, so it has not come yet
    refine ⟨h_opener, ?_, nofun, nofun, nofun, h_usurped, ?_⟩
    · exact fun h_fell => absurd (h_fellBack h_fell) h_open
    · exact fun _ h_fell => absurd (h_fellBack h_fell) h_open
  | concedes _ h_open =>
    refine ⟨h_opener, ?_, nofun, fun _ => rfl, nofun, h_usurped, nofun⟩
    exact fun h_fell => absurd (h_fellBack h_fell) h_open
  | @notified event now _ _ =>
    obtain ⟨h_worker, h_watcher, h_setup, h_fell, h_usurp⟩ :=
      handleNotificationEvent_sides s event now
    -- only the tracker and its opener change
    refine ⟨handleNotificationEvent_opener h_opener event now, ?_, ?_, ?_, ?_, ?_, ?_⟩
    · rw [h_fell, h_setup]
      exact h_fellBack
    · rw [h_worker, h_setup]
      exact h_pending
    · rw [h_worker, h_setup]
      exact h_bad
    · rw [h_watcher, h_setup]
      exact h_waiting
    · rw [h_usurp, h_fell]
      exact h_usurped
    · rw [h_worker, h_usurp, h_fell]
      exact h_handedOver
  | @lost _ now _ h_worker _ _ =>
    have h_over : s.worker.handedOver = true := by rw [h_worker]; rfl
    refine ⟨setIdle_opener h_opener .worker false now, h_fellBack, ?_, ?_, h_waiting, h_usurped, ?_⟩
    · exact fun _ => h_pending h_over
    · intro h_sent
      rw [h_bad h_sent] at h_worker
      exact nomatch h_worker
    · exact fun _ => h_handedOver h_over
  | looks h_setup =>
    -- the watcher goes on waiting, on a channel that is there
    refine ⟨h_opener, h_fellBack, h_pending, h_bad, ?_, h_usurped, h_handedOver⟩
    intro _ _ h_dropped
    rw [show s.setup = .dropped from h_dropped] at h_setup
    exact nomatch h_setup
  | takes _ =>
    exact ⟨h_opener, fun _ => rfl, nofun, nofun, nofun, h_usurped, h_handedOver⟩
  | fallsBack _ h_watcher =>
    refine ⟨h_opener, fun _ => rfl, nofun, nofun, nofun, fun _ => rfl, ?_⟩
    -- a worker that has handed over has sent the good report
    intro h_over _
    show decide (s.setup = .sent true) = true
    cases h_setup : s.setup with
    | pending => exact absurd h_setup (h_pending h_over)
    | dropped => exact absurd h_setup (h_waiting _ h_watcher)
    | sent ok =>
      cases ok with
      | true => rfl
      | false =>
        have h_over : s.worker.handedOver = true := h_over
        rw [h_bad h_setup] at h_over
        exact nomatch h_over
  | ends h_setup =>
    rcases h_setup with rfl | rfl
    · exact ⟨h_opener, h_fellBack, h_pending, h_bad, nofun, h_usurped, h_handedOver⟩
    · exact ⟨h_opener, fun _ => rfl, nofun, nofun, nofun, h_usurped, h_handedOver⟩
  | @hinted idle now =>
    exact ⟨setIdle_opener h_opener .logind idle now, h_fellBack, h_pending, h_bad, h_waiting,
      h_usurped, h_handedOver⟩

/-! ### One driver -/

theorem sealed_initial : Sealed {} := fun _ => nofun

/-- Where the worker has reported its connection, the fallback has ignored the report. -/
theorem Base.fellBack_eq {s : IdleSource} (hb : Base s) (h : s.worker.handedOver = true) :
    s.fellBack = s.usurped := by
  refine Bool.eq_iff_iff.mpr ⟨hb.handedOver h, hb.usurped⟩

/-- Where events can arrive, the worker is either in its first attempt or has reported. -/
theorem Base.unusurped_iff {s : IdleSource} (hb : Base s)
    (h : s.worker = .connecting true .arming ∨ s.worker.handedOver = true) :
    ((s.worker = .connecting true .arming → s.fellBack = false) ∧
        (s.worker ≠ .connecting true .arming → s.usurped = false)) ↔ s.fellBack = false := by
  -- before the hand-over the worker decides, afterwards what has been set counts
  rcases h with h_first | h_over
  · refine ⟨fun h_both => h_both.1 h_first, ?_⟩
    exact fun h_not => ⟨fun _ => h_not, fun h_later => absurd h_first h_later⟩
  · have h_later : s.worker ≠ .connecting true .arming := by
      intro h_first
      rw [h_first] at h_over
      exact nomatch h_over
    rw [hb.fellBack_eq h_over]
    exact ⟨fun h_both => h_both.2 h_later, fun h_not => ⟨fun _ => h_not, fun _ => h_not⟩⟩

/-- What a step must meet for the two rules to hold of it. -/
theorem step_iff {s t : IdleSource} {a : Action} (h : Step s a t) (hb : Base s) (hs : Sealed s) :
    Exclusive s a ∧ Sealed t ↔ Sound s a := by
  cases h.moves with
  | goesOn h_sets h_failed h_reported _ _ h_live =>
    refine iff_of_true ⟨fun _ => h_sets, fun h_gone => hs (h_live h_gone)⟩ ?_
    cases a with
    | failed d => exact absurd rfl (h_failed d)
    | reported => exact absurd rfl h_reported
    | lost retryable now => exact nomatch h_sets
    | notified event now =>
      intro h_event
      exact absurd h_event (of_decide_eq_false h_sets)
    | opened | listed | armed | awoken | polled | watchdog | shutdown | hinted => trivial
  | fails _ _ h_gone =>
    refine ⟨fun h_both => h_both.2 h_gone, fun h_sound => ⟨fun _ => rfl, fun _ => h_sound⟩⟩
  | unheard h_worker h_dropped =>
    refine ⟨fun h_both _ _ => h_both.2 rfl, fun h_sound => ⟨fun _ => rfl, fun _ => ?_⟩⟩
    rcases h_worker with h_connected | h_conceding
    · exact h_sound h_connected h_dropped
    · -- there has been no connection
      exact hs (by rw [h_conceding]; rfl)
  | handsOver _ h_open =>
    exact iff_of_true ⟨fun _ => rfl, nofun⟩ fun _ h_dropped => absurd h_dropped h_open
  | concedes h_worker h_open =>
    refine iff_of_true ⟨fun _ => rfl, fun _ => ?_⟩ fun _ h_dropped => absurd h_dropped h_open
    exact hs (by rw [h_worker]; rfl)
  | @notified event now h_worker h_live =>
    have h_sealed : Sealed (s.handleNotificationEvent event now) := by
      intro h_gone
      rw [(handleNotificationEvent_sides s event now).1, h_live] at h_gone
      exact nomatch h_gone
    calc
      Exclusive s (.notified event now) ∧ Sealed (s.handleNotificationEvent event now)
        ↔ Exclusive s (.notified event now) := and_iff_left h_sealed
      _ ↔ (eventToIdle event ≠ none → s.fellBack = false) := by
          show (s.fellBack = true → decide (eventToIdle event ≠ none) = false) ↔ _
          rw [decide_eq_false_iff_not, imp_not_comm, Bool.not_eq_true]
      _ ↔ Sound s (.notified event now) := imp_congr_right fun _ => (hb.unusurped_iff h_worker).symm
  | @lost retryable now worker h_worker _ _ =>
    have h_over : s.worker.handedOver = true := by rw [h_worker]; rfl
    have h_sealed : Sealed { s.setIdle .worker false now with worker := worker } := by
      intro _
      show (s.setIdle .worker false now).opener ≠ some .worker
      rw [setIdle_false_opener hb.opener .worker now]
      exact nofun
    refine (and_iff_left h_sealed).trans ?_
    show (s.fellBack = true → true = false) ↔ s.usurped = false
    rw [← hb.fellBack_eq h_over, ← Bool.not_eq_true s.fellBack]
    exact ⟨fun h_not h_fell => absurd (h_not h_fell) nofun, fun h_not h_fell => absurd h_fell h_not⟩
  | looks _ => exact iff_of_true ⟨fun _ => rfl, hs⟩ trivial
  | takes _ => exact iff_of_true ⟨fun _ => rfl, hs⟩ trivial
  | fallsBack h_a _ =>
    rcases h_a with rfl | rfl <;> exact iff_of_true ⟨fun _ => rfl, hs⟩ trivial
  | ends _ => exact iff_of_true ⟨fun _ => rfl, hs⟩ trivial
  | @hinted idle now =>
    refine iff_of_true ⟨fun _ => rfl, ?_⟩ trivial
    intro h_gone h_worker
    exact hs h_gone (setIdle_logind_opener h_worker)

/-- **One source drives the tracker.** In a run of the daemon, whatever the compositor, the clocks
and the shutdown do: after the fallback the worker calls `set_idle` no more, and no interval that it
has opened is open while it has no connection, if and only if none of its steps is a slip. -/
theorem one_driver_iff {tr : List (Action × IdleSource)} (hrun : IsRun Step {} tr) :
    ((∀ x ∈ steps {} tr, Exclusive x.1 x.2.1) ∧ ∀ s ∈ states {} tr, Sealed s) ↔
      ∀ x ∈ steps {} tr, Sound x.1 x.2.1 :=
  hrun.steps_and_states_iff Base Sealed Exclusive Sound (fun _ _ _ h hb => hb.step h)
    (fun _ _ _ h hb hs => step_iff h hb hs) .initial sealed_initial

/-- A user who goes idle once, on a connection that is then lost and made again. -/
def reconnection : List (Action × IdleSource) :=
  trace next {}
    [.opened, .listed ⟨some 2, true⟩ false, .armed, .polled, .reported, .polled,
      .notified .idled (.ofSeconds 10), .lost true (.ofSeconds 20), .awoken, .opened,
      .listed ⟨some 2, true⟩ false, .armed, .notified .resumed (.ofSeconds 30), .shutdown]

/-- The rule on it, where every step is taken and none is a slip. -/
theorem one_driver_iff_reconnection :
    reconnection.length = 14 ∧
      (((∀ x ∈ steps {} reconnection, Exclusive x.1 x.2.1) ∧
          ∀ s ∈ states {} reconnection, Sealed s) ↔
        ∀ x ∈ steps {} reconnection, Sound x.1 x.2.1) ∧
      ∀ x ∈ steps {} reconnection, Sound x.1 x.2.1 :=
  ⟨by decide +kernel, one_driver_iff (isRun_trace next {} _), by decide +kernel⟩

/-- A compositor that answers the request for events, and says that the user is idle, only after the
watchdog has fired: the worker, still within `connect`, opens an interval besides logind. -/
def lateAnswer : List (Action × IdleSource) :=
  trace next {}
    [.opened, .listed ⟨some 2, true⟩ false, .polled, .watchdog, .notified .idled (.ofSeconds 10)]

/-- A compositor that says that the user is idle and dies before it has answered the request: the
attempt has failed and the interval is left open. -/
def lostAnswer : List (Action × IdleSource) :=
  trace next {}
    [.opened, .listed ⟨some 2, true⟩ false, .notified .idled (.ofSeconds 10), .failed false]

/-- Neither rule holds of every run. -/
theorem not_one_driver :
    ¬ (∀ tr, IsRun Step {} tr → ∀ x ∈ steps {} tr, Exclusive x.1 x.2.1) ∧
      ¬ ∀ tr, IsRun Step {} tr → ∀ s ∈ states {} tr, Sealed s := by
  refine ⟨?_, ?_⟩
  · intro h_all
    -- the answer of the compositor comes after the fallback and is dispatched
    have h_last := h_all lateAnswer (isRun_trace next {} _)
    revert h_last
    unfold Exclusive
    decide +kernel
  · intro h_all
    -- the connection is lost, and nobody is left to close the interval
    have h_last := h_all lostAnswer (isRun_trace next {} _)
    revert h_last
    unfold Sealed
    decide +kernel

end IdleWayland

end Ludex
