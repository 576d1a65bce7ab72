import Ludex.Daemon.Sources

/-!
# The daemon's tasks

The tasks that `daemon.rs` spawns, and the channel between the sources and the session manager: two
sources, each of which sends what it has found and then waits for more; the manager, which takes the
events out one by one; three helpers, which are the idle watcher, the backup scheduler and the
notifier of the D-Bus signals; and the main task. That one waits for a termination signal, sends the
shutdown on to everybody, joins the sources, the helpers and the manager in this order, closes the
database and returns. The channel holds up to `eventChannelCapacity` events, and a source waits while
it is full. When the manager ends, its receiver is dropped, and what is sent after that is lost.

`Pipeline.next` is a step of one task. What a source finds is arbitrary, and what it has found so far
is recorded in `offered`; what the manager has taken out of the channel is recorded in `handled`. Of a
helper there is only how far it is (`Helper`): what it does in a turn touches neither the channel nor
the map, and is left to the modules about it.

`events_delivered`: as long as the manager runs, nothing a source has found is lost, doubled or
reordered. It has been handled, is in the channel, or is still to be sent, in this order.
-/

namespace Ludex

open Transact SessionManager Run

/-- The sources of events. -/
inductive SourceId where
  | steam
  | kwin
deriving DecidableEq, Repr

/-- How far a source is. -/
inductive Source where
  /-- It waits for something to happen. -/
  | ready
  /-- It has events to send, after which it waits again, or ends. -/
  | sending (events : List GameEvent) (last : Bool)
  | ended
deriving DecidableEq

/-- What a source has yet to send. -/
def Source.pending : Source → List GameEvent
  | ready => []
  | sending events _ => events
  | ended => []

/-- The tasks that are neither sources nor the manager. -/
inductive HelperId where
  | idle
  | backup
  | notifier
deriving DecidableEq, Repr

/-- How far such a task is. -/
inductive Helper where
  /-- It is at its `select!`, in which the shutdown comes first. -/
  | waiting
  /-- It is busy with what it has taken up, after which it waits again, or ends. -/
  | working (last : Bool)
  | ended
deriving DecidableEq, Repr

/-- A task the main task joins. -/
inductive Task where
  | source (i : SourceId)
  | helper (j : HelperId)
  | manager
deriving DecidableEq, Repr

/-- How far the main task is. -/
inductive Main where
  | running
  | joining (tasks : List Task)
  | returned
deriving DecidableEq, Repr

def eventChannelCapacity : ℕ := 128

/-- The tasks in the order in which the main task joins them. -/
def joined : List Task :=
  [.source .steam, .source .kwin, .helper .idle, .helper .backup, .helper .notifier, .manager]

/-- The tasks and their channel. -/
structure Pipeline where
  source : SourceId → Source := fun _ => .ready
  buffer : List (SourceId × GameEvent) := []
  helper : HelperId → Helper := fun _ => .waiting
  /-- There is a directory for backups. -/
  backupDir : Bool := true
  live : Live
  /-- The manager runs. -/
  managing : Bool := true
  shutdown : Bool := false
  main : Main := .running
  offered : SourceId → List GameEvent := fun _ => []
  handled : List (SourceId × GameEvent) := []

namespace Pipeline

/-- The events of one source. -/
def ofSource (i : SourceId) (events : List (SourceId × GameEvent)) : List GameEvent :=
  (events.filter fun x => x.1 = i).map Prod.snd

/-- All sources have ended, so that all senders of the channel are gone. -/
def allEnded (s : Pipeline) : Bool := s.source .steam = .ended && s.source .kwin = .ended

/-- A task has ended. -/
def hasEnded (s : Pipeline) : Task → Bool
  | .source i => s.source i = .ended
  | .helper j => s.helper j = .ended
  | .manager => !s.managing

/-- A source goes on. -/
def goOn (s : Pipeline) (i : SourceId) (source : Source) : Pipeline :=
  { s with source := Function.update s.source i source }

/-- A helper goes on. -/
def assign (s : Pipeline) (j : HelperId) (helper : Helper) : Pipeline :=
  { s with helper := Function.update s.helper j helper }

/-- What a helper still does when it has noticed the shutdown: the backup scheduler takes a final
snapshot, if it has a directory. -/
def farewell (s : Pipeline) : HelperId → Helper
  | .backup => if s.backupDir then .working true else .ended
  | .idle | .notifier => .ended

/-- A source has found something. -/
def find (s : Pipeline) (i : SourceId) (events : List GameEvent) (last : Bool) : Pipeline :=
  { s.goOn i (.sending events last) with
    offered := Function.update s.offered i (s.offered i ++ events) }

/-- What a source may still send when it has noticed the shutdown: the foreground source stops the
game it tracks. -/
def lastEvents (i : SourceId) (events : List GameEvent) : Bool :=
  match i with
  | .steam => events.isEmpty
  | .kwin => events.length ≤ 1

/-- What a source still sends after a send has failed: the Steam source gives up the pass, and the
foreground source does not look. -/
def afterFailure (i : SourceId) (rest : List GameEvent) : List GameEvent :=
  match i with
  | .steam => []
  | .kwin => rest

/-- What can happen. -/
inductive Label where
  /-- A source wakes up and finds something. -/
  | wake (i : SourceId) (events : List GameEvent)
  | send (i : SourceId)
  /-- A send to a receiver that is gone. -/
  | reject (i : SourceId)
  /-- A source has sent everything. -/
  | back (i : SourceId)
  | notice (i : SourceId) (events : List GameEvent)
  /-- A source exits with an error. -/
  | fail (i : SourceId)
  /-- A helper takes up what it has waited for. -/
  | turn (j : HelperId)
  /-- It is done with that. -/
  | done (j : HelperId)
  /-- It notices the shutdown. -/
  | leave (j : HelperId)
  /-- A helper ends for another reason: an error, a panic, or a stream that has closed. -/
  | exit (j : HelperId)
  | receive (blocklist : List GameKey) (sample : Sample) (fates : List Fate)
  | tick (at_ : OffsetDateTime) (now : Instant) (idleGrace : ℕ)
      (order : List (GameKey × IdleReading)) (fates : List Fate)
  /-- The manager ends, because of the shutdown or because all senders are gone. -/
  | quit (now : OffsetDateTime) (order : List (GameKey × Sample)) (fates : List Fate)
  | signal
  | join
  | rest

/-- One step of one task. The daemon does not die in it. -/
def next (s : Pipeline) : Label → Option Pipeline
  | .wake i events =>
    match s.source i with
    -- the foreground source looks at the shutdown first
    | .ready => if s.shutdown && i = .kwin then none else some (s.find i events false)
    | _ => none
  | .send i =>
    match s.source i with
    | .sending (event :: events) last =>
      if s.managing && s.buffer.length < eventChannelCapacity then
        some { s.goOn i (.sending events last) with buffer := s.buffer ++ [(i, event)] }
      else none
    | _ => none
  | .reject i =>
    match s.source i with
    | .sending (_ :: events) last =>
      if s.managing then none else some (s.goOn i (.sending (afterFailure i events) last))
    | _ => none
  | .back i =>
    match s.source i with
    | .sending [] last => some (s.goOn i (if last then .ended else .ready))
    | _ => none
  | .notice i events =>
    match s.source i with
    | .ready => if s.shutdown && lastEvents i events then some (s.find i events true) else none
    | _ => none
  | .fail i =>
    match s.source i with
    | .ready => some (s.goOn i .ended)
    | _ => none
  | .turn j =>
    match s.helper j with
    -- without a directory the backup scheduler waits for the shutdown only
    | .waiting =>
      if s.shutdown || j = .backup && !s.backupDir then none else some (s.assign j (.working false))
    | _ => none
  | .done j =>
    match s.helper j with
    | .working last => some (s.assign j (if last then .ended else .waiting))
    | _ => none
  | .leave j =>
    match s.helper j with
    | .waiting => if s.shutdown then some (s.assign j (s.farewell j)) else none
    | _ => none
  | .exit j =>
    match s.helper j with
    | .ended => none
    | _ => some (s.assign j .ended)
  | .receive blocklist sample fates =>
    match s.buffer with
    | x :: buffer =>
      if s.managing then
        (s.live.next (.event x.2 blocklist sample, fates)).map fun live =>
          { s with live := live, buffer := buffer, handled := s.handled ++ [x] }
      else none
    | [] => none
  | .tick at_ now idleGrace order fates =>
    if s.managing then
      (s.live.next (.heartbeat at_ now idleGrace order, fates)).map fun live => { s with live := live }
    else none
  | .quit now order fates =>
    if s.managing && (s.shutdown || s.buffer.isEmpty && s.allEnded) &&
        (order.map Prod.fst).Perm s.live.1.open_.keys then
      match closeAllOpen .terminated now order s.live.1 s.live.2 fates with
      | .returned _ m d _ => some { s with live := (m, d), managing := false, buffer := [] }
      | .threw _ _ _ _ => none
      | .died _ => none
    else none
  | .signal =>
    match s.main with
    | .running => some { s with shutdown := true, main := .joining joined }
    | _ => none
  | .join =>
    match s.main with
    | .joining (task :: tasks) =>
      if s.hasEnded task then some { s with main := .joining tasks } else none
    -- the database is closed, and `run` returns
    | .joining [] => some { s with main := .returned }
    | _ => none
  | .rest => some s

/-- A step of the tasks. -/
def Step (s : Pipeline) (l : Label) (t : Pipeline) : Prop := s.next l = some t

/-! ### What a step does -/

/-- The steps, one by one. -/
inductive Effect (s : Pipeline) : Label → Pipeline → Prop
  | wake {i : SourceId} {events : List GameEvent} : s.source i = .ready →
      (s.shutdown = true → i ≠ .kwin) → Effect s (.wake i events) (s.find i events false)
  | send {i : SourceId} {event : GameEvent} {events : List GameEvent} {last : Bool} :
      s.source i = .sending (event :: events) last → s.managing = true →
      s.buffer.length < eventChannelCapacity →
      Effect s (.send i)
        { s.goOn i (.sending events last) with buffer := s.buffer ++ [(i, event)] }
  | reject {i : SourceId} {event : GameEvent} {events : List GameEvent} {last : Bool} :
      s.source i = .sending (event :: events) last → s.managing = false →
      Effect s (.reject i) (s.goOn i (.sending (afterFailure i events) last))
  | back {i : SourceId} {last : Bool} : s.source i = .sending [] last →
      Effect s (.back i) (s.goOn i (if last then .ended else .ready))
  | notice {i : SourceId} {events : List GameEvent} : s.source i = .ready → s.shutdown = true →
      lastEvents i events = true → Effect s (.notice i events) (s.find i events true)
  | fail {i : SourceId} : s.source i = .ready → Effect s (.fail i) (s.goOn i .ended)
  | turn {j : HelperId} : s.helper j = .waiting → s.shutdown = false →
      Effect s (.turn j) (s.assign j (.working false))
  | done {j : HelperId} {last : Bool} : s.helper j = .working last →
      Effect s (.done j) (s.assign j (if last then .ended else .waiting))
  | leave {j : HelperId} : s.helper j = .waiting → s.shutdown = true →
      Effect s (.leave j) (s.assign j (s.farewell j))
  | exit {j : HelperId} : s.helper j ≠ .ended → Effect s (.exit j) (s.assign j .ended)
  | receive {blocklist : List GameKey} {sample : Sample} {fates : List Fate}
      {x : SourceId × GameEvent} {buffer : List (SourceId × GameEvent)} {live : Live} :
      s.buffer = x :: buffer → s.managing = true →
      Live.Step s.live (.event x.2 blocklist sample, fates) live →
      Effect s (.receive blocklist sample fates)
        { s with live := live, buffer := buffer, handled := s.handled ++ [x] }
  | tick {at_ : OffsetDateTime} {now : Instant} {idleGrace : ℕ}
      {order : List (GameKey × IdleReading)} {fates : List Fate} {live : Live} :
      s.managing = true → Live.Step s.live (.heartbeat at_ now idleGrace order, fates) live →
      Effect s (.tick at_ now idleGrace order fates) { s with live := live }
  | quit {now : OffsetDateTime} {order : List (GameKey × Sample)} {fates rest : List Fate}
      {m : SessionManager} {d : Database} : s.managing = true →
      (s.shutdown = true ∨ s.buffer = [] ∧ s.allEnded = true) →
      (order.map Prod.fst).Perm s.live.1.open_.keys →
      closeAllOpen .terminated now order s.live.1 s.live.2 fates = .returned () m d rest →
      Effect s (.quit now order fates) { s with live := (m, d), managing := false, buffer := [] }
  | signal : s.main = .running →
      Effect s .signal { s with shutdown := true, main := .joining joined }
  | joined {task : Task} {tasks : List Task} : s.main = .joining (task :: tasks) →
      s.hasEnded task = true → Effect s .join { s with main := .joining tasks }
  | returned : s.main = .joining [] → Effect s .join { s with main := .returned }
  | rest : Effect s .rest s

/-- **Every step is one of these.** -/
theorem Step.effect {s t : Pipeline} {l : Label} (h : s.Step l t) : s.Effect l t := by
  -- one case for each label; the guards that `next` reads become the premises of the effect
  unfold Step at h
  cases l with
  | wake i events =>
    -- a helper wakes to find events, and KWin does so only before the shutdown (biased select)
    simp only [next] at h
    split at h
    next h_ready =>
      split at h
      · exact nomatch h
      next h_first =>
        obtain rfl := Option.some.inj h
        refine .wake h_ready fun h_shutdown h_kwin => h_first ?_
        rw [h_shutdown, h_kwin]
        rfl
    · exact nomatch h
  | send i =>
    simp only [next] at h
    split at h
    next event events last h_sending =>
      -- a send goes through when the channel has room and the manager still holds the receiver
      split at h
      next h_room =>
        rw [Bool.and_eq_true, decide_eq_true_eq] at h_room
        obtain rfl := Option.some.inj h
        exact .send h_sending h_room.1 h_room.2
      · exact nomatch h
    · exact nomatch h
  | reject i =>
    simp only [next] at h
    split at h
    next event events last h_sending =>
      split at h
      · exact nomatch h
      -- the receiver is gone: the send returns an error and the rest of the batch is dropped
      next h_gone =>
        obtain rfl := Option.some.inj h
        exact .reject h_sending (Bool.eq_false_iff.mpr h_gone)
    · exact nomatch h
  | back i =>
    simp only [next] at h
    split at h
    next last h_sent =>
      obtain rfl := Option.some.inj h
      exact .back h_sent
    · exact nomatch h
  | notice i events =>
    simp only [next] at h
    split at h
    next h_ready =>
      split at h
      next h_notice =>
        rw [Bool.and_eq_true] at h_notice
        obtain rfl := Option.some.inj h
        exact .notice h_ready h_notice.1 h_notice.2
      · exact nomatch h
    · exact nomatch h
  | fail i =>
    simp only [next] at h
    split at h
    next h_ready =>
      obtain rfl := Option.some.inj h
      exact .fail h_ready
    · exact nomatch h
  | turn j =>
    simp only [next] at h
    split at h
    next h_waiting =>
      split at h
      · exact nomatch h
      next h_busy =>
        rw [Bool.or_eq_true, not_or] at h_busy
        obtain rfl := Option.some.inj h
        exact .turn h_waiting (Bool.eq_false_iff.mpr h_busy.1)
    · exact nomatch h
  | done j =>
    simp only [next] at h
    split at h
    next last h_working =>
      obtain rfl := Option.some.inj h
      exact .done h_working
    · exact nomatch h
  | leave j =>
    simp only [next] at h
    split at h
    next h_waiting =>
      split at h
      next h_shutdown =>
        obtain rfl := Option.some.inj h
        exact .leave h_waiting h_shutdown
      · exact nomatch h
    · exact nomatch h
  | exit j =>
    simp only [next] at h
    split at h
    · exact nomatch h
    next h_ended =>
      obtain rfl := Option.some.inj h
      exact .exit h_ended
  | receive blocklist sample fates =>
    simp only [next] at h
    split at h
    -- from here on the manager's own turns
    next x buffer h_buffer =>
      split at h
      next h_managing =>
        obtain ⟨live, h_turn, rfl⟩ := Option.map_eq_some_iff.mp h
        exact .receive h_buffer h_managing h_turn
      · exact nomatch h
    · exact nomatch h
  | tick at_ now idleGrace order fates =>
    simp only [next] at h
    split at h
    next h_managing =>
      obtain ⟨live, h_turn, rfl⟩ := Option.map_eq_some_iff.mp h
      exact .tick h_managing h_turn
    · exact nomatch h
  | quit now order fates =>
    simp only [next] at h
    split at h
    next h_quit =>
      rw [Bool.and_eq_true, Bool.and_eq_true, decide_eq_true_eq, Bool.or_eq_true,
        Bool.and_eq_true, List.isEmpty_iff] at h_quit
      -- `close_all_open` may throw or die; only a drain that returned lets the manager end
      split at h
      next m d rest h_run =>
        obtain rfl := Option.some.inj h
        exact .quit h_quit.1.1 h_quit.1.2 h_quit.2 h_run
      · exact nomatch h
      · exact nomatch h
    · exact nomatch h
  | signal =>
    simp only [next] at h
    split at h
    next h_main =>
      obtain rfl := Option.some.inj h
      exact .signal h_main
    · exact nomatch h
  | join =>
    simp only [next] at h
    split at h
    -- the main task awaits its helpers one by one, in the order of the list
    next task tasks h_main =>
      split at h
      next h_ended =>
        obtain rfl := Option.some.inj h
        exact .joined h_main h_ended
      · exact nomatch h
    next h_main =>
      obtain rfl := Option.some.inj h
      exact .returned h_main
    · exact nomatch h
  | rest =>
    obtain rfl := Option.some.inj h
    exact .rest

/-! ### What becomes of the events -/

theorem ofSource_append (i : SourceId) (xs ys : List (SourceId × GameEvent)) :
    ofSource i (xs ++ ys) = ofSource i xs ++ ofSource i ys := by
  unfold ofSource
  rw [List.filter_append, List.map_append]

theorem ofSource_self (i : SourceId) (event : GameEvent) : ofSource i [(i, event)] = [event] := by
  simp [ofSource]

theorem ofSource_of_ne {i j : SourceId} (h : j ≠ i) (event : GameEvent) :
    ofSource i [(j, event)] = [] := by
  simp [ofSource, h]

/-- **Where the events are.** What a source has found has been handled, is in the channel, or is still
to be sent. When the manager has ended, it has handled a first part of it. -/
structure Delivered (s : Pipeline) : Prop where
  room : s.buffer.length ≤ eventChannelCapacity
  found : s.managing = true → ∀ i,
    s.offered i = ofSource i s.handled ++ ofSource i s.buffer ++ (s.source i).pending
  handled : ∀ i, ofSource i s.handled <+: s.offered i

section Delivered

variable {s t : Pipeline} {i : SourceId}

/-- A source that goes on with as much to send as before. -/
theorem Delivered.goOn (h : s.Delivered) {source : Source}
    (h_pending : source.pending = (s.source i).pending) : (s.goOn i source).Delivered where
  room := h.room
  -- nothing was offered and nothing moved: the source only changes what it does next
  found := by
    intro h_managing j
    rw [show (s.goOn i source).offered j = s.offered j from rfl, h.found h_managing j]
    by_cases h_j : j = i
    · subst h_j
      show _ = _ ++ (Function.update s.source j source j).pending
      rw [Function.update_self, h_pending]
      rfl
    · show _ = _ ++ (Function.update s.source i source j).pending
      rw [Function.update_of_ne h_j]
      rfl
  handled := h.handled

/-- A source that has found something. -/
theorem Delivered.find (h : s.Delivered) (h_ready : s.source i = .ready) (events : List GameEvent)
    (last : Bool) : (s.find i events last).Delivered where
  room := h.room
  found := by
    intro h_managing j
    by_cases h_j : j = i
    · -- the source that found the events owes them all; nothing was pending before
      subst h_j
      show Function.update s.offered j (s.offered j ++ events) j =
        _ ++ (Function.update s.source j (.sending events last) j).pending
      rw [Function.update_self, Function.update_self, h.found h_managing j, h_ready]
      show _ ++ [] ++ events = _
      rw [List.append_nil]
      rfl
    · show Function.update s.offered i (s.offered i ++ events) j =
        _ ++ (Function.update s.source i (.sending events last) j).pending
      -- every other source keeps its share
      rw [Function.update_of_ne h_j, Function.update_of_ne h_j]
      exact h.found h_managing j
  handled := by
    intro j
    show _ <+: Function.update s.offered i (s.offered i ++ events) j
    by_cases h_j : j = i
    · subst h_j
      rw [Function.update_self]
      -- what was handled is a prefix of what was offered, and the offer only grew
      exact (h.handled j).trans (List.prefix_append _ _)
    · rw [Function.update_of_ne h_j]
      exact h.handled j

/-- An event that goes into the channel. -/
theorem Delivered.send (h : s.Delivered) {event : GameEvent} {events : List GameEvent} {last : Bool}
    (h_sending : s.source i = .sending (event :: events) last)
    (h_room : s.buffer.length < eventChannelCapacity) :
    { s.goOn i (.sending events last) with buffer := s.buffer ++ [(i, event)] }.Delivered where
  room := by
    show (s.buffer ++ [(i, event)]).length ≤ _
    rw [List.length_append]
    exact h_room
  found := by
    intro h_managing j
    show s.offered j = ofSource j s.handled ++ ofSource j (s.buffer ++ [(i, event)]) ++
      (Function.update s.source i (.sending events last) j).pending
    -- the event moves from what the source owes to the end of the channel
    rw [h.found h_managing j, ofSource_append]
    by_cases h_j : j = i
    · subst h_j
      rw [Function.update_self, h_sending, ofSource_self]
      simp only [Source.pending, List.append_assoc, List.singleton_append]
    · -- an event of another source does not count for this one
      rw [Function.update_of_ne h_j, ofSource_of_ne (Ne.symm h_j), List.append_nil]
  handled := h.handled

/-- An event that the manager takes out. -/
theorem Delivered.receive (h : s.Delivered) {x : SourceId × GameEvent}
    {buffer : List (SourceId × GameEvent)} (h_buffer : s.buffer = x :: buffer)
    (h_managing : s.managing = true) (live : Live) :
    { s with live := live, buffer := buffer, handled := s.handled ++ [x] }.Delivered := by
  -- the head of the channel moves to the end of what was handled
  have h_found : ∀ j, s.offered j =
      ofSource j (s.handled ++ [x]) ++ ofSource j buffer ++ (s.source j).pending := by
    intro j
    rw [h.found h_managing j, h_buffer, ← List.singleton_append, ofSource_append, ofSource_append]
    simp only [List.append_assoc]
  refine ⟨?_, fun _ => h_found, fun j => ?_⟩
  · have h_room := h.room
    rw [h_buffer, List.length_cons] at h_room
    exact (Nat.le_succ _).trans h_room
  · show _ <+: s.offered j
    rw [h_found j, List.append_assoc]
    exact List.prefix_append _ _

/-- **Every step keeps the events where they are to be.** -/
theorem Delivered.step {l : Label} (h_step : s.Step l t) (h : s.Delivered) : t.Delivered := by
  cases h_step.effect with
  | wake h_ready _ => exact h.find h_ready _ _
  | send h_sending _ h_room => exact h.send h_sending h_room
  | reject _ h_gone =>
    -- from here the receiver is gone and nothing is promised of the channel any more
    exact ⟨h.room, fun h_managing => absurd h_managing (Bool.eq_false_iff.mp h_gone), h.handled⟩
  | @back i last h_sent =>
    refine h.goOn ?_
    rw [h_sent]
    cases last <;> rfl
  | notice h_ready _ _ => exact h.find h_ready _ _
  | fail h_ready => exact h.goOn (by rw [h_ready]; rfl)
  | turn _ _ => exact ⟨h.room, h.found, h.handled⟩
  | done _ => exact ⟨h.room, h.found, h.handled⟩
  | leave _ _ => exact ⟨h.room, h.found, h.handled⟩
  | exit _ => exact ⟨h.room, h.found, h.handled⟩
  | receive h_buffer h_managing _ => exact h.receive h_buffer h_managing _
  | tick _ _ => exact ⟨h.room, h.found, h.handled⟩
  -- the manager drops what still waits in the channel
  | quit _ _ _ _ =>
    exact ⟨Nat.zero_le _, fun h_managing => absurd h_managing Bool.false_ne_true, h.handled⟩
  | signal _ => exact ⟨h.room, h.found, h.handled⟩
  | joined _ _ => exact ⟨h.room, h.found, h.handled⟩
  | returned _ => exact ⟨h.room, h.found, h.handled⟩
  | rest => exact h

end Delivered

/-- **What the manager has done**: a run of turns, in which it processed the events it took out of
the channel, and at last the close of everything. -/
structure Managed (start : Live) (s : Pipeline) : Prop where
  run : ∃ tr, IsRun Live.Step start tr ∧ processed tr = s.handled.map Prod.snd ∧
    if s.managing then final start tr = s.live
    else ∃ now order fates rest,
      (order.map Prod.fst).Perm (final start tr).1.open_.keys ∧
        closeAllOpen .terminated now order (final start tr).1 (final start tr).2 fates =
          .returned () s.live.1 s.live.2 rest

theorem processed_append (tr₁ tr₂ : List ((SessionManager.Input × List Fate) × Live)) :
    processed (tr₁ ++ tr₂) = processed tr₁ ++ processed tr₂ := List.flatMap_append

/-- **Every step of the manager is one of its run.** -/
theorem Managed.step {start : Live} {s t : Pipeline} {l : Label} (h_step : s.Step l t)
    (h : s.Managed start) : t.Managed start := by
  obtain ⟨tr, h_tr, h_processed, h_state⟩ := h.run
  cases h_step.effect with
  -- a step outside the manager leaves its run as it is
  | wake _ _ => exact ⟨tr, h_tr, h_processed, h_state⟩
  | send _ _ _ => exact ⟨tr, h_tr, h_processed, h_state⟩
  | reject _ _ => exact ⟨tr, h_tr, h_processed, h_state⟩
  | back _ => exact ⟨tr, h_tr, h_processed, h_state⟩
  | notice _ _ _ => exact ⟨tr, h_tr, h_processed, h_state⟩
  | fail _ => exact ⟨tr, h_tr, h_processed, h_state⟩
  | turn _ _ => exact ⟨tr, h_tr, h_processed, h_state⟩
  | done _ => exact ⟨tr, h_tr, h_processed, h_state⟩
  | leave _ _ => exact ⟨tr, h_tr, h_processed, h_state⟩
  | exit _ => exact ⟨tr, h_tr, h_processed, h_state⟩
  | @receive blocklist sample fates x buffer live h_buffer h_managing h_turn =>
    -- one more turn of the manager, taken from the state its run had reached
    rw [if_pos h_managing] at h_state
    rw [← h_state] at h_turn
    refine ⟨tr ++ [(_, live)], h_tr.append (.cons h_turn (.nil _)), ?_, ?_⟩
    · rw [processed_append, h_processed, List.map_append]
      rfl
    · rw [if_pos h_managing, final_append]
      rfl
  | @tick at_ now idleGrace order fates live h_managing h_turn =>
    rw [if_pos h_managing] at h_state
    rw [← h_state] at h_turn
    refine ⟨tr ++ [(_, live)], h_tr.append (.cons h_turn (.nil _)), ?_, ?_⟩
    · rw [processed_append, h_processed]
      exact List.append_nil _
    · rw [if_pos h_managing, final_append]
      rfl
  -- the last turn drains the map; the run of the manager ends before it
  | @quit now order fates rest m d h_managing _ h_order h_close =>
    rw [if_pos h_managing] at h_state
    rw [← h_state] at h_order h_close
    refine ⟨tr, h_tr, h_processed, ?_⟩
    rw [if_neg Bool.false_ne_true]
    exact ⟨now, order, fates, rest, h_order, h_close⟩
  | signal _ => exact ⟨tr, h_tr, h_processed, h_state⟩
  | joined _ _ => exact ⟨tr, h_tr, h_processed, h_state⟩
  | returned _ => exact ⟨tr, h_tr, h_processed, h_state⟩
  | rest => exact ⟨tr, h_tr, h_processed, h_state⟩

/-- The daemon has spawned its tasks. A source that is not there has ended. -/
structure Spawned (s : Pipeline) : Prop where
  source : ∀ i, s.source i = .ready ∨ s.source i = .ended
  buffer : s.buffer = []
  managing : s.managing = true
  shutdown : s.shutdown = false
  main : s.main = .running
  offered : ∀ i, s.offered i = []
  handled : s.handled = []

theorem Spawned.delivered {s : Pipeline} (h : s.Spawned) : s.Delivered where
  room := by
    -- nothing has been offered yet, so nothing can be missing
    rw [h.buffer]
    exact Nat.zero_le _
  found := by
    intro _ i
    rw [h.offered, h.handled, h.buffer]
    rcases h.source i with h_i | h_i
    · rw [h_i]
      rfl
    · rw [h_i]
      rfl
  handled := by
    intro i
    rw [h.handled]
    exact List.nil_prefix

theorem Spawned.managed {s : Pipeline} (h : s.Spawned) : s.Managed s.live := by
  refine ⟨[], .nil _, ?_, ?_⟩
  · rw [h.handled]
    rfl
  · rw [if_pos h.managing]
    rfl

/-- **Events are delivered exactly once and in order.** In every state of every run of the tasks, the
channel is within its capacity, and what the manager has done is a run of turns over the events it
took out of it. While it runs, what a source has found is what was handled of it, followed by what is
in the channel and by what it has yet to send; after that, what was handled is the first part of what
it found. -/
theorem events_delivered {s₀ : Pipeline} (h_spawned : s₀.Spawned) {tr : List (Label × Pipeline)}
    (hrun : IsRun Step s₀ tr) : ∀ s ∈ states s₀ tr, s.Delivered ∧ s.Managed s₀.live := by
  refine hrun.invariant (fun s => s.Delivered ∧ s.Managed s₀.live) ?_
    ⟨h_spawned.delivered, h_spawned.managed⟩
  exact fun s l t h_step h => ⟨h.1.step h_step, h.2.step h_step⟩

/-- Both sources find something, and the daemon is told to stop when the manager has handled the first
event. -/
def stoppedEarly : List Label :=
  [.wake .steam [.started (.steam "10") "Portal" none (.firstDay 100)], .send .steam,
    .wake .kwin [.started (.native "/games/a") "a" none (.firstDay 101),
      .stopped (.native "/games/a") (.firstDay 102)], .send .kwin,
    .receive [] (sampleAt 0) [], .signal, .send .kwin,
    .quit (.firstDay 110) [(.steam "10", sampleAt 9)] []]

/-- The tasks, over an empty database. -/
def spawned : Pipeline where
  live := ({}, .empty)

theorem spawned_spawned : spawned.Spawned where
  source := fun _ => Or.inl rfl
  buffer := rfl
  managing := rfl
  shutdown := rfl
  main := rfl
  offered := fun _ => rfl
  handled := rfl

theorem events_delivered_stoppedEarly :
    (trace next spawned stoppedEarly).length = 8 ∧
      ∀ s ∈ states spawned (trace next spawned stoppedEarly),
        s.Delivered ∧ s.Managed spawned.live :=
  ⟨by decide +kernel, events_delivered spawned_spawned (isRun_trace next spawned stoppedEarly)⟩

end Pipeline

end Ludex
