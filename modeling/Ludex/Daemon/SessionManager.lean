import Mathlib.Data.List.AList
import Ludex.Lib.Transact
import Ludex.Core.ApplicationRepo
import Ludex.Core.SessionRepo
import Ludex.Daemon.IdleTracker

/-!
# `SessionManager`

The session bookkeeper of `session_manager.rs`: it consumes the events of the sources and keeps the
sessions of the running games, in memory in the map `open_` and in the database as open rows.

A handler is a program over the database (`Transact.Program`) whose transactions are the repository
calls, so that what it has done to its memory when a call fails, or when the process dies, is
explicit. What a handler reads from its surroundings (the clocks, the idle tracker, the idle grace,
the blocklist) is an argument, as found when the handler runs: the surroundings change freely from
one handler to the next. The order in which a handler visits the map is an argument too, because a
`HashMap` has none.

`turn` is one turn of the run loop, which logs the error of a handler and goes on.
-/

namespace Ludex

/-- A game start or stop observed by a source. -/
inductive GameEvent where
  | started (key : GameKey) (displayName : String) (executablePath : Option PathBuf)
      (at_ : OffsetDateTime)
  | stopped (key : GameKey) (at_ : OffsetDateTime)
deriving DecidableEq

/-- A message to the notifier of the public interface. -/
inductive TrackerNotification where
  | applicationAdded (applicationId : ℤ)
  | sessionStarted (applicationId : ℤ)
  | sessionEnded (applicationId fullRuntimeSeconds interactiveRuntimeSeconds : ℤ)
deriving DecidableEq, Repr

/-- In-memory state for a session currently open in the database. -/
structure OpenSession where
  sessionId : ℤ
  applicationId : ℤ
  baselineIdleIntervalsCount : ℕ
  baselineOpenIdleSeconds : ℤ
  startedInstant : Instant
deriving DecidableEq

/-- What the manager logs. A record made while an event is handled carries the event. -/
inductive LogRecord where
  | blocked (key : GameKey)
  | alreadyOpen (key : GameKey)
  | openSessionExists (key : GameKey) (applicationId : ℤ)
  | opened (key : GameKey) (at_ : OffsetDateTime) (applicationId sessionId : ℤ)
  | unknownSession (key : GameKey)
  | closed (applicationId sessionId fullSeconds : ℤ) (reason : ExitReason)
  | recovered (count : ℕ)
  | eventFailed (error : Error)
  | heartbeatFailed (error : Error)
  | closeFailed (error : Error)
deriving DecidableEq

/-- The record reports that the database refused or failed something. -/
def LogRecord.isFailure : LogRecord → Bool
  | eventFailed _ | heartbeatFailed _ | closeFailed _ => true
  | _ => false

/-- The memory of the manager: the open sessions, the log, and what was sent to the notifier. -/
structure SessionManager where
  open_ : AList fun _ : GameKey => OpenSession := ∅
  log : List LogRecord := []
  notifications : List TrackerNotification := []
deriving DecidableEq

/-- A reading of the idle tracker: its state, and the clock read under its lock. -/
structure IdleReading where
  state : IdleTracker.State
  now : Instant

/-- What the runtime of a session is computed from. The grace is a `u64` of seconds. -/
structure Sample where
  now : Instant
  idleGrace : ℕ
  idle : IdleReading

namespace SessionManager

open Transact

/-- A program of the manager. -/
abbrev Handler (α : Type) := Program Database SessionManager Error α

/-- One transaction. -/
def transact {α : Type} (op : Database → Except Error (α × Database)) : Handler α :=
  Program.transact (.sql .io) op

/-- A query. -/
def read {α : Type} (f : Database → α) : Handler α := transact fun d => .ok (f d, d)

/-- A transaction that returns nothing. -/
def write (op : Database → Except Error Database) : Handler Unit :=
  transact fun d => (op d).map fun d => ((), d)

def noted (m : SessionManager) (record : LogRecord) : SessionManager :=
  { m with log := m.log ++ [record] }

def notified (m : SessionManager) (notification : TrackerNotification) : SessionManager :=
  { m with notifications := m.notifications ++ [notification] }

/-- Log a record. -/
def note (record : LogRecord) : Handler Unit := .modify fun m => m.noted record

/-- Send a message to the notifier. -/
def notify (notification : TrackerNotification) : Handler Unit :=
  .modify fun m => m.notified notification

/-! ### Runtimes -/

/-- Full and interactive runtime of an open session. -/
def runtimesFor (openSession : OpenSession) (sample : Sample) : ℤ × ℤ :=
  let full := openSession.startedInstant.secondsSince sample.now
  let billableIdle := IdleTracker.billableIdleSecondsSince sample.idle.state
    openSession.baselineIdleIntervalsCount openSession.baselineOpenIdleSeconds
    (I64.ofU64 sample.idleGrace) sample.idle.now
  -- `clamp(0, full)`
  (full, max 0 (min full (full - billableIdle)))

/-- The snapshot of an open session. -/
def snapshotOf (openSession : OpenSession) (sample : Sample) (at_ : OffsetDateTime) :
    RuntimeSnapshot :=
  ⟨(runtimesFor openSession sample).1, (runtimesFor openSession sample).2, at_⟩

/-! ### Handlers -/

/-- Close every session left open by a prior daemon run, at its last heartbeat. Returns how many
there were. -/
def recoverOrphans : Handler ℕ := do
  let orphans ← read SessionRepo.listAllOrphans
  forM orphans fun orphan =>
    write fun d =>
      SessionRepo.closeAndRollup d orphan.id orphan.applicationId
        ⟨orphan.fullRuntimeSeconds, orphan.interactiveRuntimeSeconds, orphan.heartbeatAt⟩ .recovered
  if orphans.length > 0 then
    note (.recovered orphans.length)
  return orphans.length

/-- The row inserted for a game seen for the first time. -/
def firstSeen (key : GameKey) (displayName : String) (executablePath : Option PathBuf)
    (now : OffsetDateTime) : NewApplication where
  launcherType := key.launcherType
  launcherId := key.launcherId
  productName := displayName
  publisher := none
  version := none
  executablePath := executablePath.map PathBuf.lossy
  launcherExePath := none
  wineprefixPath := none
  installedFlatpakRef := none
  graphicsPlatform := .unknown
  processArchitecture := .unknown
  groupId := none
  icons := {}
  firstSeenAt := now

/-- The application of a key. -/
def findOrCreateApplication (key : GameKey) (displayName : String)
    (executablePath : Option PathBuf) (now : OffsetDateTime) : Handler Application := do
  let found ← read fun d => ApplicationRepo.findByKey d key
  match found with
  | some app => return app
  | none =>
    let app ← transact fun d =>
      ApplicationRepo.create d (firstSeen key displayName executablePath now)
    notify (.applicationAdded app.id)
    return app

/-- The session that `begin` opened goes into the map. -/
def openFor (session : Session) (app : Application) (sample : Sample) : OpenSession where
  sessionId := session.id
  applicationId := app.id
  baselineIdleIntervalsCount :=
    (IdleTracker.sessionStartBaseline sample.idle.state sample.idle.now).1
  baselineOpenIdleSeconds :=
    (IdleTracker.sessionStartBaseline sample.idle.state sample.idle.now).2
  startedInstant := sample.now

/-- Open the session of an application, unless the database holds one already. -/
def openSession (key : GameKey) (at_ : OffsetDateTime) (sample : Sample) (app : Application) :
    Handler Unit := do
  let begun ← (transact fun d => SessionRepo.begin d app.id at_).attempt
  match begun with
  | .ok session =>
    note (.opened key at_ app.id session.id)
    .modify fun m => { m with open_ := m.open_.insert key (openFor session app sample) }
    notify (.sessionStarted app.id)
  | .error (.openSessionExists applicationId) => note (.openSessionExists key applicationId)
  | .error e => .throw e

def handleStarted (key : GameKey) (displayName : String) (executablePath : Option PathBuf)
    (at_ : OffsetDateTime) (blocklist : List GameKey) (sample : Sample) : Handler Unit := do
  let m ← .get
  if key ∈ blocklist then
    note (.blocked key)
  else if key ∈ m.open_ then
    note (.alreadyOpen key)
  else
    let app ← findOrCreateApplication key displayName executablePath at_
    openSession key at_ sample app

/-- Close a session that has been taken out of the map. -/
def closeSession (openSession : OpenSession) (endedAt : OffsetDateTime) (reason : ExitReason)
    (sample : Sample) : Handler Unit := do
  let (full, interactive) := runtimesFor openSession sample
  write fun d =>
    SessionRepo.closeAndRollup d openSession.sessionId openSession.applicationId
      ⟨full, interactive, endedAt⟩ reason
  note (.closed openSession.applicationId openSession.sessionId full reason)
  notify (.sessionEnded openSession.applicationId full interactive)

def handleStopped (key : GameKey) (at_ : OffsetDateTime) (sample : Sample) : Handler Unit := do
  let m ← .get
  match m.open_.lookup key with
  | some openSession =>
    .modify fun m => { m with open_ := m.open_.erase key }
    closeSession openSession at_ .terminated sample
  | none => note (.unknownSession key)

def handleEvent (event : GameEvent) (blocklist : List GameKey) (sample : Sample) : Handler Unit :=
  match event with
  | .started key displayName executablePath at_ =>
    handleStarted key displayName executablePath at_ blocklist sample
  | .stopped key at_ => handleStopped key at_ sample

/-- Write a heartbeat of every open session. The clock and the grace are read once. The first
heartbeat that fails ends the batch. -/
def heartbeatOpenSessions (at_ : OffsetDateTime) (now : Instant) (idleGrace : ℕ)
    (order : List (GameKey × IdleReading)) : Handler Unit := do
  let m ← .get
  forM (order.filterMap fun x => (m.open_.lookup x.1).map fun o => (o, x.2))
    fun (openSession, idle) =>
      write fun d =>
        SessionRepo.heartbeat d openSession.sessionId
          (snapshotOf openSession ⟨now, idleGrace, idle⟩ at_)

/-- The sessions of the map, in the order they are visited. -/
def drained (m : SessionManager) (order : List (GameKey × Sample)) :
    List (GameKey × OpenSession × Sample) :=
  order.filterMap fun x => (m.open_.lookup x.1).map fun o => (x.1, o, x.2)

/-- Close every open session. The map is drained first, and an error is logged. -/
def closeAllOpen (reason : ExitReason) (now : OffsetDateTime) (order : List (GameKey × Sample)) :
    Handler Unit := do
  let m ← .get
  .modify fun m => { m with open_ := ∅ }
  forM (m.drained order) fun (_, openSession, sample) => do
    let result ← (closeSession openSession now reason sample).attempt
    match result with
    | .ok _ => return ()
    | .error e => note (.closeFailed e)

/-! ### The run loop -/

/-- What a turn of the loop takes: an event or a heartbeat tick, with what its handler reads. -/
inductive Input where
  | event (event : GameEvent) (blocklist : List GameKey) (sample : Sample)
  | heartbeat (at_ : OffsetDateTime) (now : Instant) (idleGrace : ℕ)
      (order : List (GameKey × IdleReading))

/-- Run a handler, and log its error. -/
def logged (handler : Handler Unit) (record : Error → LogRecord) : Handler Unit := do
  let result ← handler.attempt
  match result with
  | .ok _ => return ()
  | .error e => note (record e)

/-- One turn of the loop. -/
def turn : Input → Handler Unit
  | .event event blocklist sample => logged (handleEvent event blocklist sample) .eventFailed
  | .heartbeat at_ now idleGrace order =>
    logged (heartbeatOpenSessions at_ now idleGrace order) .heartbeatFailed

/-- A heartbeat visits every open session once. -/
def Input.Visits (m : SessionManager) : Input → Prop
  | event _ _ _ => True
  | heartbeat _ _ _ order => (order.map Prod.fst).Perm m.open_.keys

instance (m : SessionManager) : (input : Input) → Decidable (input.Visits m)
  | .event _ _ _ => instDecidableTrue
  | .heartbeat _ _ _ order => inferInstanceAs (Decidable ((order.map Prod.fst).Perm m.open_.keys))

end SessionManager

/-- A running manager and its database. -/
abbrev Live := SessionManager × Database

namespace Live

open SessionManager Transact

/-- Take a turn with given fates, if the process survives it. -/
def next (s : Live) (l : Input × List Fate) : Option Live :=
  if l.1.Visits s.1 then
    match turn l.1 s.1 s.2 l.2 with
    | .returned _ m d _ => some (m, d)
    | .threw _ m d _ => some (m, d)
    | .died _ => none
  else none

/-- A turn as a step. -/
def Step (s : Live) (l : Input × List Fate) (t : Live) : Prop := s.next l = some t

end Live

end Ludex
