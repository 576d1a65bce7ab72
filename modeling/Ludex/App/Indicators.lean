import Ludex.Lib.Run
import Ludex.Daemon.SessionManager
import Ludex.Daemon.Tracker

/-!
# The live indicators

The tray icon and the session pill of the applet, with what reaches them: the signals of the daemon,
the forwarder of `bridge.rs`, the listeners and the worker of `tray.rs`, and the refresh of
`LiveSessionPill.svelte`. The tray follows the signals, and asks for the newest session when the
forwarder has reconnected; the pill asks whenever it refreshes. Both let the newest session, or the
last signal, speak for all of them, which sessions of different applications may be.

`next` is one step of the daemon, the forwarder, the tray worker or the pill. When all of a run's
steps meet `Sound`, the tray is right in a state where nothing is on its way to it exactly if the
forwarder is subscribed or no session is open: without a subscription it is idle, whatever the daemon
does. The pill is right after its refreshes exactly in the states that meet `Tells`
(`indicators_sound`).
-/

namespace Ludex

namespace Indicators

open Run SessionRepo Tracker

/-! ### The tray -/

/-- What the listeners push onto the channel of the tray worker. -/
inductive TrayStateUpdate where
  | tooltipStarted (applicationId : ℤ)
  | tooltipEnded
  | daemonReconnected
  | themeChanged (isDark : Bool)
deriving DecidableEq, Repr

def tooltipIdle : String := "ludex"

def tooltipActiveUnresolved : String := "ludex · session active"

/-- The part of the tray that changes. -/
structure LudexTray where
  isDark : Bool
  isActive : Bool := false
  tooltipTitle : String := tooltipIdle
deriving DecidableEq, Repr

def LudexTray.applySession (tray : LudexTray) (isActive : Bool) (tooltipTitle : String) :
    LudexTray :=
  { tray with isActive := isActive, tooltipTitle := tooltipTitle }

def LudexTray.applyTooltip (tray : LudexTray) (text : String) : LudexTray :=
  { tray with tooltipTitle := text }

def LudexTray.applyTheme (tray : LudexTray) (isDark : Bool) : LudexTray :=
  { tray with isDark := isDark }

/-- The tooltip of an active session. -/
def tooltipFor : Option String → String
  | some name => if Text.trimIsEmpty name then tooltipActiveUnresolved else "ludex · " ++ name
  | none => tooltipActiveUnresolved

/-- The update that the listeners make of a signal. -/
def listened : TrackerNotification → Option TrayStateUpdate
  | .applicationAdded _ => none
  | .sessionStarted applicationId => some (.tooltipStarted applicationId)
  | .sessionEnded _ _ _ => some .tooltipEnded

/-! ### The questions -/

/-- The name of the newest session, if it is open. `none` is a call that failed. -/
def activeSession (recent : Option (List SessionSummary)) : Option String := do
  let recent ← recent
  let top ← recent.head?
  if Text.trimIsEmpty top.endedAt then some top.productName else none

/-- What the pill shows after a refresh. `none` is a call that failed. -/
def refresh (recent : Option (List SessionSummary)) : Option SessionSummary := do
  let recent ← recent
  let newest ← recent.head?
  if newest.endedAt = "" then some newest else none

/-! ### The system -/

/-- How far the daemon has come. -/
inductive Daemon where
  | absent
  /-- It owns the bus name and closes the sessions of its predecessor. -/
  | recovering
  | running
deriving DecidableEq, Repr

/-- What the forwarder of the signals does. -/
inductive Bridge where
  /-- Building its subscriptions; `is_reconnect`. -/
  | settingUp (isReconnect : Bool)
  | subscribed
  | exited
deriving DecidableEq, Repr

/-- What the tray worker does between two updates of its channel. -/
inductive Worker where
  | ready
  /-- Looking for the name of an application. -/
  | resolving (applicationId : ℤ)
  /-- It has its answer about the newest session, and is about to apply it. -/
  | reconciling (name : Option String)
deriving DecidableEq, Repr

/-- Daemon, bus, forwarder, tray and pill. -/
structure World where
  db : Database
  daemon : Daemon := .absent
  /-- The channel of the daemon's notifier. -/
  outbox : List TrackerNotification := []
  /-- The bus name has a new owner, or none, which the forwarder has not noticed. -/
  ownerChanged : Bool := false
  bridge : Bridge := .settingUp false
  /-- The signals sent that the forwarder has not forwarded. -/
  wire : List TrackerNotification := []
  /-- The channel of the tray worker. -/
  queue : List TrayStateUpdate := []
  worker : Worker := .ready
  tray : LudexTray
  pill : Option SessionSummary := none

/-- At least one session is open in the daemon. -/
def World.Open (s : World) : Prop := s.daemon = .running ∧ ∃ row ∈ s.db.sessions, row.isOpen = true

instance (s : World) : Decidable s.Open :=
  inferInstanceAs (Decidable (s.daemon = .running ∧ ∃ row ∈ s.db.sessions, row.isOpen = true))

/-- The forwarder has no subscription any more, and says so. -/
def World.disconnected (s : World) (bridge : Bridge) : World :=
  { s with
    bridge := bridge
    ownerChanged := false
    wire := []
    queue := s.queue ++ [.tooltipEnded]
    pill := none }

/-- What the daemon answers when asked for the newest session: the order in which it visits the rows,
or `none` for a call that fails. -/
def World.reply (s : World) : Option (List Session) → Option (Option (List SessionSummary))
  | none => some none
  | some rows =>
    if h : rows.Perm s.db.sessions ∧ s.daemon ≠ .absent then
      some (some (listRecentSessions ⟨rows, h.1⟩ 1))
    else none

/-! ### Steps -/

/-- A step of one of the parties. -/
inductive Action where
  /-- A daemon claims the bus name. -/
  | starts
  /-- It closes a session of its predecessor, for which it sends no signal. -/
  | recovers (sessionId applicationId : ℤ) (snapshot : RuntimeSnapshot)
  /-- No such session is left. -/
  | runs
  | dies
  | creates (new : NewApplication)
  | opens (applicationId : ℤ) (startedAt : OffsetDateTime)
  | closes (sessionId applicationId : ℤ) (snapshot : RuntimeSnapshot) (reason : ExitReason)
  /-- The notifier sends a signal. -/
  | emits
  /-- The forwarder has its subscriptions. -/
  | subscribes
  /-- It could not build them; whether it could wait for the service. -/
  | setupFails (awaited : Bool)
  | forwards
  | noticesOwner
  | streamsClose
  | themeChanges (isDark : Bool)
  /-- The tray worker takes an update off its channel, with the answer it gets if it asks. -/
  | takes (answer : Option (List Session))
  /-- It goes on with the update; whether the daemon has told it the application. -/
  | lands (answered : Bool)
  | refreshes (answer : Option (List Session))

/-- The tray worker handles an update up to its first answer. -/
def World.handle (s : World) (answer : Option (List Session)) : TrayStateUpdate → Option World
  | .tooltipStarted applicationId =>
    some { s with
      tray := s.tray.applySession true tooltipActiveUnresolved
      worker := .resolving applicationId }
  | .tooltipEnded => some { s with tray := s.tray.applySession false tooltipIdle }
  | .daemonReconnected =>
    (s.reply answer).map fun recent => { s with worker := .reconciling (activeSession recent) }
  | .themeChanged isDark => some { s with tray := s.tray.applyTheme isDark }

/-- Take a step, if it can be taken. -/
def next (s : World) : Action → Option World
  -- the name is claimed before the orphans are closed, and questions are answered from then on
  | .starts =>
    match s.daemon with
    | .absent =>
      some { s with daemon := .recovering, ownerChanged := decide (s.bridge = .subscribed) }
    | _ => none
  | .recovers sessionId applicationId snapshot =>
    match s.daemon, closeAndRollup s.db sessionId applicationId snapshot .recovered with
    | .recovering, .ok db => some { s with db := db }
    | _, _ => none
  | .runs =>
    if s.daemon = .recovering ∧ s.db.openRows = [] then some { s with daemon := .running } else none
  -- what its notifier had not sent is lost
  | .dies =>
    match s.daemon with
    | .absent => none
    | _ =>
      some { s with
        daemon := .absent
        outbox := []
        ownerChanged := decide (s.bridge = .subscribed) }
  | .creates new =>
    match s.daemon, ApplicationRepo.create s.db new with
    | .running, .ok (app, db) =>
      some { s with db := db, outbox := s.outbox ++ [.applicationAdded app.id] }
    | _, _ => none
  | .opens applicationId startedAt =>
    match s.daemon, SessionRepo.begin s.db applicationId startedAt with
    | .running, .ok (_, db) =>
      some { s with db := db, outbox := s.outbox ++ [.sessionStarted applicationId] }
    | _, _ => none
  | .closes sessionId applicationId snapshot reason =>
    match s.daemon, closeAndRollup s.db sessionId applicationId snapshot reason with
    | .running, .ok db =>
      some { s with
        db := db
        outbox := s.outbox ++ [.sessionEnded applicationId snapshot.fullRuntimeSeconds
          snapshot.interactiveRuntimeSeconds] }
    | _, _ => none
  | .emits =>
    match s.outbox with
    | signal :: outbox =>
      -- nobody else listens
      if s.bridge = .subscribed then some { s with outbox := outbox, wire := s.wire ++ [signal] }
      else some { s with outbox := outbox }
    | [] => none
  -- the first time the pages have just asked for themselves, the tray has not
  | .subscribes =>
    match s.bridge with
    | .settingUp isReconnect =>
      some { s with
        bridge := .subscribed
        queue := s.queue ++ if isReconnect then [.daemonReconnected] else [] }
    | _ => none
  -- the next attempt counts as a reconnection, whether or not there has been a connection
  | .setupFails awaited =>
    match s.bridge with
    | .settingUp _ => some (s.disconnected (if awaited then .settingUp true else .exited))
    | _ => none
  | .forwards =>
    match s.wire with
    | signal :: wire => some { s with wire := wire, queue := s.queue ++ (listened signal).toList }
    | [] => none
  | .noticesOwner =>
    if s.bridge = .subscribed ∧ s.ownerChanged = true then some (s.disconnected (.settingUp true))
    else none
  | .streamsClose =>
    if s.bridge = .subscribed ∧ s.wire = [] then some (s.disconnected .exited) else none
  | .themeChanges isDark => some { s with queue := s.queue ++ [.themeChanged isDark] }
  | .takes answer =>
    match s.worker, s.queue with
    | .ready, update :: queue => { s with queue := queue }.handle answer update
    | _, _ => none
  | .lands answered =>
    match s.worker with
    | .resolving applicationId =>
      -- the icon is active already, only the text changes
      let app := if answered then ApplicationRepo.findById s.db applicationId else none
      some { s with
        tray := s.tray.applyTooltip (tooltipFor (app.map Application.productName))
        worker := .ready }
    | .reconciling (some name) =>
      some { s with
        tray := s.tray.applySession true (tooltipFor (some name))
        worker := .ready }
    | .reconciling none =>
      some { s with
        tray := s.tray.applySession false tooltipIdle
        worker := .ready }
    | .ready => none
  | .refreshes answer => (s.reply answer).map fun recent => { s with pill := refresh recent }

/-- A step. -/
def Step (s : World) (a : Action) (t : World) : Prop := next s a = some t

/-- The applet and the daemon before either runs. -/
def initial (db : Database) (isDark : Bool) : World where
  db := db
  tray := { isDark := isDark }

/-! ### What is on its way -/

/-- The updates that the signals not yet sent will be. -/
def World.unsent (s : World) : List TrayStateUpdate := s.outbox.filterMap listened

/-- The updates before the tray worker. -/
def World.pending (s : World) : List TrayStateUpdate := s.queue ++ s.wire.filterMap listened

/-- Nothing is on its way to the tray. -/
def World.Drained (s : World) : Prop :=
  s.unsent = [] ∧ s.pending = [] ∧ s.worker = .ready ∧ s.ownerChanged = false

instance (s : World) : Decidable s.Drained := inferInstanceAs (Decidable (_ ∧ _))

/-- The update has to do with sessions. -/
def TrayStateUpdate.isNews : TrayStateUpdate → Bool
  | themeChanged _ => false
  | _ => true

/-- The signal to be sent next is the end of a session, and none of the others is about a session. -/
def World.LastEnd (s : World) : Prop :=
  s.outbox.head?.bind listened = some .tooltipEnded ∧ s.outbox.tail.filterMap listened = []

instance (s : World) : Decidable s.LastEnd := inferInstanceAs (Decidable (_ ∧ _))

/-- The tray worker is about to ask for the newest session, and its answer is the last word. -/
def World.Decides (s : World) : Prop :=
  s.queue.head? = some .daemonReconnected ∧ s.unsent = [] ∧ s.ownerChanged = false ∧
    s.pending.tail.any TrayStateUpdate.isNews = false

instance (s : World) : Decidable s.Decides := inferInstanceAs (Decidable (_ ∧ _))

/-- The question for the newest session tells whether a session is open: each session that may be
listed first is open if and only if one is. A call that fails tells that none is. -/
def World.Tells (s : World) : Bool → Prop
  | true => s.daemon ≠ .absent →
      ∀ row ∈ s.db.sessions, s.db.Newest row → (row.isOpen = true ↔ s.Open)
  | false => ¬ s.Open

instance (s : World) : (answered : Bool) → Decidable (s.Tells answered)
  | true => inferInstanceAs (Decidable (s.daemon ≠ .absent →
      ∀ row ∈ s.db.sessions, s.db.Newest row → (row.isOpen = true ↔ s.Open)))
  | false => inferInstanceAs (Decidable (¬ s.Open))

/-- The step is not one that misleads the tray: the end of a session, as the last word, while
another one is open; the first subscription while one is open whose start has been sent; an answer
about the newest session, as the last word, that does not tell. -/
def Sound (s : World) : Action → Prop
  | .emits => s.bridge = .subscribed → s.ownerChanged = false → s.LastEnd → ¬ s.Open
  | .subscribes => s.bridge = .settingUp false → s.unsent = [] → ¬ s.Open
  | .takes answer => s.Decides → s.Tells answer.isSome
  -- opening and closing is harmless as such: what counts is the last signal that is sent
  | _ => True

instance (s : World) : (a : Action) → Decidable (Sound s a)
  | .emits => inferInstanceAs (Decidable (_ = _ → _ = _ → s.LastEnd → ¬ s.Open))
  | .subscribes => inferInstanceAs (Decidable (_ = _ → _ = _ → ¬ s.Open))
  | .takes answer => inferInstanceAs (Decidable (s.Decides → s.Tells answer.isSome))
  | .starts | .recovers _ _ _ | .runs | .dies | .creates _ | .opens _ _ | .closes _ _ _ _
  | .setupFails _ | .forwards | .noticesOwner | .streamsClose | .themeChanges _ | .lands _
  | .refreshes _ => instDecidableTrue

/-! ### The questions are answered by the newest session -/

section Questions

variable {s : World}

theorem isSome_refresh (recent : List SessionSummary) :
    (refresh (some recent)).isSome = recent.head?.any (·.endedAt = "") := by
  cases recent with
  | nil => rfl
  | cons newest rest =>
    show (if newest.endedAt = "" then some newest else none).isSome = decide (newest.endedAt = "")
    split <;> simp_all

theorem isSome_activeSession (recent : List SessionSummary) :
    (activeSession (some recent)).isSome = recent.head?.any fun top =>
      Text.trimIsEmpty top.endedAt := by
  cases recent with
  | nil => rfl
  | cons top rest =>
    show (if Text.trimIsEmpty top.endedAt then some top.productName else none).isSome
      = Text.trimIsEmpty top.endedAt
    split <;> simp_all

/-- The two questions are the same one. -/
theorem isSome_activeSession_eq {d : Database} (scan : Scan d) :
    (activeSession (some (listRecentSessions scan 1))).isSome =
      (refresh (some (listRecentSessions scan 1))).isSome := by
  rw [isSome_activeSession, isSome_refresh]
  rcases listRecentSessions_one scan with ⟨-, h_list⟩ | ⟨row, a, -, h_list⟩
  · rw [h_list]
    rfl
  · rw [h_list]
    show Text.trimIsEmpty (sessionSummary (recentRow row a, [row.id])).endedAt = decide (_ = "")
    rw [trimIsEmpty_endedAt]
    exact Bool.eq_iff_iff.mpr ((endedAt_eq_empty_iff row a _).symm.trans decide_eq_true_iff.symm)

/-- **When the question tells.** Whatever the order of the visits, what is shown after the question
is right, if and only if the state meets `Tells`. -/
theorem tells_iff (answered : Bool) :
    (∀ answer recent, answer.isSome = answered → s.reply answer = some recent →
        ((refresh recent).isSome = true ↔ s.Open)) ↔ s.Tells answered := by
  cases answered with
  | false =>
    refine ⟨?_, ?_⟩
    · intro h_all h_open
      exact nomatch (h_all none none rfl rfl).mpr h_open
    · intro h_closed answer recent h_none h_reply
      cases answer with
      | none =>
        obtain rfl := Option.some.inj h_reply
        exact iff_of_false nofun h_closed
      | some rows => exact nomatch h_none
  | true =>
    -- without sessions there is no first row, and none is open
    have h_empty : s.db.sessions = [] → ¬ s.Open := by
      rintro h_nil ⟨-, row, h_row, -⟩
      rw [h_nil] at h_row
      exact List.not_mem_nil h_row
    have h_scans : (∀ scan : Scan s.db,
        ((refresh (some (listRecentSessions scan 1))).isSome = true ↔ s.Open)) ↔
          ∀ row ∈ s.db.sessions, s.db.Newest row → (row.isOpen = true ↔ s.Open) := by
      simp only [isSome_refresh]
      rw [forall_first_iff, and_iff_left h_empty]
      exact forall_congr' fun row => ⟨fun h _ => h, fun h h_newest => h h_newest.1 h_newest⟩
    rw [World.Tells, ← h_scans]
    -- the possible answers are the listings under the possible orders of the visits
    refine ⟨?_, ?_⟩
    · intro h_all h_there scan
      exact h_all (some scan.rows) _ rfl (dif_pos ⟨scan.perm, h_there⟩)
    · intro h_all answer recent h_some h_reply
      obtain ⟨rows, rfl⟩ := Option.isSome_iff_exists.mp h_some
      simp only [World.reply] at h_reply
      split at h_reply
      next h =>
        obtain rfl := Option.some.inj h_reply
        exact h_all h.2 ⟨rows, h.1⟩
      · exact nomatch h_reply

/-- The tray worker gets the same answer. -/
theorem isSome_activeSession_iff {answer : Option (List Session)}
    {recent : Option (List SessionSummary)} (h_reply : s.reply answer = some recent)
    (h_tells : s.Tells answer.isSome) : (activeSession recent).isSome = true ↔ s.Open := by
  -- the pill tells the truth exactly when the answer of the daemon does
  rw [← (tells_iff answer.isSome).mpr h_tells answer recent rfl h_reply]
  cases answer with
  | none =>
    obtain rfl := Option.some.inj h_reply
    exact Iff.rfl
  -- a daemon answers with the newest rows, in which an open one is looked for
  | some rows =>
    simp only [World.reply] at h_reply
    split at h_reply
    next h =>
      obtain rfl := Option.some.inj h_reply
      rw [isSome_activeSession_eq]
    · exact nomatch h_reply

end Questions

/-! ### What the tray will show -/

/-- What the tray will show after an update. A reconnection leaves it to the answer. -/
def TrayStateUpdate.foretells (shown : Option Bool) : TrayStateUpdate → Option Bool
  | tooltipStarted _ => some true
  | tooltipEnded => some false
  | daemonReconnected => none
  | themeChanged _ => shown

/-- What the tray will show when the worker has finished its update. -/
def World.shown (s : World) : Bool :=
  match s.worker with
  | .reconciling name => name.isSome
  | _ => s.tray.isActive

/-- What the tray will show when the worker has handled all that is before it. -/
def World.foretold (s : World) : Option Bool :=
  s.pending.foldl TrayStateUpdate.foretells (some s.shown)

/-- Updates without news change nothing, and others hide what was before. -/
theorem foldl_foretells (updates : List TrayStateUpdate) :
    updates.any TrayStateUpdate.isNews = false ∧
        (∀ shown, updates.foldl TrayStateUpdate.foretells shown = shown) ∨
      updates.any TrayStateUpdate.isNews = true ∧
        ∀ shown shown', updates.foldl TrayStateUpdate.foretells shown =
          updates.foldl TrayStateUpdate.foretells shown' := by
  induction updates with
  | nil => exact Or.inl ⟨rfl, fun _ => rfl⟩
  | cons update updates ih =>
    cases update with
    | themeChanged isDark => exact ih
    | tooltipStarted | tooltipEnded | daemonReconnected => exact Or.inr ⟨rfl, fun _ _ => rfl⟩

/-- The signals as updates, one by one. -/
theorem filterMap_listened_cons (signal : TrackerNotification) (signals : List TrackerNotification) :
    (signal :: signals).filterMap listened =
      (listened signal).toList ++ signals.filterMap listened := by
  rw [List.filterMap_eq_flatMap_toList, List.filterMap_eq_flatMap_toList, List.flatMap_cons]

theorem foretold_drained {s : World} (h : s.Drained) : s.foretold = some s.tray.isActive := by
  obtain ⟨-, h_pending, h_worker, -⟩ := h
  rw [World.foretold, h_pending, World.shown, h_worker]
  rfl

/-! ### The invariant -/

/-- What holds of every state of a run that is not misled. -/
structure Inv (s : World) : Prop where
  outbox : s.daemon ≠ .running → s.outbox = []
  started : ∀ id, s.unsent.getLast? = some (.tooltipStarted id) → s.Open
  wire : s.bridge ≠ .subscribed → s.wire = []
  unsubscribed : s.bridge ≠ .subscribed → s.ownerChanged = false ∧ s.foretold = some false
  subscribed : s.bridge = .subscribed → s.ownerChanged = false → s.unsent = [] →
    ∀ shown, s.foretold = some shown → (shown = true ↔ s.Open)

theorem Inv.initial (db : Database) (isDark : Bool) : Inv (initial db isDark) where
  outbox _ := rfl
  started := nofun
  wire _ := rfl
  unsubscribed _ := ⟨rfl, rfl⟩
  subscribed := nofun

theorem open_iff_rows {s : World} : s.Open ↔ s.daemon = .running ∧ s.db.openRows ≠ [] := by
  refine and_congr_right fun _ => ?_
  refine ⟨?_, ?_⟩
  · rintro ⟨row, h_row, h_open⟩ h_nil
    have h_mem : (row.id, row.applicationId) ∈ s.db.openRows :=
      Database.mem_openRows.mpr ⟨row, h_row, h_open, rfl, rfl⟩
    rw [h_nil] at h_mem
    exact List.not_mem_nil h_mem
  · intro h_rows
    obtain ⟨⟨sid, aid⟩, h_mem⟩ := List.exists_mem_of_ne_nil _ h_rows
    obtain ⟨row, h_row, h_open, -, -⟩ := Database.mem_openRows.mp h_mem
    exact ⟨row, h_row, h_open⟩

section Steps

variable {s : World}

/-- A step of the daemon leaves alone what is on its way. Where it sends nothing about a session, it
opens and closes none. -/
theorem Inv.daemonStep (hi : Inv s) {db : Database} {daemon : Daemon}
    {outbox : List TrackerNotification} (h_outbox : daemon ≠ .running → outbox = [])
    (h_started : ∀ id, (outbox.filterMap listened).getLast? = some (.tooltipStarted id) →
      World.Open { s with db := db, daemon := daemon, outbox := outbox })
    (h_silent : outbox.filterMap listened = [] → s.unsent = [] ∧
      (World.Open { s with db := db, daemon := daemon, outbox := outbox } ↔ s.Open)) :
    Inv { s with db := db, daemon := daemon, outbox := outbox } where
  outbox := h_outbox
  started := h_started
  wire := hi.wire
  unsubscribed := hi.unsubscribed
  subscribed h_bridge h_owner h_unsent shown h_shown := by
    obtain ⟨h_silent, h_open⟩ := h_silent h_unsent
    -- a step that announces nothing the tray listens to leaves an open session open
    rw [h_open]
    exact hi.subscribed h_bridge h_owner h_silent shown h_shown

theorem World.not_open_of_daemon (h : s.daemon ≠ .running) : ¬ s.Open := fun h_open => h h_open.1

/-- What happens while the daemon recovers opens nothing. -/
theorem Inv.recovery (hi : Inv s) {db : Database} {daemon : Daemon} (h_daemon : s.daemon = .recovering)
    (h_after : daemon = .running → db.openRows = []) : Inv { s with db := db, daemon := daemon } := by
  have h_not : s.daemon ≠ .running := by
    rw [h_daemon]
    exact nofun
  refine hi.daemonStep (fun _ => hi.outbox h_not) ?_ fun h_none => ⟨h_none, ?_⟩
  · rw [hi.outbox h_not]
    exact nofun
  · refine iff_of_false (fun h_open => ?_) (World.not_open_of_daemon h_not)
    obtain ⟨h_running, h_rows⟩ := open_iff_rows.mp h_open
    exact h_rows (h_after h_running)

theorem Inv.creates (hi : Inv s) {new : NewApplication} {app : Application} {db : Database}
    (h_daemon : s.daemon = .running) (h_ok : ApplicationRepo.create s.db new = .ok (app, db)) :
    Inv { s with db := db, outbox := s.outbox ++ [.applicationAdded app.id] } := by
  -- the tray does not listen to new applications
  have h_unsent : (s.outbox ++ [TrackerNotification.applicationAdded app.id]).filterMap listened
      = s.unsent := by
    rw [List.filterMap_append]
    exact List.append_nil _
  have h_open : World.Open { s with
      db := db, outbox := s.outbox ++ [.applicationAdded app.id] } ↔ s.Open := by
    rw [open_iff_rows, open_iff_rows, show db.openRows = _ from (create_rows h_ok).1]
  refine hi.daemonStep (fun h => absurd h_daemon h) ?_ fun h_none => ?_
  · -- the promise of a pending start carries over, as no row was touched
    intro id h_last
    rw [h_unsent] at h_last
    exact h_open.mpr (hi.started id h_last)
  · rw [h_unsent] at h_none
    exact ⟨h_none, h_open⟩

theorem Inv.opens (hi : Inv s) {applicationId : ℤ} {startedAt : OffsetDateTime} {row : Session}
    {db : Database} (h_daemon : s.daemon = .running)
    (h_ok : SessionRepo.begin s.db applicationId startedAt = .ok (row, db)) :
    Inv { s with db := db, outbox := s.outbox ++ [.sessionStarted applicationId] } := by
  refine hi.daemonStep (fun h => absurd h_daemon h) ?_ fun h_none => ?_
  · intro _ _
    refine open_iff_rows.mpr ⟨h_daemon, ?_⟩
    rw [show db.openRows = _ from (begin_rows h_ok).1]
    exact List.append_ne_nil_of_right_ne_nil _ (List.cons_ne_nil _ _)
  · rw [List.filterMap_append] at h_none
    exact nomatch (List.append_eq_nil_iff.mp h_none).2

/-- The end of a session says nothing of the others. It is judged when it is sent. -/
theorem Inv.closes (hi : Inv s) {applicationId full interactive : ℤ} {db : Database}
    (h_daemon : s.daemon = .running) :
    Inv { s with db := db, outbox := s.outbox ++ [.sessionEnded applicationId full interactive] } := by
  refine hi.daemonStep (fun h => absurd h_daemon h) ?_ fun h_none => ?_
  · intro id h_last
    rw [List.filterMap_append, List.getLast?_append] at h_last
    exact nomatch h_last
  · rw [List.filterMap_append] at h_none
    exact nomatch (List.append_eq_nil_iff.mp h_none).2

/-- The bus name changes its owner. -/
theorem Inv.ownerStep (hi : Inv s) (daemon : Daemon) :
    Inv { s with
      daemon := daemon, outbox := [], ownerChanged := decide (s.bridge = .subscribed) } where
  outbox _ := rfl
  started := nofun
  wire := hi.wire
  unsubscribed h_bridge := ⟨decide_eq_false h_bridge, (hi.unsubscribed h_bridge).2⟩
  subscribed h_bridge h_owner := absurd h_bridge (of_decide_eq_false h_owner)

/-- A disconnection leaves the tray idle. -/
theorem Inv.disconnected (hi : Inv s) {bridge : Bridge} (h_bridge : bridge ≠ .subscribed) :
    Inv (s.disconnected bridge) where
  outbox := hi.outbox
  started := hi.started
  wire _ := rfl
  unsubscribed _ := by
    refine ⟨rfl, ?_⟩
    show ((s.queue ++ [TrayStateUpdate.tooltipEnded]) ++ []).foldl TrayStateUpdate.foretells _ = some false
    rw [List.append_nil, List.foldl_append]
    rfl
  subscribed h := absurd h h_bridge

/-- A signal that is sent is the last word as far as it is about a session. -/
theorem foretold_emits (signal : TrackerNotification) (outbox : List TrackerNotification) :
    World.foretold { s with outbox := outbox, wire := s.wire ++ [signal] } =
      (listened signal).toList.foldl TrayStateUpdate.foretells s.foretold := by
  show (s.queue ++ (s.wire ++ [signal]).filterMap listened).foldl TrayStateUpdate.foretells _ = _
  rw [List.filterMap_append, ← List.append_assoc, List.foldl_append, filterMap_listened_cons,
    List.filterMap_nil, List.append_nil]
  rfl

theorem Inv.emits (hi : Inv s) {signal : TrackerNotification} {outbox : List TrackerNotification}
    (h_outbox : s.outbox = signal :: outbox) (h_sound : Sound s .emits) :
    Inv (if s.bridge = .subscribed then { s with outbox := outbox, wire := s.wire ++ [signal] }
      else { s with outbox := outbox }) := by
  have h_running : s.daemon = .running := by
    by_contra h_not
    rw [hi.outbox h_not] at h_outbox
    exact nomatch h_outbox
  have h_unsent : s.unsent = (listened signal).toList ++ outbox.filterMap listened := by
    rw [World.unsent, h_outbox, filterMap_listened_cons]
  -- the last signal about a session is the last one of those that are left, if any is
  have h_started : ∀ id, (outbox.filterMap listened).getLast? = some (.tooltipStarted id) →
      s.Open := by
    intro id h_last
    refine hi.started id ?_
    rw [h_unsent, List.getLast?_append, h_last]
    rfl
  split
  next h_bridge =>
    refine ⟨fun h_not => absurd h_running h_not, h_started, fun h_not => absurd h_bridge h_not,
      fun h_not => absurd h_bridge h_not, ?_⟩
    intro _ h_owner h_none shown h_shown
    have h_none : outbox.filterMap listened = [] := h_none
    rw [foretold_emits] at h_shown
    rw [h_none, List.append_nil] at h_unsent
    -- nothing else is to be sent, so the signal is the last word
    cases signal with
    | applicationAdded id => exact hi.subscribed h_bridge h_owner h_unsent shown h_shown
    | sessionStarted id =>
      obtain rfl := Option.some.inj h_shown
      exact iff_of_true rfl (hi.started id (by rw [h_unsent]; rfl))
    | sessionEnded id full interactive =>
      obtain rfl := Option.some.inj h_shown
      refine iff_of_false nofun (h_sound h_bridge h_owner ⟨?_, ?_⟩)
      · rw [h_outbox]
        rfl
      · rw [h_outbox]
        exact h_none
  next h_bridge =>
    -- the signal is lost, and what is before the worker is as it was
    exact ⟨fun h_not => absurd h_running h_not, h_started, hi.wire, hi.unsubscribed,
      fun h => absurd h h_bridge⟩

/-- A signal that is forwarded stays on its way. -/
theorem pending_forwards {signal : TrackerNotification} {wire : List TrackerNotification}
    (h_wire : s.wire = signal :: wire) :
    World.pending { s with wire := wire, queue := s.queue ++ (listened signal).toList } =
      s.pending := by
  rw [World.pending, World.pending, h_wire, List.append_assoc, filterMap_listened_cons]

/-- Where what is on its way to the tray tells the same, and the rest is as before, the invariant
holds as before. -/
theorem Inv.trayStep (hi : Inv s) {wire : List TrackerNotification} {queue : List TrayStateUpdate}
    {worker : Worker} {tray : LudexTray} {pill : Option SessionSummary}
    (h_wire : s.wire = [] → wire = [])
    (h_foretold : World.foretold { s with
      wire := wire, queue := queue, worker := worker, tray := tray, pill := pill } = s.foretold) :
    Inv { s with wire := wire, queue := queue, worker := worker, tray := tray, pill := pill } where
  outbox := hi.outbox
  started := hi.started
  -- the worker reads from the queue only; what the tray will show is untouched
  wire h_bridge := h_wire (hi.wire h_bridge)
  unsubscribed h_bridge := by
    rw [h_foretold]
    exact hi.unsubscribed h_bridge
  subscribed h_bridge h_owner h_unsent := by
    rw [h_foretold]
    exact hi.subscribed h_bridge h_owner h_unsent

theorem Inv.forwards (hi : Inv s) {signal : TrackerNotification} {wire : List TrackerNotification}
    (h_wire : s.wire = signal :: wire) :
    Inv { s with wire := wire, queue := s.queue ++ (listened signal).toList } := by
  refine hi.trayStep (fun h_nil => ?_) ?_
  · rw [h_wire] at h_nil
    exact nomatch h_nil
  · show (World.pending { s with wire := wire, queue := s.queue ++ (listened signal).toList }).foldl
      TrayStateUpdate.foretells (some s.shown) = s.foretold
    rw [pending_forwards h_wire]
    rfl

theorem foretold_subscribes (h_wire : s.wire = []) (isReconnect : Bool) :
    World.foretold { s with
      bridge := .subscribed
      queue := s.queue ++ if isReconnect then [.daemonReconnected] else [] } =
        if isReconnect then none else s.foretold := by
  show ((s.queue ++ if isReconnect then [TrayStateUpdate.daemonReconnected] else []) ++
    s.wire.filterMap listened).foldl TrayStateUpdate.foretells (some s.shown) = _
  rw [World.foretold, World.pending, h_wire, List.filterMap_nil, List.append_nil, List.append_nil,
    List.foldl_append]
  cases isReconnect with
  | true => rfl
  | false => rfl

/-- A subscription. After the first one nothing is asked. -/
theorem Inv.subscribes (hi : Inv s) {isReconnect : Bool} (h_bridge : s.bridge = .settingUp isReconnect)
    (h_sound : Sound s .subscribes) :
    Inv { s with
      bridge := .subscribed
      queue := s.queue ++ if isReconnect then [.daemonReconnected] else [] } := by
  have h_not : s.bridge ≠ .subscribed := by
    rw [h_bridge]
    exact nofun
  refine ⟨hi.outbox, hi.started, fun h => absurd rfl h, fun h => absurd rfl h, ?_⟩
  intro _ _ h_unsent shown h_shown
  rw [foretold_subscribes (hi.wire h_not)] at h_shown
  cases isReconnect with
  | true => exact nomatch h_shown
  | false =>
    -- the tray has been idle from the start
    obtain rfl := Option.some.inj ((hi.unsubscribed h_not).2.symm.trans h_shown)
    exact iff_of_false nofun (h_sound h_bridge h_unsent)

theorem Inv.themeChanges (hi : Inv s) (isDark : Bool) :
    Inv { s with queue := s.queue ++ [.themeChanged isDark] } := by
  refine hi.trayStep (fun h => h) ?_
  show ((s.queue ++ [TrayStateUpdate.themeChanged isDark]) ++ s.wire.filterMap listened).foldl
    TrayStateUpdate.foretells (some s.shown) = s.foretold
  rw [World.foretold, World.pending, List.foldl_append, List.foldl_append, List.foldl_append]
  rfl

/-- The worker takes an update. An answer is the last word only if no news is behind it. -/
theorem Inv.takes (hi : Inv s) {answer : Option (List Session)} {update : TrayStateUpdate}
    {queue : List TrayStateUpdate} {t : World} (h_worker : s.worker = .ready)
    (h_queue : s.queue = update :: queue) (h_sound : Sound s (.takes answer))
    (h : World.handle { s with queue := queue } answer update = some t) : Inv t := by
  have h_foretold : s.foretold = (queue ++ s.wire.filterMap listened).foldl
      TrayStateUpdate.foretells (update.foretells (some s.tray.isActive)) := by
    rw [World.foretold, World.pending, h_queue, World.shown, h_worker]
    rfl
  -- the tray shows at once what the update foretold, except for the one that asks
  cases update with
  | tooltipStarted id =>
    obtain rfl := Option.some.inj h
    exact hi.trayStep (fun h => h) h_foretold.symm
  | tooltipEnded =>
    obtain rfl := Option.some.inj h
    refine hi.trayStep (fun h => h) ?_
    rw [h_foretold, World.foretold, World.shown, h_worker]
    rfl
  | themeChanged isDark =>
    obtain rfl := Option.some.inj h
    refine hi.trayStep (fun h => h) ?_
    rw [h_foretold, World.foretold, World.shown, h_worker]
    rfl
  | daemonReconnected =>
    obtain ⟨recent, h_reply, rfl⟩ := Option.map_eq_some_iff.mp h
    have h_after : World.foretold { s with
        queue := queue, worker := .reconciling (activeSession recent) } =
          (queue ++ s.wire.filterMap listened).foldl TrayStateUpdate.foretells
            (some (activeSession recent).isSome) := rfl
    rcases foldl_foretells (queue ++ s.wire.filterMap listened) with ⟨h_none, h_keep⟩ | ⟨-, h_hide⟩
    · -- the answer is the last word
      rw [h_keep] at h_after
      rw [h_keep] at h_foretold
      refine ⟨hi.outbox, hi.started, hi.wire, ?_, ?_⟩
      · intro h_bridge
        rw [(hi.unsubscribed h_bridge).2] at h_foretold
        exact nomatch h_foretold
      · intro _ h_owner h_unsent shown h_shown
        rw [show World.foretold _ = _ from h_after] at h_shown
        obtain rfl := Option.some.inj h_shown
        refine isSome_activeSession_iff (s := s) h_reply (h_sound ⟨?_, h_unsent, h_owner, ?_⟩)
        · rw [h_queue]
          rfl
        · rw [World.pending, h_queue]
          exact h_none
    · -- it does not matter
      refine hi.trayStep (fun h => h) ?_
      rw [h_foretold]
      exact h_hide _ _

/-- The worker finishes an update. -/
theorem Inv.lands (hi : Inv s) {worker : Worker} {tray : LudexTray}
    (h_shown : World.shown { s with worker := worker, tray := tray } = s.shown) :
    Inv { s with worker := worker, tray := tray } := by
  refine hi.trayStep (fun h => h) ?_
  show s.pending.foldl TrayStateUpdate.foretells (some (World.shown _)) = s.foretold
  rw [show World.shown _ = s.shown from h_shown]
  rfl

/-- **A step that does not mislead the tray keeps the invariant.** -/
theorem Inv.step {t : World} {a : Action} (h : Step s a t) (hi : Inv s) (h_sound : Sound s a) :
    Inv t := by
  -- one case for each action; the guards of `next` become the premises of the lemma it is for
  unfold Step at h
  cases a with
  | starts =>
    simp only [next] at h
    split at h
    -- a daemon that is not running has nothing in its outbox, so nothing is lost with it
    next h_daemon =>
      have h_outbox : s.outbox = [] := by
        refine hi.outbox ?_
        rw [h_daemon]
        exact nofun
      obtain rfl := Option.some.inj h
      have h_after := hi.ownerStep .recovering
      rwa [← h_outbox] at h_after
    · exact nomatch h
  | recovers sessionId applicationId snapshot =>
    simp only [next] at h
    split at h
    next db h_daemon _ =>
      obtain rfl := Option.some.inj h
      -- recovery closes rows without a signal, but only before the name is owned
      refine hi.recovery h_daemon fun h_running => ?_
      rw [h_daemon] at h_running
      exact nomatch h_running
    · exact nomatch h
  | runs =>
    simp only [next] at h
    split at h
    -- the daemon runs from here on: by the guard no row was left open
    next h_guard =>
      obtain rfl := Option.some.inj h
      exact hi.recovery h_guard.1 fun _ => h_guard.2
    · exact nomatch h
  | dies =>
    simp only [next] at h
    split at h
    · exact nomatch h
    · obtain rfl := Option.some.inj h
      exact hi.ownerStep .absent
  | creates new =>
    simp only [next] at h
    split at h
    next app db h_daemon h_ok =>
      obtain rfl := Option.some.inj h
      exact hi.creates h_daemon h_ok
    · exact nomatch h
  | opens applicationId startedAt =>
    simp only [next] at h
    split at h
    next row db h_daemon h_ok =>
      obtain rfl := Option.some.inj h
      exact hi.opens h_daemon h_ok
    · exact nomatch h
  | closes sessionId applicationId snapshot reason =>
    simp only [next] at h
    split at h
    next db h_daemon _ =>
      obtain rfl := Option.some.inj h
      exact hi.closes h_daemon
    · exact nomatch h
  | emits =>
    simp only [next] at h
    split at h
    next signal outbox h_outbox =>
      -- the signal reaches the tray only where the bridge has subscribed
      have h_after := hi.emits h_outbox h_sound
      split at h <;> obtain rfl := Option.some.inj h
      · rwa [if_pos ‹_›] at h_after
      · rwa [if_neg ‹_›] at h_after
    · exact nomatch h
  | subscribes =>
    simp only [next] at h
    split at h
    next isReconnect h_bridge =>
      obtain rfl := Option.some.inj h
      exact hi.subscribes h_bridge h_sound
    · exact nomatch h
  | setupFails awaited =>
    simp only [next] at h
    split at h
    · obtain rfl := Option.some.inj h
      refine hi.disconnected ?_
      split <;> exact nofun
    · exact nomatch h
  | forwards =>
    simp only [next] at h
    split at h
    next signal wire h_wire =>
      obtain rfl := Option.some.inj h
      exact hi.forwards h_wire
    · exact nomatch h
  | noticesOwner =>
    simp only [next] at h
    split at h
    · obtain rfl := Option.some.inj h
      -- a lost name, a closed stream and a failed setup all put the disconnected update in the
      -- queue
      exact hi.disconnected nofun
    · exact nomatch h
  | streamsClose =>
    simp only [next] at h
    split at h
    · obtain rfl := Option.some.inj h
      exact hi.disconnected nofun
    · exact nomatch h
  | themeChanges isDark =>
    obtain rfl := Option.some.inj h
    exact hi.themeChanges isDark
  | takes answer =>
    simp only [next] at h
    split at h
    next update queue h_worker h_queue => exact hi.takes h_worker h_queue h_sound h
    · exact nomatch h
  | lands answered =>
    simp only [next] at h
    split at h
    next id h_worker =>
      obtain rfl := Option.some.inj h
      refine hi.lands ?_
      -- the update that lands is the one the worker was busy with
      rw [World.shown, World.shown, h_worker]
      rfl
    next name h_worker =>
      obtain rfl := Option.some.inj h
      refine hi.lands ?_
      rw [World.shown, World.shown, h_worker]
      rfl
    next h_worker =>
      obtain rfl := Option.some.inj h
      refine hi.lands ?_
      rw [World.shown, World.shown, h_worker]
      rfl
    · exact nomatch h
  | refreshes answer =>
    obtain ⟨recent, -, rfl⟩ := Option.map_eq_some_iff.mp h
    -- the pill refetches on its own; the tray does not see it
    exact hi.trayStep (fun h => h) rfl

end Steps

/-! ### The indicators -/

/-- The tray is right where nothing is on its way to it. -/
theorem Inv.isActive_iff {s : World} (hi : Inv s) (h : s.Drained) :
    s.tray.isActive = true ↔ s.bridge = .subscribed ∧ s.Open := by
  have h_shown := foretold_drained h
  by_cases h_bridge : s.bridge = .subscribed
  · rw [and_iff_right h_bridge]
    exact hi.subscribed h_bridge h.2.2.2 h.1 _ h_shown
  · refine iff_of_false (fun h_active => ?_) fun h => h_bridge h.1
    rw [(hi.unsubscribed h_bridge).2, h_active] at h_shown
    exact nomatch h_shown

/-- It says whether a session is open, unless one is and the forwarder is not subscribed. -/
theorem Inv.right_iff {s : World} (hi : Inv s) (h : s.Drained) :
    (s.tray.isActive = true ↔ s.Open) ↔ s.bridge = .subscribed ∨ ¬ s.Open := by
  have h_active := hi.isActive_iff h
  refine ⟨fun h_right => ?_, fun h_told => ?_⟩
  · by_cases h_open : s.Open
    · exact Or.inl (h_active.mp (h_right.mpr h_open)).1
    · exact Or.inr h_open
  · refine ⟨fun h_shows => (h_active.mp h_shows).2, fun h_open => h_active.mpr ⟨?_, h_open⟩⟩
    exact h_told.resolve_right (not_not_intro h_open)

/-- **The live indicators.** In a run none of whose steps misleads the tray, the tray is active if and
only if a session is open, in every state where nothing is on its way to it, exactly when the
forwarder is subscribed or no session is open there. In every state of any run, the pill shows a
session after each possible refresh if and only if one is open, exactly when the question tells. -/
theorem indicators_sound {db : Database} {isDark : Bool} {tr : List (Action × World)}
    (hrun : IsRun Step (initial db isDark) tr) :
    ((∀ x ∈ steps (initial db isDark) tr, Sound x.1 x.2.1) →
      ∀ s ∈ states (initial db isDark) tr, s.Drained →
        ((s.tray.isActive = true ↔ s.Open) ↔ s.bridge = .subscribed ∨ ¬ s.Open)) ∧
    ∀ s ∈ states (initial db isDark) tr, ∀ answered,
      ((∀ answer t, answer.isSome = answered → Step s (.refreshes answer) t →
          (t.pill.isSome = true ↔ t.Open)) ↔ s.Tells answered) := by
  refine ⟨?_, ?_⟩
  · intro h_sound s hs h_drained
    -- the run keeps the invariant, and a drained state reads the tray's answer off it
    have hi := hrun.invariant_of_steps Inv Sound (fun _ _ _ h h_sound hi => hi.step h h_sound)
      h_sound (.initial db isDark) s hs
    exact hi.right_iff h_drained
  · -- the pill has no history: what it shows is decided by the one answer
    intro s _ answered
    rw [← tells_iff]
    refine ⟨?_, ?_⟩
    · intro h_all answer recent h_answered h_reply
      refine h_all answer { s with pill := refresh recent } h_answered ?_
      show (s.reply answer).map _ = _
      rw [h_reply]
      rfl
    · intro h_all answer t h_answered h_step
      obtain ⟨recent, h_reply, rfl⟩ := Option.map_eq_some_iff.mp h_step
      exact h_all answer recent h_answered h_reply

/-- Two games that have not been played. -/
def twoGames : Database where
  applications := [ApplicationRepo.newRow 1 (newSteam "10" (.firstDay 0)),
    ApplicationRepo.newRow 2 (newSteam "20" (.firstDay 0))]
  sessions := []
  groups := []
  applicationSeq := 2
  sessionSeq := 0
  checks := by decide
  uniques := by decide
  foreignKeys := by decide

/-- The daemon is killed while a game runs, and another one finds the game. -/
def restarted : List (Action × World) :=
  trace next (initial twoGames false)
    [.starts, .runs, .subscribes, .opens 1 (.firstDay 100), .emits, .forwards, .takes none,
      .lands true, .dies, .noticesOwner, .takes none, .starts,
      .recovers 1 1 ⟨60, 50, .firstDay 160⟩, .runs, .subscribes, .opens 1 (.firstDay 200),
      .takes (some [closeRow ⟨60, 50, .firstDay 160⟩ .recovered (newRow 1 1 (.firstDay 100)),
        newRow 2 1 (.firstDay 200)]),
      .lands true, .emits, .forwards, .takes none, .lands true,
      .refreshes (some [newRow 2 1 (.firstDay 200),
        closeRow ⟨60, 50, .firstDay 160⟩ .recovered (newRow 1 1 (.firstDay 100))])]

/-- The rule on it, where every step is taken and none misleads the tray. -/
theorem indicators_sound_restarted :
    restarted.length = 23 ∧
      (((∀ x ∈ steps (initial twoGames false) restarted, Sound x.1 x.2.1) →
        ∀ s ∈ states (initial twoGames false) restarted, s.Drained →
          ((s.tray.isActive = true ↔ s.Open) ↔ s.bridge = .subscribed ∨ ¬ s.Open)) ∧
      ∀ s ∈ states (initial twoGames false) restarted, ∀ answered,
        ((∀ answer t, answer.isSome = answered → Step s (.refreshes answer) t →
          (t.pill.isSome = true ↔ t.Open)) ↔ s.Tells answered)) ∧
      (∀ x ∈ steps (initial twoGames false) restarted, Sound x.1 x.2.1) ∧
      (final (initial twoGames false) restarted).Drained ∧
      (final (initial twoGames false) restarted).bridge = .subscribed ∧
      (final (initial twoGames false) restarted).tray =
        ⟨false, true, "ludex · " ++ (newSteam "10" (.firstDay 0)).productName⟩ ∧
      (final (initial twoGames false) restarted).pill.isSome = true :=
  ⟨by decide +kernel, indicators_sound (isRun_trace next _ _), by decide +kernel,
    by decide +kernel, by decide +kernel, by decide +kernel, by decide +kernel⟩

/-- No call of the applet fails. -/
def Answered (s : World) : Action → Prop
  | .takes answer => s.queue.head? = some .daemonReconnected → answer ≠ none
  | .lands answered => answered = true
  | .refreshes answer => answer ≠ none
  | _ => True

instance (s : World) : (a : Action) → Decidable (Answered s a)
  | .takes answer => inferInstanceAs (Decidable (_ = _ → answer ≠ none))
  | .lands answered => inferInstanceAs (Decidable (answered = true))
  | .refreshes answer => inferInstanceAs (Decidable (answer ≠ none))
  | .starts | .recovers _ _ _ | .runs | .dies | .creates _ | .opens _ _ | .closes _ _ _ _ | .emits
  | .subscribes | .setupFails _ | .forwards | .noticesOwner | .streamsClose | .themeChanges _ =>
    instDecidableTrue

/-- The pill refreshes. -/
def Action.isRefresh : Action → Bool
  | refreshes _ => true
  | _ => false

/-- Two games are played, and the first one is closed. -/
def firstClosed : List (Action × World) :=
  trace next (initial twoGames false)
    [.starts, .runs, .subscribes, .opens 1 (.firstDay 100), .emits, .forwards, .takes none,
      .lands true, .opens 2 (.firstDay 200), .emits, .forwards, .takes none, .lands true,
      .closes 1 1 ⟨200, 150, .firstDay 300⟩ .terminated, .emits, .forwards, .takes none]

/-- Two games are played, and the second one is closed. -/
def secondClosed : List (Action × World) :=
  trace next (initial twoGames false)
    [.starts, .runs, .subscribes, .opens 1 (.firstDay 100), .opens 2 (.firstDay 200),
      .closes 2 2 ⟨100, 50, .firstDay 300⟩ .terminated,
      .refreshes (some [newRow 1 1 (.firstDay 100),
        closeRow ⟨100, 50, .firstDay 300⟩ .terminated (newRow 2 2 (.firstDay 200))])]

/-- Neither indicator is right in every run, even if no call fails: while the other game is still
played, the tray is idle after the end of the first, and the pill is gone after the end of the
second. -/
theorem not_indicators :
    (¬ ∀ (db : Database) (isDark : Bool) (tr : List (Action × World)),
        IsRun Step (initial db isDark) tr →
        (∀ x ∈ steps (initial db isDark) tr, Answered x.1 x.2.1) →
        ∀ s ∈ states (initial db isDark) tr, s.Drained → s.bridge = .subscribed →
          (s.tray.isActive = true ↔ s.Open)) ∧
      ¬ ∀ (db : Database) (isDark : Bool) (tr : List (Action × World)),
        IsRun Step (initial db isDark) tr →
        (∀ x ∈ steps (initial db isDark) tr, Answered x.1 x.2.1) →
        ∀ x ∈ steps (initial db isDark) tr, x.2.1.isRefresh = true →
          (x.2.2.pill.isSome = true ↔ x.2.2.Open) := by
  refine ⟨?_, ?_⟩
  · intro h_all
    -- the first run closes one of two open sessions, and the tray goes idle
    have h_tray := h_all twoGames false firstClosed (isRun_trace next _ _) (by decide +kernel)
    revert h_tray
    decide +kernel
  · intro h_all
    -- the second closes the newer one, and the pill goes with it
    have h_pill := h_all twoGames false secondClosed (isRun_trace next _ _) (by decide +kernel)
    revert h_pill
    decide +kernel

end Indicators

end Ludex
