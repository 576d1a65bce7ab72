import Mathlib.Logic.Relation
import Ludex.Lib.Run
import Ludex.Core.OpenRows
import Ludex.Daemon.SessionManager

/-!
# What the session manager can do

`Move` lists what the manager does to its memory and the database on a given occasion (an event, a
heartbeat tick, the shutdown), one transaction with its effect in memory at a time. A handler is a
chain of moves (`turn_moves`, `closeAllOpen_moves`), whatever the fates of its transactions, and when
the process dies in a handler the database it leaves is one that a chain of moves leads to. The
invariants of the following modules are properties that every move preserves.

A close that fails is the move `stranded`: the session is out of the map, its row is still open, and
the failure is in the log.
-/

namespace Ludex

open Transact SessionManager

/-- A record that neither opens a session nor refuses to. -/
def LogRecord.isPlain : LogRecord → Bool
  | opened _ _ _ _ | openSessionExists _ _ => false
  | _ => true

theorem LogRecord.isPlain_of_isFailure {record : LogRecord} (h : record.isFailure = true) :
    record.isPlain = true := by
  cases record with
  | eventFailed e => rfl
  | heartbeatFailed e => rfl
  | closeFailed e => rfl
  | _ => exact absurd h Bool.false_ne_true

/-- What the manager is doing something about. -/
inductive Occasion where
  | started (key : GameKey) (at_ : OffsetDateTime)
  | stopped (key : GameKey)
  | tick
  | shutdown

/-- The occasion of a turn. -/
def SessionManager.Input.occasion : Input → Occasion
  | event (.started key _ _ at_) _ _ => .started key at_
  | event (.stopped key _) _ _ => .stopped key
  | heartbeat _ _ _ _ => .tick

/-- The occasion closes the session of a key. -/
def Occasion.Closes (key : GameKey) : Occasion → Prop
  | stopped key' => key = key'
  | shutdown => True
  | _ => False

/-- What the manager does on an occasion. -/
inductive Move (on : Occasion) : Live → Live → Prop
  | noted {m : SessionManager} {d : Database} (record : LogRecord) : record.isPlain = true →
      Move on (m, d) (m.noted record, d)
  | notified {m : SessionManager} {d : Database} (notification : TrackerNotification) :
      Move on (m, d) (m.notified notification, d)
  /-- The database holds an open session of a game that the map does not. -/
  | refused {m : SessionManager} {d : Database} (key : GameKey) (at_ : OffsetDateTime) (aid : ℤ) :
      on = .started key at_ → key ∉ m.open_ → (aid, key) ∈ d.keyRows →
      (∃ sid, (sid, aid) ∈ d.openRows) →
      Move on (m, d) (m.noted (.openSessionExists key aid), d)
  | created {m : SessionManager} {d d' : Database} (key : GameKey) (displayName : String)
      (executablePath : Option PathBuf) (at_ : OffsetDateTime) (app : Application) :
      on = .started key at_ →
      ApplicationRepo.create d (firstSeen key displayName executablePath at_) = .ok (app, d') →
      Move on (m, d) (m, d')
  | opened {m : SessionManager} {d d' : Database} (key : GameKey) (at_ : OffsetDateTime)
      (aid : ℤ) (row : Session) (o : OpenSession) : on = .started key at_ → key ∉ m.open_ →
      (aid, key) ∈ d.keyRows → SessionRepo.begin d aid at_ = .ok (row, d') →
      o.sessionId = row.id → o.applicationId = aid →
      Move on (m, d)
        ({ m.noted (.opened key at_ aid row.id) with open_ := m.open_.insert key o }, d')
  | beat {m : SessionManager} {d d' : Database} (key : GameKey) (o : OpenSession) (sample : Sample)
      (at_ : OffsetDateTime) : on = .tick → m.open_.lookup key = some o →
      SessionRepo.heartbeat d o.sessionId (snapshotOf o sample at_) = .ok d' →
      Move on (m, d) (m, d')
  | closed {m : SessionManager} {d d' : Database} (key : GameKey) (o : OpenSession)
      (sample : Sample) (at_ : OffsetDateTime) (reason : ExitReason) : on.Closes key →
      m.open_.lookup key = some o →
      SessionRepo.closeAndRollup d o.sessionId o.applicationId (snapshotOf o sample at_) reason =
        .ok d' →
      Move on (m, d) ({ m with open_ := m.open_.erase key }, d')
  /-- A close that failed. -/
  | stranded {m : SessionManager} {d : Database} (key : GameKey) (o : OpenSession)
      (record : LogRecord) : on.Closes key → m.open_.lookup key = some o →
      record.isFailure = true →
      Move on (m, d) (({ m with open_ := m.open_.erase key } : SessionManager).noted record, d)

/-- A chain of moves. -/
abbrev Moves (on : Occasion) : Live → Live → Prop := Relation.ReflTransGen (Move on)

/-- The postcondition of a handler: a chain of moves, of which the log of its error is part. -/
def Did (on : Occasion) (s : Live) : Except Error Unit → SessionManager → Database → Prop
  | .ok _, m, d => Moves on s (m, d)
  | .error _, m, d => ∀ record : LogRecord, record.isFailure = true → Moves on s (m.noted record, d)

/-- The crash condition of a handler. -/
def Left (on : Occasion) (s : Live) (d : Database) : Prop := ∃ m, Moves on s (m, d)

section Handlers

variable {on : Occasion} {s : Live} {m : SessionManager} {d : Database}

/-- An error before anything else has happened. -/
theorem Did.error (h : Moves on s (m, d)) (e : Error) : Did on s (.error e) m d :=
  fun record h_failure => h.tail (.noted record (record.isPlain_of_isFailure h_failure))

/-- A query, before the rest of the program. -/
theorem wp_read_bind {α β : Type} {f : Database → α} {k : α → Handler β}
    {Q : Except Error β → SessionManager → Database → Prop} {C : Database → Prop}
    (h : wp (k (f d)) Q C m d) (h_error : ∀ e, Q (.error e) m d) (h_crash : C d) :
    wp (read f >>= k) Q C m d := by
  apply wp_bind
  unfold SessionManager.read SessionManager.transact
  apply wp_transact
  · intro a d' h_ok
    obtain ⟨rfl, rfl⟩ := Prod.mk.inj (Except.ok.inj h_ok)
    exact h
  · intro e h_refused
    exact nomatch h_refused
  · exact h_error _
  · exact h_crash

/-- A write, before the rest of the program. -/
theorem wp_write {op : Database → Except Error Database}
    {Q : Except Error Unit → SessionManager → Database → Prop} {C : Database → Prop}
    (h : ∀ d', op d = .ok d' → Q (.ok ()) m d') (h_error : ∀ e, Q (.error e) m d) (h_crash : C d) :
    wp (write op) Q C m d := by
  apply wp_transact
  · intro a d' h_ok
    obtain ⟨d₁, h_op, h_eq⟩ := Except.map_eq_ok.mp h_ok
    obtain ⟨-, rfl⟩ := Prod.mk.inj h_eq
    exact h d₁ h_op
  · intro e _
    exact h_error e
  · exact h_error _
  · exact h_crash

theorem findOrCreateApplication_moves (h : Moves on s (m, d)) {key : GameKey} {now : OffsetDateTime}
    (h_on : on = .started key now) (displayName : String) (executablePath : Option PathBuf) :
    wp (findOrCreateApplication key displayName executablePath now)
      (onReturn (fun app m' d' =>
        Moves on s (m', d') ∧ (app.id, key) ∈ d'.keyRows ∧ m'.open_ = m.open_) (Did on s))
      (Left on s) m d := by
  unfold findOrCreateApplication
  refine wp_read_bind ?_ (fun e => Did.error h e) ⟨m, h⟩
  cases h_found : ApplicationRepo.findByKey d key with
  | some app =>
    -- the game is known
    obtain ⟨h_mem, h_key⟩ := ApplicationRepo.findByKey_some h_found
    exact wp_pure ⟨h, Database.mem_keyRows.mpr ⟨app, h_mem, rfl, h_key⟩, rfl⟩
  | none =>
    apply wp_bind
    apply wp_transact
    · intro app d' h_create
      obtain ⟨-, h_keys, h_key⟩ := create_rows h_create
      have h_moves : Moves on s (m, d') := h.tail (.created key _ _ now app h_on h_create)
      apply wp_modify_bind
      refine wp_pure ⟨h_moves.tail (.notified _), ?_, rfl⟩
      rw [h_keys, h_key]
      exact List.mem_append_right _ List.mem_cons_self
    · intro e _
      exact Did.error h e
    · exact Did.error h (.sql .io)
    · exact ⟨m, h⟩

theorem openSession_moves (h : Moves on s (m, d)) {key : GameKey} {at_ : OffsetDateTime}
    (h_on : on = .started key at_) {app : Application} (h_key : (app.id, key) ∈ d.keyRows)
    (h_absent : key ∉ m.open_) (sample : Sample) :
    wp (openSession key at_ sample app) (Did on s) (Left on s) m d := by
  unfold openSession
  apply wp_bind
  apply wp_attempt
  apply wp_transact
  · -- the insert went through: the row and the entry appear, then the notification
    intro row d' h_begin
    have h_opened : Moves on s _ := h.tail
      (.opened key at_ app.id row (openFor row app sample) h_on h_absent h_key h_begin rfl rfl)
    apply wp_modify_bind
    apply wp_modify_bind
    exact wp_modify (h_opened.tail (.notified _))
  · -- the insert was refused: for an open row it is logged, any other error is passed on
    intro e h_begin
    cases e with
    | openSessionExists aid =>
      obtain ⟨rfl, h_open⟩ := begin_refused h_begin
      exact wp_modify (h.tail (.refused key at_ app.id h_on h_absent h_key h_open))
    | sql e => exact wp_throw (Did.error h _)
    | invariant message => exact wp_throw (Did.error h _)
  · exact wp_throw (Did.error h _)
  · exact ⟨m, h⟩

theorem handleStarted_moves (h : Moves on s (m, d)) {key : GameKey} {at_ : OffsetDateTime}
    (h_on : on = .started key at_) (displayName : String) (executablePath : Option PathBuf)
    (blocklist : List GameKey) (sample : Sample) :
    wp (handleStarted key displayName executablePath at_ blocklist sample) (Did on s) (Left on s) m d := by
  unfold handleStarted
  apply wp_get_bind
  -- blocked, already open, and the case in which the start is accepted
  by_cases h_blocked : key ∈ blocklist
  · rw [if_pos h_blocked]
    exact wp_modify (h.tail (.noted _ rfl))
  rw [if_neg h_blocked]
  by_cases h_open : key ∈ m.open_
  · rw [if_pos h_open]
    exact wp_modify (h.tail (.noted _ rfl))
  rw [if_neg h_open]
  apply wp_bind
  -- the new application does not touch the map, so the key is still absent
  refine wp_mono (findOrCreateApplication_moves h h_on displayName executablePath) ?_
    (fun _ h_left => h_left)
  rintro (e | app) m' d' h_post
  · exact h_post
  · obtain ⟨h_moves, h_key, h_same⟩ := h_post
    exact openSession_moves h_moves h_on h_key (h_same ▸ h_open) sample

/-- How the manager answers a `Started`: what it finds, and what that makes of its map and its log. -/
inductive Answer (key : GameKey) (at_ : OffsetDateTime) (blocklist : List GameKey)
    (m : SessionManager) : Except Error Unit → SessionManager → Prop
  | blocked {m' : SessionManager} : key ∈ blocklist → m'.open_ = m.open_ →
      m'.log = m.log ++ [.blocked key] → Answer key at_ blocklist m (.ok ()) m'
  | alreadyOpen {m' : SessionManager} : key ∉ blocklist → key ∈ m.open_ → m'.open_ = m.open_ →
      m'.log = m.log ++ [.alreadyOpen key] → Answer key at_ blocklist m (.ok ()) m'
  | opened {m' : SessionManager} (o : OpenSession) (aid sid : ℤ) : key ∉ blocklist →
      key ∉ m.open_ → m'.open_ = m.open_.insert key o →
      m'.log = m.log ++ [.opened key at_ aid sid] → Answer key at_ blocklist m (.ok ()) m'
  /-- The database holds an open session of the game. -/
  | refused {m' : SessionManager} (aid : ℤ) : key ∉ blocklist → key ∉ m.open_ →
      m'.open_ = m.open_ → m'.log = m.log ++ [.openSessionExists key aid] →
      Answer key at_ blocklist m (.ok ()) m'
  | failed {m' : SessionManager} (e : Error) : key ∉ blocklist → key ∉ m.open_ →
      m'.open_ = m.open_ → m'.log = m.log → Answer key at_ blocklist m (.error e) m'

/-- To find or to create an application touches neither the map nor the log. -/
theorem findOrCreateApplication_memory (key : GameKey) (displayName : String)
    (executablePath : Option PathBuf) (now : OffsetDateTime) :
    wp (findOrCreateApplication key displayName executablePath now)
      (fun _ m' _ => m'.open_ = m.open_ ∧ m'.log = m.log) (fun _ => True) m d := by
  unfold findOrCreateApplication
  -- neither the lookup nor the insert touches the map or the log
  refine wp_read_bind ?_ (fun _ => ⟨rfl, rfl⟩) trivial
  cases ApplicationRepo.findByKey d key with
  | some app => exact wp_pure ⟨rfl, rfl⟩
  | none =>
    apply wp_bind
    apply wp_transact
    · intro app d' _
      apply wp_modify_bind
      exact wp_pure ⟨rfl, rfl⟩
    · intro e _
      exact ⟨rfl, rfl⟩
    · exact ⟨rfl, rfl⟩
    · trivial

/-- **A `Started` has an answer**, whatever the fates of its transactions. -/
theorem handleStarted_answer (key : GameKey) (displayName : String)
    (executablePath : Option PathBuf) (at_ : OffsetDateTime) (blocklist : List GameKey)
    (sample : Sample) :
    wp (handleStarted key displayName executablePath at_ blocklist sample)
      (fun r m' _ => Answer key at_ blocklist m r m') (fun _ => True) m d := by
  -- the same path once more, this time for what the manager answers
  unfold handleStarted
  apply wp_get_bind
  by_cases h_blocked : key ∈ blocklist
  · rw [if_pos h_blocked]
    exact wp_modify (.blocked h_blocked rfl rfl)
  rw [if_neg h_blocked]
  by_cases h_open : key ∈ m.open_
  · rw [if_pos h_open]
    exact wp_modify (.alreadyOpen h_blocked h_open rfl rfl)
  rw [if_neg h_open]
  apply wp_bind
  refine wp_mono (findOrCreateApplication_memory key displayName executablePath at_) ?_
    (fun _ _ => trivial)
  rintro (e | app) m' d' ⟨h_map, h_log⟩
  · -- the application could not be found or made: nothing was opened
    exact .failed e h_blocked h_open h_map h_log
  · show wp (openSession key at_ sample app) _ _ m' d'
    unfold openSession
    apply wp_bind
    apply wp_attempt
    apply wp_transact
    · -- the one way on which the map and the log record an opening
      intro row d'' _
      apply wp_modify_bind
      apply wp_modify_bind
      apply wp_modify
      exact .opened (openFor row app sample) app.id row.id h_blocked h_open
        (congrArg (AList.insert key _) h_map) (congrArg (· ++ [_]) h_log)
    · intro e _
      -- the database refused a second open row
      cases e with
      | openSessionExists aid =>
        exact wp_modify (.refused aid h_blocked h_open h_map (congrArg (· ++ [_]) h_log))
      | sql e => exact wp_throw (.failed _ h_blocked h_open h_map h_log)
      | invariant message => exact wp_throw (.failed _ h_blocked h_open h_map h_log)
    · exact wp_throw (.failed _ h_blocked h_open h_map h_log)
    · trivial

/-- A close, with the session still in the map of the state the moves have led to. -/
theorem closeSession_moves {key : GameKey} {o : OpenSession} {opens : AList fun _ => OpenSession}
    (h : Moves on s (({ m with open_ := opens } : SessionManager), d))
    (h_closes : on.Closes key) (h_lookup : opens.lookup key = some o) (at_ : OffsetDateTime)
    (reason : ExitReason) (sample : Sample) :
    wp (closeSession o at_ reason sample)
      (fun r m' d' =>
        m'.open_ = m.open_ ∧ Did on s r { m' with open_ := opens.erase key } d')
      (Left on s) m d := by
  -- the caller has taken the entry out of its copy of the map
  unfold closeSession
  apply wp_bind
  apply wp_write
  · -- the row is closed before the log and the notification
    intro d' h_close
    have h_closed : Moves on s _ := h.tail (.closed key o sample at_ reason h_closes h_lookup h_close)
    apply wp_modify_bind
    apply wp_modify
    exact ⟨rfl, (h_closed.tail (.noted _ rfl)).tail (.notified _)⟩
  · -- a row that cannot be closed is left stranded, and the log says so
    intro e
    exact ⟨rfl, fun record h_failure =>
      h.tail (.stranded key o record h_closes h_lookup h_failure)⟩
  · exact ⟨_, h⟩

theorem handleStopped_moves (h : Moves on s (m, d)) {key : GameKey} (h_closes : on.Closes key)
    (at_ : OffsetDateTime) (sample : Sample) :
    wp (handleStopped key at_ sample) (Did on s) (Left on s) m d := by
  unfold handleStopped
  apply wp_get_bind
  cases h_lookup : m.open_.lookup key with
  | none => exact wp_modify (h.tail (.noted _ rfl))
  | some o =>
    -- the session is out of the map now, but nothing has happened to it yet
    let taken : SessionManager := { m with open_ := m.open_.erase key }
    have h_before : Moves on s (({ taken with open_ := m.open_ } : SessionManager), d) := h
    apply wp_modify_bind
    refine wp_mono (closeSession_moves h_before h_closes h_lookup at_ .terminated sample) ?_
      (fun _ h_left => h_left)
    rintro r m' d' ⟨h_erased, h_did⟩
    -- erasing the key a second time changes nothing
    have h_same : ({ m' with open_ := m.open_.erase key } : SessionManager) = m' := by
      rw [← show m'.open_ = m.open_.erase key from h_erased]
    rwa [h_same] at h_did

theorem heartbeatOpenSessions_moves (h : Moves on s (m, d)) (h_on : on = .tick)
    (at_ : OffsetDateTime) (now : Instant) (idleGrace : ℕ) (order : List (GameKey × IdleReading)) :
    wp (heartbeatOpenSessions at_ now idleGrace order) (Did on s) (Left on s) m d := by
  unfold heartbeatOpenSessions
  apply wp_get_bind
  -- the memory does not change, and what is still to do are sessions of the map
  apply wp_forM fun xs m' d' => Moves on s (m', d') ∧ m' = m ∧
    ∀ x ∈ xs, ∃ key, m.open_.lookup key = some x.1
  · rintro ⟨o, idle⟩ xs m' d' ⟨h_moves, rfl, h_mem⟩
    obtain ⟨key, h_lookup⟩ := h_mem _ List.mem_cons_self
    -- a heartbeat that fails ends the batch, after the moves of those before it
    apply wp_write
    · intro d'' h_beat
      exact ⟨h_moves.tail (.beat key o _ at_ h_on h_lookup h_beat), rfl,
        fun x hx => h_mem x (List.mem_cons_of_mem _ hx)⟩
    · exact fun e => Did.error h_moves e
    · exact ⟨m', h_moves⟩
  · exact fun m' d' h_done => h_done.1
  · refine ⟨h, rfl, fun x hx => ?_⟩
    obtain ⟨⟨key, idle⟩, -, h_x⟩ := List.mem_filterMap.mp hx
    obtain ⟨o, h_lookup, rfl⟩ := Option.map_eq_some_iff.mp h_x
    exact ⟨key, h_lookup⟩

/-- A handler and the log of its error. -/
theorem wp_logged {handler : Handler Unit} {record : Error → LogRecord}
    {P Q : Except Error Unit → SessionManager → Database → Prop} {C : Database → Prop}
    (h : wp handler P C m d) (h_ok : ∀ m d, P (.ok ()) m d → Q (.ok ()) m d)
    (h_error : ∀ e m d, P (.error e) m d → Q (.ok ()) (m.noted (record e)) d) :
    wp (logged handler record) Q C m d := by
  unfold logged
  apply wp_bind
  apply wp_attempt
  refine wp_mono h ?_ (fun _ h_crash => h_crash)
  intro r m' d' h_post
  cases r with
  | ok _ => exact wp_pure (h_ok m' d' h_post)
  | error e => exact wp_modify (h_error e m' d' h_post)

theorem logged_moves {handler : Handler Unit} {record : Error → LogRecord}
    (h : wp handler (Did on s) (Left on s) m d) (h_failure : ∀ e, (record e).isFailure = true) :
    wp (logged handler record) (fun _ m' d' => Moves on s (m', d')) (Left on s) m d :=
  wp_logged h (fun _ _ h_did => h_did) fun e _ _ h_did => h_did (record e) (h_failure e)

/-- **A turn is a chain of moves.** -/
theorem turn_moves (m : SessionManager) (d : Database) (input : Input) :
    wp (turn input) (fun _ m' d' => Moves input.occasion (m, d) (m', d'))
      (Left input.occasion (m, d)) m d := by
  cases input with
  | event event blocklist sample =>
    refine logged_moves ?_ (fun _ => rfl)
    cases event with
    | started key displayName executablePath at_ =>
      exact handleStarted_moves .refl rfl displayName executablePath blocklist sample
    | stopped key at_ =>
      have h_closes : (Occasion.stopped key).Closes key := rfl
      exact handleStopped_moves .refl h_closes at_ sample
  | heartbeat at_ now idleGrace order =>
    exact logged_moves (heartbeatOpenSessions_moves .refl rfl at_ now idleGrace order) (fun _ => rfl)

/-- **A step ran its turn to the end**: the process survived it, and the error of a handler, if
any, has been logged. -/
theorem Live.Step.ran {s t : Live} {l : Input × List Fate} (h : Live.Step s l t) :
    l.1.Visits s.1 ∧
      ((∃ a rest, turn l.1 s.1 s.2 l.2 = .returned a t.1 t.2 rest) ∨
        ∃ e rest, turn l.1 s.1 s.2 l.2 = .threw e t.1 t.2 rest) := by
  unfold Live.Step Live.next at h
  by_cases h_visits : l.1.Visits s.1
  · rw [if_pos h_visits] at h
    refine ⟨h_visits, ?_⟩
    cases h_run : turn l.1 s.1 s.2 l.2 with
    | returned a m d rest =>
      rw [h_run] at h
      obtain rfl := Option.some.inj h
      exact .inl ⟨a, rest, rfl⟩
    | threw e m d rest =>
      rw [h_run] at h
      obtain rfl := Option.some.inj h
      exact .inr ⟨e, rest, rfl⟩
    | died d =>
      rw [h_run] at h
      exact nomatch h
  · rw [if_neg h_visits] at h
    exact nomatch h

/-- What holds of a turn whatever its fates holds of a step. -/
theorem Live.Step.post {s t : Live} {l : Input × List Fate} (h : Live.Step s l t)
    {Q : Except Error Unit → SessionManager → Database → Prop} {C : Database → Prop}
    (h_turn : wp (turn l.1) Q C s.1 s.2) : ∃ r, Q r t.1 t.2 := by
  obtain ⟨-, ⟨a, rest, h_run⟩ | ⟨e, rest, h_run⟩⟩ := h.ran
  · exact ⟨.ok a, wp_returned h_turn h_run⟩
  · exact ⟨.error e, wp_threw h_turn h_run⟩

/-- A step leaves the store of its turn. -/
theorem Live.Step.store {s t : Live} {l : Input × List Fate} (h : Live.Step s l t) :
    t.2 = (turn l.1 s.1 s.2 l.2).store := by
  obtain ⟨-, ⟨a, rest, h_run⟩ | ⟨e, rest, h_run⟩⟩ := h.ran
  · rw [h_run]
    rfl
  · rw [h_run]
    rfl

/-- Logging the error of a handler does not touch the database. -/
theorem store_logged (handler : Handler Unit) (record : Error → LogRecord) (m : SessionManager)
    (d : Database) (fates : List Fate) :
    (logged handler record m d fates).store = (handler m d fates).store := by
  unfold logged
  rw [store_bind, store_attempt]
  intro r m d rest
  cases r <;> rfl

theorem Live.Step.moves {s t : Live} {l : Input × List Fate} (h : Live.Step s l t) :
    Moves l.1.occasion s t := by
  obtain ⟨-, h_moves⟩ := h.post (turn_moves s.1 s.2 l.1)
  exact h_moves

end Handlers

/-! ### Closing everything -/

theorem eq_empty_of_lookup {opens : AList fun _ : GameKey => OpenSession}
    (h : ∀ key, opens.lookup key = none) : opens = ∅ := by
  apply AList.ext
  apply List.eq_nil_iff_forall_not_mem.mpr
  rintro ⟨key, o⟩ h_mem
  have h_lookup : o ∈ opens.lookup key := AList.mem_lookup_iff.mpr h_mem
  rw [h key] at h_lookup
  exact nomatch h_lookup

theorem mem_drained {m : SessionManager} {order : List (GameKey × Sample)} {key : GameKey}
    {o : OpenSession} {sample : Sample} :
    (key, o, sample) ∈ m.drained order ↔ (key, sample) ∈ order ∧ m.open_.lookup key = some o := by
  unfold SessionManager.drained
  -- the filter keeps the keys that the map still holds
  rw [List.mem_filterMap]
  refine ⟨?_, ?_⟩
  · rintro ⟨x, h_mem, h_map⟩
    obtain ⟨o', h_lookup, h_eq⟩ := Option.map_eq_some_iff.mp h_map
    simp only [Prod.mk.injEq] at h_eq
    obtain ⟨rfl, rfl, rfl⟩ := h_eq
    exact ⟨h_mem, h_lookup⟩
  · rintro ⟨h_mem, h_lookup⟩
    refine ⟨(key, sample), h_mem, ?_⟩
    show (m.open_.lookup key).map _ = _
    rw [h_lookup]
    rfl

theorem drained_sublist (m : SessionManager) (order : List (GameKey × Sample)) :
    ((m.drained order).map Prod.fst).Sublist (order.map Prod.fst) := by
  induction order with
  | nil => exact List.Sublist.refl _
  | cons x order ih =>
    unfold SessionManager.drained at ih ⊢
    cases h_lookup : m.open_.lookup x.1 with
    | none =>
      rw [List.filterMap_cons_none (by rw [h_lookup]; rfl)]
      exact ih.cons x.1
    | some o =>
      rw [List.filterMap_cons_some (b := (x.1, o, x.2)) (by rw [h_lookup]; rfl)]
      exact ih.cons_cons x.1

/-- What `closeAllOpen` has done so far: the map is empty, and the moves have led to a state that
still holds the sessions to be closed. -/
structure Draining (s : Live) (xs : List (GameKey × OpenSession × Sample)) (m : SessionManager)
    (d : Database) (opens : AList fun _ : GameKey => OpenSession) : Prop where
  drained : m.open_ = ∅
  moves : Moves .shutdown s (({ m with open_ := opens } : SessionManager), d)
  nodup : (xs.map Prod.fst).Nodup
  holds : ∀ key o, opens.lookup key = some o ↔ ∃ sample, (key, o, sample) ∈ xs

theorem Draining.tail {s : Live} {x : GameKey × OpenSession × Sample}
    {xs : List (GameKey × OpenSession × Sample)} {m m' : SessionManager} {d d' : Database}
    {opens : AList fun _ : GameKey => OpenSession} (h : Draining s (x :: xs) m d opens)
    (h_drained : m'.open_ = ∅)
    (h_moves : Moves .shutdown s (({ m' with open_ := opens.erase x.1 } : SessionManager), d')) :
    Draining s xs m' d' (opens.erase x.1) where
  drained := h_drained
  moves := h_moves
  nodup := (List.nodup_cons.mp h.nodup).2
  holds := by
    intro key o
    -- the session just closed is not among those to be closed
    have h_fresh : x.1 ∉ xs.map Prod.fst := (List.nodup_cons.mp h.nodup).1
    by_cases h_key : key = x.1
    · subst h_key
      rw [AList.lookup_erase]
      refine ⟨?_, ?_⟩
      · intro h_none
        exact nomatch h_none
      · rintro ⟨sample, h_mem⟩
        exact absurd (List.mem_map_of_mem h_mem) h_fresh
    · rw [AList.lookup_erase_ne h_key, h.holds]
      refine ⟨?_, ?_⟩
      · rintro ⟨sample, h_mem⟩
        rcases List.mem_cons.mp h_mem with rfl | h_mem
        · exact absurd rfl h_key
        · exact ⟨sample, h_mem⟩
      · rintro ⟨sample, h_mem⟩
        exact ⟨sample, List.mem_cons_of_mem _ h_mem⟩

/-- **Closing everything is a chain of moves** that empties the map. -/
theorem closeAllOpen_moves (m : SessionManager) (d : Database) (reason : ExitReason)
    (now : OffsetDateTime) {order : List (GameKey × Sample)}
    (h_order : (order.map Prod.fst).Perm m.open_.keys) :
    wp (closeAllOpen reason now order)
      (fun r m' d' => r = .ok () ∧ m'.open_ = ∅ ∧ Moves .shutdown (m, d) (m', d'))
      (Left .shutdown (m, d)) m d := by
  unfold closeAllOpen
  apply wp_get_bind
  apply wp_modify_bind
  -- the map is drained first; `opens` is what it would hold if each close took its own entry out
  apply wp_forM fun xs m' d' => ∃ opens, Draining (m, d) xs m' d' opens
  · rintro ⟨key, o, sample⟩ xs m' d' ⟨opens, h⟩
    have h_lookup : opens.lookup key = some o := (h.holds key o).mpr ⟨sample, List.mem_cons_self⟩
    apply wp_bind
    apply wp_attempt
    refine wp_mono (closeSession_moves h.moves trivial h_lookup now reason sample) ?_
      (fun _ h_left => h_left)
    rintro r m'' d'' ⟨h_same, h_did⟩
    have h_empty : m''.open_ = ∅ := h_same.trans h.drained
    cases r with
    | ok _ => exact wp_pure ⟨_, h.tail h_empty h_did⟩
    | error e => exact wp_modify ⟨_, h.tail h_empty (h_did (.closeFailed e) rfl)⟩
  · rintro m' d' ⟨opens, h⟩
    obtain rfl : opens = ∅ := by
      apply eq_empty_of_lookup
      intro key
      cases h_lookup : opens.lookup key with
      | none => rfl
      | some o =>
        obtain ⟨sample, h_mem⟩ := (h.holds key o).mp h_lookup
        exact absurd h_mem List.not_mem_nil
    have h_same : ({ m' with open_ := ∅ } : SessionManager) = m' := by
      rw [← h.drained]
    have h_moves := h.moves
    rw [h_same] at h_moves
    exact ⟨rfl, h.drained, h_moves⟩
  · -- the order visits every entry of the map once
    refine ⟨m.open_, rfl, .refl, ?_, ?_⟩
    · exact (h_order.nodup_iff.mpr m.open_.keys_nodup).sublist (drained_sublist m order)
    · intro key o
      refine ⟨?_, ?_⟩
      · intro h_lookup
        have h_key : key ∈ order.map Prod.fst := by
          rw [h_order.mem_iff, ← AList.mem_keys, ← AList.lookup_isSome, h_lookup]
          rfl
        obtain ⟨⟨key', sample⟩, h_mem, rfl⟩ := List.mem_map.mp h_key
        exact ⟨sample, mem_drained.mpr ⟨h_mem, h_lookup⟩⟩
      · rintro ⟨sample, h_mem⟩
        exact (mem_drained.mp h_mem).2

end Ludex
