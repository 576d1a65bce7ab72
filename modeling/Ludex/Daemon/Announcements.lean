import Mathlib.Data.Finset.Erase
import Mathlib.Data.Finset.Insert
import Ludex.Lib.Mirror
import Ludex.Lib.Views
import Ludex.Core.Identity
import Ludex.Core.RepoRun
import Ludex.Daemon.SessionSimulation

/-!
# What the signals tell

The manager sends a notification with each game, session and end of a session that it records, the
notifier takes them from a channel of 64 and emits each as a signal, and `try_send` drops what finds the
channel full. `Listener` is one who only adds up the signals: the games there are, those that are being
played, and the time played of each.

A turn of the loop sends what it commits, and nothing else: a call that fails sends nothing, and neither
do the heartbeats (`turn_sends`). So the listener agrees with the database whenever nothing is under
way, as long as nothing has been lost, and nothing is lost as long as every signal is emitted and no
more than 62 wait (`signals_agree`). The enrichment runs beside the manager. A delete takes time away
without a signal, and from then on only the games and those being played agree.
-/

namespace Ludex

open Run Transact ApplicationRepo SessionRepo SessionManager

/-! ### One who listens -/

/-- The time played. -/
structure Played where
  runs : ℤ := 0
  full : ℤ := 0
  interactive : ℤ := 0
deriving DecidableEq

/-- What the columns of a row say. -/
def Application.played (a : Application) : Played :=
  ⟨a.statRunCount, a.statTotalFull, a.statTotalInteractive⟩

/-- One who adds up the signals. -/
structure Listener where
  games : Finset ℤ := ∅
  playing : Finset ℤ := ∅
  played : ℤ → Played := fun _ => {}

namespace Listener

def hear (l : Listener) : TrackerNotification → Listener
  | .applicationAdded id =>
    { l with games := insert id l.games, played := Function.update l.played id {} }
  | .sessionStarted id => { l with playing := insert id l.playing }
  | .sessionEnded id full interactive =>
    let p := l.played id
    let p := ⟨p.runs + 1, p.full + full, p.interactive + interactive⟩
    { l with playing := l.playing.erase id, played := Function.update l.played id p }

/-- The listener is right about a database, but for the time played once it has been edited. -/
structure Knows (edited : Bool) (l : Listener) (d : Database) : Prop where
  games : ∀ id, id ∈ l.games ↔ id ∈ d.applications.map Application.id
  playing : ∀ id, id ∈ l.playing ↔ ∃ sid, (sid, id) ∈ d.openRows
  played : edited = false → ∀ a ∈ d.applications, l.played a.id = a.played

variable {edited : Bool} {l : Listener} {d d' : Database}

/-- A write that the listener need not hear of. -/
theorem Knows.unheard (h : l.Knows edited d) (h_rows : d'.openRows = d.openRows)
    (h_apps : d'.applications.map (fun a => (a.id, a.played)) =
      d.applications.map fun a => (a.id, a.played)) : l.Knows edited d' where
  -- which applications there are has not changed
  games := by
    have h_ids : d'.applications.map Application.id = d.applications.map Application.id := by
      have h_map := congrArg (List.map Prod.fst) h_apps
      rwa [List.map_map, List.map_map] at h_map
    rw [h_ids]
    exact h.games
  playing := by
    rw [h_rows]
    exact h.playing
  played := by
    -- nor has what they are known to have been played
    intro h_edited a ha
    have h_mem : (a.id, a.played) ∈ d'.applications.map fun a => (a.id, a.played) :=
      List.mem_map_of_mem (f := fun a : Application => (a.id, a.played)) ha
    rw [h_apps] at h_mem
    obtain ⟨b, hb, h_eq⟩ := List.mem_map.mp h_mem
    obtain ⟨h_id, h_played⟩ := Prod.mk.inj h_eq
    rw [← h_id, ← h_played]
    exact h.played h_edited b hb

theorem Knows.created (h : l.Knows edited d) {new : NewApplication} {a : Application}
    (h_create : create d new = .ok (a, d')) :
    (l.hear (.applicationAdded a.id)).Knows edited d' := by
  obtain ⟨h_row, h_tables⟩ := create_ok h_create
  have h_apps : d'.applications = d.applications ++ [a] := by rw [h_tables]
  refine ⟨fun id => ?_, ?_, fun h_edited b hb => ?_⟩
  · rw [h_apps, List.map_append, List.mem_append, ← h.games]
    show id ∈ insert a.id l.games ↔ _
    rw [Finset.mem_insert, or_comm]
    exact or_congr_right List.mem_singleton.symm
  · rw [(create_rows h_create).1]
    exact h.playing
  · show Function.update l.played a.id {} b.id = b.played
    rw [h_apps, List.mem_append, List.mem_singleton] at hb
    rcases hb with hb | rfl
    · -- the id of the new row is a new one
      have h_ne : b.id ≠ a.id := by
        intro h_eq
        have h_mem : b.id ∈ d.applications.map Application.id := List.mem_map_of_mem hb
        rw [h_eq, h_row] at h_mem
        exact Sql.newRowid_notMem _ _ h_mem
      rw [Function.update_of_ne h_ne]
      exact h.played h_edited b hb
    · rw [Function.update_self, h_row]
      rfl

theorem Knows.started (h : l.Knows edited d) {aid : ℤ} {startedAt : OffsetDateTime} {row : Session}
    (h_begin : begin d aid startedAt = .ok (row, d')) :
    (l.hear (.sessionStarted aid)).Knows edited d' := by
  obtain ⟨h_rows, -, -⟩ := begin_rows h_begin
  have h_apps : d'.applications = d.applications := by rw [(begin_ok h_begin).2]
  refine ⟨by rw [h_apps]; exact h.games, fun id => ?_, by rw [h_apps]; exact h.played⟩
  show id ∈ insert aid l.playing ↔ _
  rw [Finset.mem_insert, h.playing, h_rows]
  simp only [List.mem_append, List.mem_singleton, Prod.mk.injEq, exists_or, exists_eq_left, or_comm]

/-- **The end of a session.** Its row was open. -/
theorem Knows.ended (h : l.Knows edited d) {sid aid : ℤ} {snapshot : RuntimeSnapshot}
    {reason : ExitReason} (h_row : (sid, aid) ∈ d.openRows)
    (h_close : closeAndRollup d sid aid snapshot reason = .ok d') :
    (l.hear (.sessionEnded aid snapshot.fullRuntimeSeconds
      snapshot.interactiveRuntimeSeconds)).Knows edited d' := by
  obtain ⟨s, hs, h_open, h_sid, -⟩ := Database.mem_openRows.mp h_row
  obtain ⟨h_none, -⟩ | ⟨-, h_tables⟩ := closeAndRollup_ok h_close
  · -- the row would not have been found
    have h_not := h_none s hs
    rw [isOpenRow, h_open, Bool.and_true] at h_not
    exact absurd h_sid (of_decide_eq_false h_not)
  have h_apps : d'.applications =
      Sql.updateWhere (fun a => a.id = aid) (rollup snapshot) d.applications := by rw [h_tables]
  refine ⟨fun id => ?_, fun id => ?_, fun h_edited b hb => ?_⟩
  · have h_ids : d'.applications.map Application.id = d.applications.map Application.id := by
      rw [h_apps]
      exact Sql.map_updateWhere fun _ _ => rfl
    rw [h_ids]
    exact h.games id
  · show id ∈ l.playing.erase aid ↔ _
    rw [Finset.mem_erase, h.playing, (closeAndRollup_rows h_close).1]
    refine ⟨?_, ?_⟩
    · rintro ⟨h_ne, sid', h_row'⟩
      refine ⟨sid', List.mem_filter.mpr ⟨h_row', decide_eq_true ?_⟩⟩
      rintro rfl
      exact h_ne (Database.openRows_application h_row' h_row)
    · rintro ⟨sid', h_row'⟩
      obtain ⟨h_row', h_ne⟩ := List.mem_filter.mp h_row'
      refine ⟨?_, sid', h_row'⟩
      rintro rfl
      exact of_decide_eq_true h_ne (Database.openRows_session h_row' h_row)
  · rw [h_apps] at hb
    obtain ⟨a, ha, rfl⟩ := Sql.mem_updateWhere.mp hb
    have h_played : l.played a.id = a.played := h.played h_edited a ha
    by_cases h_own : a.id = aid
    · rw [if_pos (decide_eq_true h_own)]
      show Function.update l.played aid _ a.id = _
      rw [h_own, Function.update_self, ← h_own, h_played]
      rfl
    · rw [if_neg (by simpa using h_own)]
      show Function.update l.played aid _ a.id = _
      rw [Function.update_of_ne h_own]
      exact h_played

theorem Knows.beat (h : l.Knows edited d) {sid : ℤ} {snapshot : RuntimeSnapshot}
    (h_beat : heartbeat d sid snapshot = .ok d') : l.Knows edited d' :=
  h.unheard (heartbeat_rows h_beat).1 (by rw [heartbeat_ok h_beat])

theorem Knows.enriched (h : l.Knows edited d) {id : ℤ} {update : IdentityUpdate}
    (h_update : updateIdentity d id update = .ok d') : l.Knows edited d' := by
  have h_tables := updateIdentity_ok_iff.mp h_update
  refine h.unheard ?_ ?_
  · unfold Database.openRows
    rw [h_tables]
    rfl
  · rw [h_tables]
    exact Sql.map_updateWhere fun _ _ => rfl

/-- A delete takes only closed rows. -/
theorem Knows.deleted (h : l.Knows edited d) {ids : List ℤ} {deleted : Bool}
    (h_delete : deleteSessionsAndRecompute d ids = .ok (deleted, d')) : l.Knows true d' where
  games := by
    have h_ids : d'.applications.map Application.id = d.applications.map Application.id := by
      rw [applications_delete h_delete]
      exact Sql.map_updateWhere fun _ _ => rfl
    rw [h_ids]
    exact h.games
  playing := by
    rw [deleteSessionsAndRecompute_rows h_delete]
    exact h.playing
  played h_edited := absurd h_edited (by simp)

end Listener

/-! ### What a turn sends -/

section Turn

variable {sent₀ : List TrackerNotification} {edited : Bool} {l : Listener} {k : ℕ}

/-- At most `k` notifications have been sent, and a listener that has heard them is right. -/
def Sent (sent₀ : List TrackerNotification) (l : Listener) (edited : Bool) (k : ℕ) (m : SessionManager)
    (d : Database) : Prop :=
  ∃ sent, m.notifications = sent₀ ++ sent ∧ sent.length ≤ k ∧
    (sent.foldl Listener.hear l).Knows edited d

variable {m : SessionManager} {d d' : Database}

theorem Sent.mono (h : Sent sent₀ l edited k m d) {k' : ℕ} (h_le : k ≤ k') :
    Sent sent₀ l edited k' m d := by
  obtain ⟨sent, h_sent, h_most, h_knows⟩ := h
  exact ⟨sent, h_sent, h_most.trans h_le, h_knows⟩

/-- A write that the listener need not hear of. -/
theorem Sent.wrote (h : Sent sent₀ l edited k m d)
    (h_knows : ∀ l : Listener, l.Knows edited d → l.Knows edited d') :
    Sent sent₀ l edited k m d' := by
  obtain ⟨sent, h_sent, h_most, h_l⟩ := h
  exact ⟨sent, h_sent, h_most, h_knows _ h_l⟩

/-- A write, and its notification. -/
theorem Sent.notified (h : Sent sent₀ l edited k m d) {notification : TrackerNotification}
    (h_knows : ∀ l : Listener, l.Knows edited d → (l.hear notification).Knows edited d') :
    Sent sent₀ l edited (k + 1) (m.notified notification) d' := by
  obtain ⟨sent, h_sent, h_most, h_l⟩ := h
  refine ⟨sent ++ [notification], ?_, ?_, ?_⟩
  · show m.notifications ++ [notification] = _
    rw [h_sent, List.append_assoc]
  · rw [List.length_append]
    exact Nat.add_le_add_right h_most 1
  · rw [List.foldl_append]
    exact h_knows _ h_l

theorem findOrCreateApplication_sends (h : Sent sent₀ l edited 0 m d) (key : GameKey)
    (displayName : String) (executablePath : Option PathBuf) (now : OffsetDateTime) :
    wp (findOrCreateApplication key displayName executablePath now)
      (fun _ m' d' => Sent sent₀ l edited 1 m' d') (fun _ => True) m d := by
  unfold findOrCreateApplication
  have h_one : Sent sent₀ l edited 1 m d := h.mono (Nat.zero_le 1)
  refine wp_read_bind ?_ (fun _ => h_one) trivial
  cases ApplicationRepo.findByKey d key with
  | some app => exact wp_pure h_one
  | none =>
    apply wp_bind
    refine wp_transact (fun app d' h_create => ?_) (fun _ _ => h_one) h_one trivial
    apply wp_modify_bind
    exact wp_pure (h.notified fun _ h_knows => h_knows.created h_create)

theorem openSession_sends (h : Sent sent₀ l edited 1 m d) (key : GameKey) (at_ : OffsetDateTime)
    (sample : Sample) (app : Application) :
    wp (openSession key at_ sample app) (fun _ m' d' => Sent sent₀ l edited 2 m' d')
      (fun _ => True) m d := by
  -- one signal at most has been sent before, for the application that may be new
  unfold openSession
  have h_two : Sent sent₀ l edited 2 m d := h.mono (Nat.le_succ 1)
  apply wp_bind
  apply wp_attempt
  refine wp_transact (fun row d' h_begin => ?_) (fun e _ => ?_) (wp_throw h_two) trivial
  · -- the session is open, so its start is told
    apply wp_modify_bind
    apply wp_modify_bind
    apply wp_modify
    exact Sent.notified (k := 1) h fun _ h_knows => h_knows.started h_begin
  · -- the row of another session is in the way; of a session that is not opened nothing is told
    cases e with
    | openSessionExists aid => exact wp_modify h_two
    | sql e => exact wp_throw h_two
    | invariant message => exact wp_throw h_two

theorem handleStarted_sends (h : Sent sent₀ l edited 0 m d) (key : GameKey) (displayName : String)
    (executablePath : Option PathBuf) (at_ : OffsetDateTime) (blocklist : List GameKey)
    (sample : Sample) :
    wp (handleStarted key displayName executablePath at_ blocklist sample)
      (fun _ m' d' => Sent sent₀ l edited 2 m' d') (fun _ => True) m d := by
  unfold handleStarted
  have h_two : Sent sent₀ l edited 2 m d := h.mono (Nat.zero_le 2)
  apply wp_get_bind
  -- of a start that is passed over nothing is told
  by_cases h_blocked : key ∈ blocklist
  · rw [if_pos h_blocked]
    exact wp_modify h_two
  rw [if_neg h_blocked]
  by_cases h_open : key ∈ m.open_
  · rw [if_pos h_open]
    exact wp_modify h_two
  rw [if_neg h_open]
  -- a new application is told, and then the start of its session
  apply wp_bind
  refine wp_mono (findOrCreateApplication_sends h key displayName executablePath at_) ?_
    fun _ h_left => h_left
  rintro (e | app) m' d' h_sent
  · exact h_sent.mono (Nat.le_succ 1)
  · exact openSession_sends h_sent key at_ sample app

/-- A session of the map, of which the row is open. -/
theorem handleStopped_sends (h : Sent sent₀ l edited 0 m d) (h_holds : Holds m d) (key : GameKey)
    (at_ : OffsetDateTime) (sample : Sample) :
    wp (handleStopped key at_ sample) (fun _ m' d' => Sent sent₀ l edited 2 m' d')
      (fun _ => True) m d := by
  unfold handleStopped
  have h_two : Sent sent₀ l edited 2 m d := h.mono (Nat.zero_le 2)
  apply wp_get_bind
  -- a stop of nothing is told to nobody
  cases h_lookup : m.open_.lookup key with
  | none => exact wp_modify h_two
  | some o =>
    apply wp_modify_bind
    unfold closeSession
    apply wp_bind
    -- the entry held the row that is closed, so the listener knows the session that it hears has
    -- ended
    refine wp_write (fun d' h_close => ?_) (fun _ => h_two) trivial
    apply wp_modify_bind
    apply wp_modify
    refine Sent.mono ?_ (Nat.le_succ 1)
    exact Sent.notified (k := 0) h
      fun _ h_knows => h_knows.ended (h_holds key o h_lookup).1 h_close

theorem heartbeatOpenSessions_sends (h : Sent sent₀ l edited 2 m d) (at_ : OffsetDateTime)
    (now : Instant) (idleGrace : ℕ) (order : List (GameKey × IdleReading)) :
    wp (heartbeatOpenSessions at_ now idleGrace order)
      (fun _ m' d' => Sent sent₀ l edited 2 m' d') (fun _ => True) m d := by
  unfold heartbeatOpenSessions
  apply wp_get_bind
  refine wp_forM (fun _ m' d' => Sent sent₀ l edited 2 m' d') ?_ (fun _ _ h_sent => h_sent) h
  rintro ⟨o, idle⟩ xs m' d' h_sent
  exact wp_write (fun d'' h_beat => h_sent.wrote fun _ h_knows => h_knows.beat h_beat)
    (fun _ => h_sent) trivial

/-- **A turn sends what it commits**, and no more than two notifications. -/
theorem turn_sends (h : l.Knows edited d) (h_holds : Holds m d) (input : Input) :
    wp (turn input) (fun _ m' d' => Sent m.notifications l edited 2 m' d') (fun _ => True) m d := by
  -- nothing has been sent yet in this turn
  have h_none : Sent m.notifications l edited 0 m d := ⟨[], (List.append_nil _).symm, Nat.le_refl 0, h⟩
  cases input with
  | event event blocklist sample =>
    cases event with
    | started key displayName executablePath at_ =>
      exact wp_logged
        (handleStarted_sends h_none key displayName executablePath at_ blocklist sample)
        (fun _ _ h_sent => h_sent) fun _ _ _ h_sent => h_sent
    | stopped key at_ =>
      exact wp_logged (handleStopped_sends h_none h_holds key at_ sample)
        (fun _ _ h_sent => h_sent) fun _ _ _ h_sent => h_sent
  | heartbeat at_ now idleGrace order =>
    exact wp_logged
      (heartbeatOpenSessions_sends (h_none.mono (Nat.zero_le 2)) at_ now idleGrace order)
      (fun _ _ h_sent => h_sent) fun _ _ _ h_sent => h_sent

end Turn

/-! ### The signals -/

namespace Announcements

/-- `NOTIFICATION_CHANNEL_CAPACITY`. -/
def capacity : ℕ := 64

/-- The manager and its database, and whether a delete has been through. -/
structure Daemon where
  live : Live
  edited : Bool := false

/-- What writes to the database. -/
inductive Action where
  | turn (input : Input) (fates : List Fate)
  | enriches (id : ℤ) (update : IdentityUpdate)
  | deletes (ids : List ℤ)

/-- An action, and the notifications it sends. -/
def daemon : Mirror.Source Daemon Action TrackerNotification
  | s, .turn input fates =>
    (s.live.next (input, fates)).map fun t =>
      ({ s with live := t }, t.1.notifications.drop s.live.1.notifications.length)
  | s, .enriches id update =>
    (updateIdentity s.live.2 id update).toOption.map fun d =>
      ({ s with live := (s.live.1, d) }, [])
  | s, .deletes ids =>
    (deleteSessionsAndRecompute s.live.2 ids).toOption.map fun x =>
      ({ live := (s.live.1, x.2), edited := true }, [])

/-- The listener is right, and the map of the manager has the open rows. -/
def Agrees (l : Listener) (s : Daemon) : Prop :=
  l.Knows s.edited s.live.2 ∧ Holds s.live.1 s.live.2

theorem holds_congr {m : SessionManager} {d d' : Database} (h : Holds m d)
    (h_rows : d'.openRows = d.openRows) (h_keys : d'.keyRows = d.keyRows) : Holds m d' := by
  unfold Holds
  rw [h_rows, h_keys]
  exact h

/-- **An action sends what it commits.** -/
theorem daemon_sends {l : Listener} {s s' : Daemon} {action : Action} {sent : List TrackerNotification}
    (h_acts : daemon s action = some (s', sent)) (h : Agrees l s) :
    Agrees (sent.foldl Listener.hear l) s' ∧ sent.length ≤ 2 := by
  obtain ⟨h_knows, h_holds⟩ := h
  cases action with
  -- what the turn has sent is what it adds to the notifications
  | turn input fates =>
    obtain ⟨t, h_step, h_eq⟩ := Option.map_eq_some_iff.mp h_acts
    obtain ⟨rfl, rfl⟩ := Prod.mk.inj h_eq
    have h_turn : Live.Step s.live (input, fates) t := h_step
    obtain ⟨-, sent, h_sent, h_most, h_right⟩ := h_turn.post (turn_sends h_knows h_holds input)
    rw [h_sent, List.drop_left]
    exact ⟨⟨h_right, h_turn.moves.holds h_holds⟩, h_most⟩
  -- a name is nothing that the listener keeps
  | enriches id update =>
    obtain ⟨d, h_update, h_eq⟩ := Option.map_eq_some_iff.mp h_acts
    obtain ⟨rfl, rfl⟩ := Prod.mk.inj h_eq
    have h_ok := Except.toOption_eq_some_iff.mp h_update
    refine ⟨⟨h_knows.enriched h_ok, holds_congr h_holds ?_ ?_⟩, Nat.zero_le 2⟩
    · unfold Database.openRows
      rw [updateIdentity_ok_iff.mp h_ok]
      rfl
    · unfold Database.keyRows
      rw [updateIdentity_ok_iff.mp h_ok]
      exact Sql.map_updateWhere fun _ _ => rfl
  -- the deletes are not told either, but the listener no longer vouches for the totals
  | deletes ids =>
    obtain ⟨⟨deleted, d⟩, h_delete, h_eq⟩ := Option.map_eq_some_iff.mp h_acts
    obtain ⟨rfl, rfl⟩ := Prod.mk.inj h_eq
    have h_ok := Except.toOption_eq_some_iff.mp h_delete
    refine ⟨⟨h_knows.deleted h_ok, holds_congr h_holds (deleteSessionsAndRecompute_rows h_ok) ?_⟩,
      Nat.zero_le 2⟩
    unfold Database.keyRows
    rw [applications_delete h_ok]
    exact Sql.map_updateWhere fun _ _ => rfl

/-- **The signals.** One who adds them up agrees with the database when nothing is under way, as long as
nothing has been lost; and nothing is lost as long as every signal is emitted and the channel has room
for two. -/
theorem signals_agree {w : Mirror.Wire Daemon TrackerNotification Listener}
    {tr : List (Mirror.Label Action TrackerNotification ×
      Mirror.Wire Daemon TrackerNotification Listener)}
    (h : Agrees (w.caughtUp Listener.hear) w.source)
    (hrun : IsRun (Mirror.Step daemon Listener.hear capacity) w tr) :
    (∀ v ∈ states w tr, v.lost = false → v.queue = [] →
      v.mirror.Knows v.source.edited v.source.live.2) ∧
    ((∀ x ∈ steps w tr, x.2.1 ≠ .loses ∧ x.1.queue.length + 2 ≤ capacity) →
      w.lost = false → ∀ v ∈ states w tr, v.lost = false) := by
  refine ⟨fun v hv h_kept h_queue => ?_, fun h_delivered h_kept => ?_⟩
  · -- the listener that has caught up is one that has heard all of the queue
    have h_follows : Mirror.Follows daemon Listener.hear Agrees :=
      fun _ _ _ _ _ h_acts h_agrees => (daemon_sends h_acts h_agrees).1
    have h_agrees := Mirror.mirrors h_follows hrun h v hv h_kept
    unfold Mirror.Wire.caughtUp at h_agrees
    rw [h_queue] at h_agrees
    exact h_agrees.1
  · -- each action sends two signals at most, so the channel keeps its room
    have h_most : ∀ s action s' sent, daemon s action = some (s', sent) → (∃ l, Agrees l s) →
        (∃ l, Agrees l s') ∧ sent.length ≤ 2 := by
      rintro s action s' sent h_acts ⟨l, h_agrees⟩
      obtain ⟨h_heard, h_length⟩ := daemon_sends h_acts h_agrees
      exact ⟨⟨_, h_heard⟩, h_length⟩
    exact Mirror.nothing_lost h_most hrun h_delivered ⟨_, h⟩ h_kept

/-- A manager that has just begun, over an empty database. -/
def begun : Mirror.Wire Daemon TrackerNotification Listener where
  source := { live := ({}, .empty) }
  mirror := {}

theorem begun_agrees : Agrees (begun.caughtUp Listener.hear) begun.source where
  left :=
    { games := fun id => ⟨fun h => absurd h (Finset.notMem_empty id), fun h => absurd h List.not_mem_nil⟩
      playing := by
        intro id
        refine ⟨fun h => absurd h (Finset.notMem_empty id), ?_⟩
        rintro ⟨sid, h⟩
        exact absurd h List.not_mem_nil
      played := fun _ a ha => absurd ha List.not_mem_nil }
  right _ _ h := absurd h (by simp [begun])

/-- A game is played, and a second one is started while the signals of the first are under way. -/
def twoPlayed : List (Mirror.Label Action TrackerNotification) :=
  [.acts (.turn (.event (.started (.steam "10") "Portal" none (.firstDay 100)) [] (sampleAt 0)) [])
      [.applicationAdded 1, .sessionStarted 1],
    .hears,
    .acts (.turn (.event (.stopped (.steam "10") (.firstDay 130)) [] (sampleAt 30)) [])
      [.sessionEnded 1 30 30],
    .acts (.turn (.event (.started (.steam "20") "Half-Life" none (.firstDay 140)) [] (sampleAt 40)) [])
      [.applicationAdded 2, .sessionStarted 2],
    .hears, .hears, .hears, .hears]

theorem signals_agree_twoPlayed :
    let tr := trace (Mirror.next daemon Listener.hear capacity) begun twoPlayed
    (tr.length = 8 ∧ (final begun tr).queue = [] ∧ (final begun tr).mirror.games = {1, 2} ∧
      (final begun tr).mirror.playing = {2} ∧ (final begun tr).mirror.played 1 = ⟨1, 30, 30⟩) ∧
    (∀ v ∈ states begun tr, v.lost = false → v.queue = [] →
      v.mirror.Knows v.source.edited v.source.live.2) ∧
    ((∀ x ∈ steps begun tr, x.2.1 ≠ .loses ∧ x.1.queue.length + 2 ≤ capacity) →
      begun.lost = false → ∀ v ∈ states begun tr, v.lost = false) :=
  ⟨by decide +kernel, signals_agree begun_agrees (isRun_trace _ _ _)⟩

end Announcements

end Ludex
