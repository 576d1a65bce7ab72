import Ludex.Daemon.SessionSimulation
import Ludex.Daemon.Kwin.RunLoop
import Ludex.Daemon.Steam.Startup

/-!
# Two sources and one manager

The Steam source and the foreground source send into one channel, and the session manager takes the
events out one by one. The channel holds some interleaving of what the two send.

Each source sends a `Started` only for a game that is not up and a `Stopped` only for one that is:
the Steam source because of its running set (`Steam.run_bracketed`), the foreground source because
it tracks one game at a time (`Kwin.sent_effective`). The two speak about different keys, so the same
holds of the interleaving, and of what the blocklist leaves of it. The manager then finds every
event of use, and the open sessions are the games that are up (`sources_compose`).
-/

namespace Ludex

open Run Switches

/-! ### The Steam source -/

namespace Steam

/-- What the source has sent, and holds for running, when it is shut down: it scans, locates the end
of the log, and drains it again and again. A read of the log is `none` where it fails. -/
def run (outlet : DrainOutlet) (proc : ProcSnapshot) (libraries : List Library) (located : ℕ)
    (reads : List (Option (List UInt8))) : SourceState :=
  match coldStartScan proc outlet.toOutlet libraries {} with
  | (s, .failed) => s
  | (s, _) =>
    (reads.foldl (fun x content => drainOrKeep outlet content x.1 x.2) (located, s)).2

/-- What was sent switches games on and off, and while the receiver is there the running set is what
it switched on. -/
structure Bracketed (outlet : Outlet) (s : SourceState) : Prop where
  steam : ∀ m ∈ s.sent.map mark, m.1.launcherType = .steam
  effective : Effective ∅ (s.sent.map mark)
  tracks : outlet.alive s.sent = true →
    ∀ appid, GameKey.steam appid ∈ (s.sent.map mark).foldl put ∅ ↔ appid ∈ s.running

theorem Bracketed.initial (outlet : Outlet) : Bracketed outlet {} where
  steam := fun _ h_mem => absurd h_mem List.not_mem_nil
  effective := trivial
  tracks := fun _ _ => iff_of_false (Finset.notMem_empty _) (Finset.notMem_empty _)

theorem steam_inj {appid appid' : String} (h : GameKey.steam appid = GameKey.steam appid') :
    appid = appid' := congrArg GameKey.launcherId h

section Bracketed

variable {outlet : Outlet} {s : SourceState}

/-- An event that changes the running set, sent to a receiver that is there. -/
theorem Bracketed.sent (h : Bracketed outlet s) (h_alive : outlet.alive s.sent = true)
    {appid : String} (up : Bool) (h_new : decide (appid ∈ s.running) ≠ up) {event : GameEvent}
    (h_mark : mark event = (GameKey.steam appid, up)) :
    Bracketed outlet ⟨put s.running (appid, up), s.sent ++ [event]⟩ where
  steam := by
    intro m h_mem
    rcases List.mem_append.mp (List.map_append ▸ h_mem) with h_old | h_last
    · exact h.steam m h_old
    · rw [List.mem_singleton.mp h_last, h_mark]
      rfl
  effective := by
    show Effective ∅ ((s.sent ++ [event]).map mark)
    rw [List.map_append, effective_append]
    -- the source knows how the game stands, so what it sends is a change
    refine ⟨h.effective, ?_⟩
    show Effective _ [mark event]
    rw [h_mark]
    refine ⟨?_, trivial⟩
    rw [decide_eq_decide.mpr (h.tracks h_alive appid)]
    exact h_new
  tracks := by
    intro _ appid'
    show GameKey.steam appid' ∈ ((s.sent ++ [event]).map mark).foldl put ∅ ↔ _
    rw [List.map_append, List.foldl_append]
    show GameKey.steam appid' ∈ put _ (mark event) ↔ appid' ∈ put s.running (appid, up)
    rw [h_mark, ← decide_eq_decide, decide_mem_put, decide_mem_put,
      decide_eq_decide.mpr (h.tracks h_alive appid')]
    -- of the other games nothing is said
    by_cases h_appid : appid = appid'
    · rw [if_pos h_appid, if_pos (congrArg GameKey.steam h_appid)]
    · rw [if_neg h_appid, if_neg fun h_key => h_appid (steam_inj h_key)]

/-- Without a receiver the running set no longer matters. -/
theorem Bracketed.dropped (h : Bracketed outlet s) (h_alive : ¬ outlet.alive s.sent = true)
    (running : Finset String) : Bracketed outlet ⟨running, s.sent⟩ where
  steam := h.steam
  effective := h.effective
  tracks := fun h_sent => absurd h_sent h_alive

theorem scanEntries_bracketed (liveAppids : Option (List String)) (entries : List (Option DirEntry))
    (h : Bracketed outlet s) : Bracketed outlet (scanEntries liveAppids outlet entries s).1 := by
  induction entries generalizing s with
  | nil => exact h
  | cons entry entries ih =>
    cases entry with
    -- the listing breaks off, and nothing is sent for what has not been listed
    | none => exact h
    | some entry =>
      rw [scanEntries]
      cases h_game : entry.game with
      | none => exact ih h
      | some game =>
        obtain ⟨appid, manifest⟩ := game
        show Bracketed outlet (if _ then _ else _ : SourceState × ScanEnd).1
        -- only a game that runs and is not known to run is announced
        by_cases h_new : isRunning liveAppids appid manifest ∧ appid ∉ s.running
        · rw [if_pos h_new]
          show Bracketed outlet (if _ then _ else _ : SourceState × ScanEnd).1
          -- without a receiver the scan is over, and what is tracked does not matter any more
          by_cases h_alive : outlet.alive s.sent = true
          · rw [if_pos h_alive]
            exact ih (h.sent h_alive true (by simp [h_new.2]) rfl)
          · rw [if_neg h_alive]
            exact h.dropped h_alive _
        · rw [if_neg h_new]
          exact ih h

/-- **The scan is bracketed**, however it ends. -/
theorem coldStartScanWith_bracketed (liveAppids : Option (List String)) (libraries : List Library)
    (h : Bracketed outlet s) :
    Bracketed outlet (coldStartScanWith liveAppids outlet libraries s).1 := by
  induction libraries generalizing s with
  | nil => exact h
  | cons library libraries ih =>
    cases library with
    -- a library that cannot be opened is passed over
    | none => exact ih h
    | some entries =>
      have h_entries := scanEntries_bracketed liveAppids entries h
      rw [coldStartScanWith]
      cases h_scan : scanEntries liveAppids outlet entries s with
      | mk s' ended =>
        rw [h_scan] at h_entries
        cases ended with
        -- the scan goes on with the next library, unless it was aborted or has failed
        | completed => exact ih h_entries
        | aborted => exact h_entries
        | failed => exact h_entries

end Bracketed

section Drains

variable {outlet : DrainOutlet} {s : SourceState}

theorem applyLines_bracketed (lines : List (List Char)) (h : Bracketed outlet.toOutlet s) :
    Bracketed outlet.toOutlet (applyLines outlet lines s) := by
  induction lines generalizing s with
  | nil => exact h
  | cons line lines ih =>
    rw [applyLines]
    cases h_line : parseStateChange line with
    | none => exact ih h
    | some change =>
      obtain ⟨appid, up⟩ := change
      -- the line is an event exactly if it changes the running set
      cases up with
      | true =>
        by_cases h_mem : appid ∈ s.running
        · simp only [h_mem, decide_true, Bool.not_true, Bool.and_false, Bool.false_and,
            Bool.false_eq_true, if_false]
          exact ih h
        · simp only [h_mem, decide_false, Bool.not_false, Bool.and_true, if_true]
          by_cases h_alive : outlet.alive s.sent = true
          · rw [if_pos h_alive]
            exact ih (h.sent h_alive true (by simp [h_mem]) rfl)
          · rw [if_neg h_alive]
            exact h.dropped h_alive _
      | false =>
        by_cases h_mem : appid ∈ s.running
        · simp only [h_mem, decide_true, Bool.not_false, Bool.and_true, Bool.false_and,
            Bool.false_eq_true, if_false, if_true]
          by_cases h_alive : outlet.alive s.sent = true
          · rw [if_pos h_alive]
            exact ih (h.sent h_alive false (by simp [h_mem]) rfl)
          · rw [if_neg h_alive]
            exact h.dropped h_alive _
        · simp only [h_mem, decide_false, Bool.not_false, Bool.and_false, Bool.false_and,
            Bool.false_eq_true, if_false]
          exact ih h

theorem drainOrKeep_bracketed (content : Option (List UInt8)) (cursor : ℕ)
    (h : Bracketed outlet.toOutlet s) :
    Bracketed outlet.toOutlet (drainOrKeep outlet content cursor s).2 := by
  cases content with
  | none => exact h
  | some content =>
    show Bracketed outlet.toOutlet (drainLines outlet content cursor s).2
    rw [drainLines_eq]
    cases Lines.decode (chunk content (start content cursor)) with
    | none => exact h
    | some text => exact applyLines_bracketed _ h

/-- **The Steam source is bracketed.** -/
theorem run_bracketed (outlet : DrainOutlet) (proc : ProcSnapshot) (libraries : List Library)
    (located : ℕ) (reads : List (Option (List UInt8))) :
    Bracketed outlet.toOutlet (run outlet proc libraries located reads) := by
  have h_scan : Bracketed outlet.toOutlet (coldStartScan proc outlet.toOutlet libraries {}).1 :=
    coldStartScanWith_bracketed (liveSteamAppids proc) libraries (.initial _)
  -- each read drains what is there, from wherever the cursor is
  have h_drains : ∀ (cursor : ℕ) (s : SourceState), Bracketed outlet.toOutlet s →
      Bracketed outlet.toOutlet
        (reads.foldl (fun x content => drainOrKeep outlet content x.1 x.2) (cursor, s)).2 := by
    induction reads with
    | nil => exact fun _ _ h_s => h_s
    | cons content reads ih => exact fun cursor s h_s => ih _ _ (drainOrKeep_bracketed content cursor h_s)
  unfold run
  cases h_end : coldStartScan proc outlet.toOutlet libraries {} with
  | mk s ended =>
    -- a source whose scan was cut short drains what it can; one whose scan failed is done
    rw [h_end] at h_scan
    cases ended with
    | completed => exact h_drains located s h_scan
    | aborted => exact h_drains located s h_scan
    | failed => exact h_scan

end Drains

end Steam

/-! ### The foreground source -/

namespace Kwin

/-- The event sent for a transition event. -/
def TransitionEvent.gameEvent (at_ : OffsetDateTime) : TransitionEvent → GameEvent
  | start key executablePath displayName => .started key displayName (some executablePath) at_
  | stop key => .stopped key at_

/-- The events of a turn, behind those sent before. The clock is read once a turn. -/
def sentIn (selfPid : ℕ) (now : List GameEvent → OffsetDateTime) (sent : List GameEvent)
    (turn : Loop × Input × Loop) : List GameEvent :=
  sent ++ (react selfPid turn.1 turn.2.1).events.map (TransitionEvent.gameEvent (now sent))

/-- The events sent in a run. -/
def sentDuring (selfPid : ℕ) (now : List GameEvent → OffsetDateTime) (tr : List (Input × Loop)) :
    List GameEvent :=
  (steps {} tr).foldl (sentIn selfPid now) []

/-- What the foreground source has sent when it is shut down. -/
def sent (selfPid : ℕ) (now : List GameEvent → OffsetDateTime) (tr : List (Input × Loop)) :
    List GameEvent :=
  sentDuring selfPid now tr ++
    ((final {} tr).state.current.map fun af =>
      GameEvent.stopped af.key (now (sentDuring selfPid now tr))).toList

/-- The switch a session boundary is. -/
def Mark.switch : Mark → GameKey × Bool
  | start key => (key, true)
  | stop key => (key, false)

theorem mark_gameEvent (at_ : OffsetDateTime) (event : TransitionEvent) :
    Steam.mark (event.gameEvent at_) = event.mark.switch := by
  cases event with
  | start key executablePath displayName => rfl
  | stop key => rfl

theorem sent_marks (selfPid : ℕ) (now : List GameEvent → OffsetDateTime)
    (tr : List (Input × Loop)) :
    (sent selfPid now tr).map Steam.mark =
      (emitted selfPid {} tr ++ shutdownMarks (final {} tr)).map Mark.switch := by
  -- by induction on the turns, with what has been sent before
  have h_turns : ∀ (turns : List (Loop × Input × Loop)) (before : List GameEvent),
      (turns.foldl (sentIn selfPid now) before).map Steam.mark = before.map Steam.mark ++
        (turns.flatMap fun x =>
          (react selfPid x.1 x.2.1).events.map TransitionEvent.mark).map Mark.switch := by
    intro turns
    induction turns with
    | nil => exact fun before => (List.append_nil _).symm
    | cons turn turns ih =>
      intro before
      rw [List.foldl_cons, ih, List.flatMap_cons, List.map_append, ← List.append_assoc]
      refine congrArg (· ++ _) ?_
      unfold sentIn
      rw [List.map_append, List.map_map, List.map_map]
      refine congrArg _ (List.map_congr_left fun event _ => ?_)
      exact mark_gameEvent (now before) event
  unfold sent shutdownMarks
  rw [List.map_append, List.map_append, show (sentDuring selfPid now tr).map Steam.mark = _ from
    h_turns (steps {} tr) []]
  -- what is sent at shutdown is the stop of the game that is tracked
  refine congrArg _ ?_
  cases (final {} tr).state.current with
  | none => rfl
  | some af => rfl

/-- Sessions one after the other switch games on and off. -/
theorem brackets_effective (keys : List GameKey) :
    Effective ∅ ((brackets keys).map Mark.switch) := by
  induction keys with
  | nil => trivial
  | cons key keys ih =>
    show decide (key ∈ (∅ : Finset GameKey)) ≠ true ∧
      decide (key ∈ put ∅ (key, true)) ≠ false ∧
        Effective (put (put ∅ (key, true)) (key, false)) ((brackets keys).map Mark.switch)
    have h_back : put (put ∅ (key, true)) (key, false) = (∅ : Finset GameKey) := by
      simp [put]
    rw [h_back]
    exact ⟨by simp, by simp [put], ih⟩

/-- **The foreground source is bracketed.** -/
theorem sent_effective {selfPid : ℕ} {tr : List (Input × Loop)} (hrun : IsRun (Step selfPid) {} tr)
    (now : List GameEvent → OffsetDateTime) :
    Effective ∅ ((sent selfPid now tr).map Steam.mark) := by
  obtain ⟨keys, -, h_marks⟩ := emitted_shutdown_brackets hrun
  rw [sent_marks, h_marks]
  exact brackets_effective _

/-! #### Its keys -/

theorem nativeKey_launcherType (accepted : AcceptedProcess) :
    (nativeKey accepted).launcherType ≠ .steam := by
  unfold nativeKey
  cases accepted.attribution with
  | none => exact fun h => nomatch h
  | some attribution =>
    cases attribution with
    | heroic appName => exact fun h => nomatch h
    | lutris uuid => exact fun h => nomatch h

/-- The game that is tracked is no Steam game. -/
def Loop.Foreign (s : Loop) : Prop := ∀ key ∈ openKey s, key.launcherType ≠ .steam

/-- A turn is about the tracked game and an accepted process, if any. -/
theorem react_foreign (selfPid : ℕ) {s : Loop} {i : Input} (h_synced : s.Synced)
    (h_enabled : Enabled s i) (h : s.Foreign) :
    (react selfPid s i).next.Foreign ∧
      ∀ m ∈ (react selfPid s i).events.map TransitionEvent.mark,
        m.switch.1.launcherType ≠ .steam := by
  have h_stops : ∀ m ∈ shutdownMarks s, m.switch.1.launcherType ≠ .steam := by
    intro m h_mem
    rw [shutdownMarks_eq] at h_mem
    obtain ⟨key, h_key, rfl⟩ := List.mem_map.mp h_mem
    exact h key h_key
  have h_moves : Moves selfPid s i (react selfPid s i) := react_moves h_synced h_enabled
  generalize react selfPid s i = r at h_moves
  -- only a switch brings in a new key, and that is one of an accepted process
  cases h_moves with
  | stay _ => exact ⟨h, fun _ h_mem => absurd h_mem List.not_mem_nil⟩
  | switch activation accepted af h_branch h_self h_af h_marks h_watched h_next =>
    have h_new : af.key.launcherType ≠ .steam := by
      rw [h_af]
      exact nativeKey_launcherType accepted
    refine ⟨?_, ?_⟩
    · rw [h_next]
      intro key h_key
      rw [List.mem_singleton.mp h_key]
      exact h_new
    · rw [h_marks]
      intro m h_mem
      rcases List.mem_append.mp h_mem with h_mem | h_mem
      · exact h_stops m h_mem
      · rw [List.mem_singleton.mp h_mem]
        exact h_new
  | background af h_state =>
    refine ⟨?_, fun _ h_mem => absurd h_mem List.not_mem_nil⟩
    intro key h_key
    rw [List.mem_singleton.mp h_key]
    exact h af.key (by simp [openKey, h_state])
  | resume af h_state =>
    refine ⟨?_, fun _ h_mem => absurd h_mem List.not_mem_nil⟩
    intro key h_key
    rw [List.mem_singleton.mp h_key]
    exact h af.key (by simp [openKey, h_state])
  | stop af h_current =>
    refine ⟨fun key h_key => absurd h_key List.not_mem_nil, fun m h_mem => ?_⟩
    rw [List.mem_singleton.mp h_mem]
    exact h af.key (by simp [openKey_eq, h_current])

theorem emitted_foreign {selfPid : ℕ} {s : Loop} {tr : List (Input × Loop)}
    (hrun : IsRun (Step selfPid) s tr) (h_synced : s.Synced) (h : s.Foreign) :
    ∀ m ∈ emitted selfPid s tr ++ shutdownMarks (final s tr), m.switch.1.launcherType ≠ .steam := by
  -- by induction on the turns: the loop stays synced, so what it tracks is known
  induction hrun with
  | nil s =>
    intro m h_mem
    rw [show emitted selfPid s [] = [] from rfl, List.nil_append, shutdownMarks_eq] at h_mem
    obtain ⟨key, h_key, rfl⟩ := List.mem_map.mp h_mem
    exact h key h_key
  | @cons s t i tr h_step _ ih =>
    have h_t : t.Synced := h_synced.step h_step
    obtain ⟨h_enabled, rfl⟩ := h_step.enabled
    obtain ⟨h_next, h_events⟩ := react_foreign selfPid h_synced h_enabled h
    intro m h_mem
    rw [emitted_cons, List.append_assoc] at h_mem
    rcases List.mem_append.mp h_mem with h_mem | h_mem
    · exact h_events m h_mem
    · exact ih h_t h_next m h_mem

theorem sent_foreign {selfPid : ℕ} {tr : List (Input × Loop)} (hrun : IsRun (Step selfPid) {} tr)
    (now : List GameEvent → OffsetDateTime) :
    ∀ m ∈ (sent selfPid now tr).map Steam.mark, m.1.launcherType ≠ .steam := by
  have h_initial : Loop.Foreign {} := fun _ h_key => absurd h_key List.not_mem_nil
  intro m h_mem
  rw [sent_marks] at h_mem
  obtain ⟨mark, h_mark, rfl⟩ := List.mem_map.mp h_mem
  exact emitted_foreign hrun synced_initial h_initial mark h_mark

end Kwin

/-! ### The channel -/

/-- **What the two sources send is bracketed**, in every interleaving. -/
theorem channel_effective {outlet : Steam.DrainOutlet} {s : Steam.SourceState}
    (h_steam : Steam.Bracketed outlet.toOutlet s) {selfPid : ℕ} {tr : List (Kwin.Input × Kwin.Loop)}
    (h_turns : IsRun (Kwin.Step selfPid) {} tr) (now : List GameEvent → OffsetDateTime)
    {channel : List GameEvent} (h_channel : Interleaves s.sent (Kwin.sent selfPid now tr) channel) :
    Effective ∅ (channel.map Steam.mark) := by
  refine (h_channel.map Steam.mark).effective ?_ h_steam.effective
    (Kwin.sent_effective h_turns now)
  intro x h_x y h_y h_same
  exact Kwin.sent_foreign h_turns now y h_y (h_same ▸ h_steam.steam x h_x)

/-! ### What the manager makes of an event -/

/-- The key of an event that was of no use: a `Started` of a game that is up, or a `Stopped` of one
that is not. -/
def LogRecord.wasted : LogRecord → Option GameKey
  | alreadyOpen key | unknownSession key => some key
  | _ => none

/-- The keys of the events that were of no use. -/
def SessionManager.wasted (m : SessionManager) : List GameKey := m.log.filterMap LogRecord.wasted

theorem mem_wasted {m : SessionManager} {key : GameKey} :
    key ∈ m.wasted ↔ .alreadyOpen key ∈ m.log ∨ .unknownSession key ∈ m.log := by
  unfold SessionManager.wasted
  rw [List.mem_filterMap]
  -- only these two records say that an event was wasted
  refine ⟨?_, ?_⟩
  · rintro ⟨record, h_mem, h_record⟩
    cases record with
    | alreadyOpen key' =>
      obtain rfl := Option.some.inj h_record
      exact .inl h_mem
    | unknownSession key' =>
      obtain rfl := Option.some.inj h_record
      exact .inr h_mem
    | _ => exact nomatch h_record
  · rintro (h_mem | h_mem)
    · exact ⟨_, h_mem, rfl⟩
    · exact ⟨_, h_mem, rfl⟩

theorem wasted_noted (m : SessionManager) (record : LogRecord) :
    (m.noted record).wasted = m.wasted ++ record.wasted.toList := by
  unfold SessionManager.wasted SessionManager.noted
  rw [List.filterMap_append]
  cases h : record.wasted with
  | none => rw [List.filterMap_cons_none h]; rfl
  | some key => rw [List.filterMap_cons_some h]; rfl

theorem wasted_noted_of_none (m : SessionManager) {record : LogRecord} (h : record.wasted = none) :
    (m.noted record).wasted = m.wasted := by
  rw [wasted_noted, h]
  exact List.append_nil m.wasted

section Handlers

open Transact SessionManager

variable {m : SessionManager} {d : Database}

/-- A handler that wastes nothing, up to what it does to the map. -/
def Used (m : SessionManager) (Q : (AList fun _ : GameKey => OpenSession) → Prop)
    (m' : SessionManager) : Prop :=
  m'.wasted = m.wasted ∧ Q m'.open_

theorem wasted_of_log {m m' : SessionManager} {record : LogRecord}
    (h_log : m'.log = m.log ++ [record]) (h : record.wasted = none) : m'.wasted = m.wasted :=
  (congrArg (List.filterMap LogRecord.wasted) h_log).trans (wasted_noted_of_none m h)

/-- A `Started` of a game that is neither blocked nor up opens a session, fails, or is refused by
the database. -/
theorem handleStarted_used {key : GameKey} (displayName : String)
    (executablePath : Option PathBuf) (at_ : OffsetDateTime) {blocklist : List GameKey}
    (sample : Sample) (h_free : key ∉ blocklist) (h_absent : key ∉ m.open_) :
    wp (handleStarted key displayName executablePath at_ blocklist sample)
      (fun r m' _ => m'.wasted = m.wasted ∧
        (r = .ok () → (∃ o, m'.open_ = m.open_.insert key o) ∨
          ∃ aid, .openSessionExists key aid ∈ m'.log)) (fun _ => True) m d := by
  refine wp_mono (handleStarted_answer key displayName executablePath at_ blocklist sample) ?_
    fun _ _ => trivial
  intro r m' d' h_answer
  -- the key is free and not in the map, so it was opened, refused, or the database failed
  cases h_answer with
  | blocked h_blocked => exact absurd h_blocked h_free
  | alreadyOpen _ h_open => exact absurd h_open h_absent
  | opened o aid sid _ _ h_map h_log => exact ⟨wasted_of_log h_log rfl, fun _ => .inl ⟨o, h_map⟩⟩
  | refused aid _ _ _ h_log =>
    refine ⟨wasted_of_log h_log rfl, fun _ => .inr ⟨aid, ?_⟩⟩
    rw [h_log]
    exact List.mem_append_right _ List.mem_cons_self
  | failed e _ _ _ h_log =>
    exact ⟨congrArg (List.filterMap LogRecord.wasted) h_log, fun h_ok => nomatch h_ok⟩

/-- A `Stopped` of a game that is up takes it out of the map, even if it fails. -/
theorem handleStopped_used {key : GameKey} (at_ : OffsetDateTime) (sample : Sample)
    (h_open : key ∈ m.open_) :
    wp (handleStopped key at_ sample) (fun _ m' _ => Used m (· = m.open_.erase key) m')
      (fun _ => True) m d := by
  -- the entry is there, so the lookup finds it and the map loses it
  obtain ⟨o, h_lookup⟩ := Option.isSome_iff_exists.mp (AList.lookup_isSome.mpr h_open)
  unfold handleStopped
  apply wp_get_bind
  rw [h_lookup]
  apply wp_modify_bind
  unfold closeSession
  apply wp_bind
  apply wp_write
  · -- whether or not the close succeeds, nothing is recorded as wasted
    intro d' _
    apply wp_modify_bind
    apply wp_modify
    exact ⟨wasted_noted_of_none _ rfl, rfl⟩
  · exact fun e => ⟨rfl, rfl⟩
  · trivial

theorem heartbeatOpenSessions_used (at_ : OffsetDateTime) (now : Instant) (idleGrace : ℕ)
    (order : List (GameKey × IdleReading)) :
    wp (heartbeatOpenSessions at_ now idleGrace order)
      (fun _ m' _ => Used m (· = m.open_) m') (fun _ => True) m d := by
  unfold heartbeatOpenSessions
  apply wp_get_bind
  -- a heartbeat does not touch the memory
  apply wp_forM fun _ m' _ => Used m (· = m.open_) m'
  · intro x xs m' d' h
    apply wp_write
    · exact fun _ _ => h
    · exact fun _ => h
    · trivial
  · exact fun _ _ h => h
  · exact ⟨rfl, rfl⟩

end Handlers

/-! ### One turn -/

open Transact SessionManager

/-- The event a turn takes out of the channel. -/
def SessionManager.Input.event? : Input → Option GameEvent
  | event e _ _ => some e
  | heartbeat _ _ _ _ => none

/-- The blocklist a turn reads, if it reads one. -/
def SessionManager.Input.Reads (blocklist : List GameKey) : Input → Prop
  | event _ blocklist' _ => blocklist' = blocklist
  | heartbeat _ _ _ _ => True

instance (blocklist : List GameKey) : (input : Input) → Decidable (input.Reads blocklist)
  | .event _ blocklist' _ => inferInstanceAs (Decidable (blocklist' = blocklist))
  | .heartbeat _ _ _ _ => instDecidableTrue

/-- What the blocklist leaves of some events. -/
def unblocked (blocklist : List GameKey) (events : List GameEvent) : List (GameKey × Bool) :=
  (events.map Steam.mark).filter fun m => decide (m.1 ∉ blocklist)

theorem unblocked_of_mem {blocklist : List GameKey} {event : GameEvent}
    (h : (Steam.mark event).1 ∈ blocklist) : unblocked blocklist [event] = [] :=
  List.filter_cons_of_neg (by simpa using h)

theorem unblocked_of_notMem {blocklist : List GameKey} {event : GameEvent}
    (h : (Steam.mark event).1 ∉ blocklist) : unblocked blocklist [event] = [Steam.mark event] :=
  List.filter_cons_of_pos (by simpa using h)

/-- The games in the map are those of a set, none of them blocked. -/
structure Up (blocklist : List GameKey) (on : Finset GameKey) (m : SessionManager) : Prop where
  mem : ∀ key, key ∈ m.open_ ↔ key ∈ on
  free : ∀ key ∈ on, key ∉ blocklist

theorem Up.insert {blocklist : List GameKey} {on : Finset GameKey} {m m' : SessionManager}
    (h : Up blocklist on m) {key : GameKey} {o : OpenSession} (h_free : key ∉ blocklist)
    (h_open : m'.open_ = m.open_.insert key o) : Up blocklist (put on (key, true)) m' where
  mem := by
    intro key'
    rw [h_open, AList.mem_insert, h.mem]
    exact Finset.mem_insert.symm
  free := by
    intro key' h_mem
    rcases Finset.mem_insert.mp h_mem with rfl | h_mem
    · exact h_free
    · exact h.free key' h_mem

theorem Up.erase {blocklist : List GameKey} {on : Finset GameKey} {m m' : SessionManager}
    (h : Up blocklist on m) {key : GameKey} (h_open : m'.open_ = m.open_.erase key) :
    Up blocklist (put on (key, false)) m' where
  mem := by
    intro key'
    rw [h_open, AList.mem_erase, h.mem]
    exact Finset.mem_erase.symm
  free := fun key' h_mem => h.free key' (Finset.mem_of_mem_erase h_mem)

/-- What a turn leaves: the games that are up are those of the set, and no unblocked event was
wasted. -/
def Served (blocklist : List GameKey) (on : Finset GameKey) (m m' : SessionManager) : Prop :=
  Quiet m' → (∀ key aid, .openSessionExists key aid ∉ m'.log) →
    Up blocklist on m' ∧ ∀ key ∈ m'.wasted, key ∈ m.wasted ∨ key ∈ blocklist

/-- A blocked event leaves the map as it is: a blocked game has no session. -/
theorem handleEvent_blocked {blocklist : List GameKey} {on : Finset GameKey} {m : SessionManager}
    {d : Database} (h : Up blocklist on m) {event : GameEvent}
    (h_blocked : (Steam.mark event).1 ∈ blocklist) (sample : Sample) :
    wp (handleEvent event blocklist sample)
      (fun r m' _ => r = .ok () ∧ m'.open_ = m.open_ ∧
        ∀ key ∈ m'.wasted, key ∈ m.wasted ∨ key ∈ blocklist) (fun _ => True) m d := by
  cases event with
  | started key displayName executablePath at_ =>
    -- a start of a blocked key is only noted as blocked
    have h_key : key ∈ blocklist := h_blocked
    show wp (handleStarted key displayName executablePath at_ blocklist sample) _ _ m d
    unfold handleStarted
    apply wp_get_bind
    rw [if_pos h_key]
    apply wp_modify
    refine ⟨rfl, rfl, fun key' h_mem => ?_⟩
    rw [wasted_noted_of_none m rfl] at h_mem
    exact .inl h_mem
  | stopped key at_ =>
    have h_key : key ∈ blocklist := h_blocked
    -- a blocked key is never in the map, so its stop is wasted, as it may be
    have h_lookup : m.open_.lookup key = none := by
      rw [AList.lookup_eq_none, h.mem]
      exact fun h_mem => h.free key h_mem h_key
    show wp (handleStopped key at_ sample) _ _ m d
    unfold handleStopped
    apply wp_get_bind
    rw [h_lookup]
    apply wp_modify
    refine ⟨rfl, rfl, fun key' h_mem => ?_⟩
    rcases List.mem_append.mp (wasted_noted m _ ▸ h_mem) with h_mem | h_mem
    · exact .inl h_mem
    · rw [List.mem_singleton.mp h_mem]
      exact .inr h_key

/-- An unblocked event that switches its game on or off does so. -/
theorem handleEvent_used {blocklist : List GameKey} {on : Finset GameKey} {m : SessionManager}
    {d : Database} (h : Up blocklist on m) {event : GameEvent}
    (h_free : (Steam.mark event).1 ∉ blocklist) (h_effective : Effective on [Steam.mark event])
    (sample : Sample) :
    wp (handleEvent event blocklist sample)
      (fun r m' _ => m'.wasted = m.wasted ∧
        (r = .ok () → (∀ key aid, .openSessionExists key aid ∉ m'.log) →
          Up blocklist (put on (Steam.mark event)) m')) (fun _ => True) m d := by
  cases event with
  | started key displayName executablePath at_ =>
    -- an effective start is of a key that is down, and an effective stop of one that is up
    have h_absent : key ∉ m.open_ := by
      have h_first : decide (key ∈ on) ≠ true := h_effective.1
      rw [h.mem]
      simpa using h_first
    refine wp_mono (handleStarted_used displayName executablePath at_ sample h_free h_absent) ?_
      (fun _ _ => trivial)
    rintro r m' d' ⟨h_wasted, h_ok⟩
    refine ⟨h_wasted, fun h_r h_accepted => ?_⟩
    rcases h_ok h_r with ⟨o, h_open⟩ | ⟨aid, h_refused⟩
    · exact h.insert h_free h_open
    · exact absurd h_refused (h_accepted key aid)
  | stopped key at_ =>
    have h_open : key ∈ m.open_ := by
      have h_first : decide (key ∈ on) ≠ false := h_effective.1
      rw [h.mem]
      simpa using h_first
    refine wp_mono (handleStopped_used at_ sample h_open) ?_ (fun _ _ => trivial)
    rintro r m' d' ⟨h_wasted, h_erased⟩
    exact ⟨h_wasted, fun _ _ => h.erase h_erased⟩

/-- **One turn** does what the unblocked events it takes say, if they switch games on and off. -/
theorem turn_served {blocklist : List GameKey} {on : Finset GameKey} {m : SessionManager}
    (d : Database) (h : Up blocklist on m) (input : Input) (h_reads : input.Reads blocklist)
    (h_effective : Effective on (unblocked blocklist input.event?.toList)) :
    wp (turn input)
      (fun _ m' _ => Served blocklist ((unblocked blocklist input.event?.toList).foldl put on) m m')
      (fun _ => True) m d := by
  have h_same : ∀ {m' : SessionManager}, m'.open_ = m.open_ → Up blocklist on m' := by
    intro m' h_open
    exact ⟨fun key => by rw [h_open, h.mem], h.free⟩
  cases input with
  -- a heartbeat leaves the map as it is
  | heartbeat at_ now idleGrace order =>
    refine wp_logged (heartbeatOpenSessions_used at_ now idleGrace order) ?_ ?_
    · rintro m' d' ⟨h_wasted, h_open⟩ - -
      exact ⟨h_same h_open, fun key h_mem => .inl (h_wasted ▸ h_mem)⟩
    · intro e m' d' _ h_quiet
      exact absurd h_quiet (not_quiet_noted rfl)
  | event event blocklist' sample =>
    obtain rfl : blocklist' = blocklist := h_reads
    -- events of blocked keys switch nothing
    by_cases h_blocked : (Steam.mark event).1 ∈ blocklist'
    · show wp _ (fun _ m' _ => Served _ ((unblocked blocklist' [event]).foldl put on) m m') _ m d
      rw [unblocked_of_mem h_blocked]
      refine wp_logged (handleEvent_blocked h h_blocked sample) ?_ ?_
      · rintro m' d' ⟨-, h_open, h_wasted⟩ - -
        exact ⟨h_same h_open, h_wasted⟩
      · rintro e m' d' ⟨h_ok, -⟩
        exact nomatch h_ok
    · -- of the others each switches its key, because the source sends no event twice
      have h_one : Effective on (unblocked blocklist' [event]) := h_effective
      show wp _ (fun _ m' _ => Served _ ((unblocked blocklist' [event]).foldl put on) m m') _ m d
      rw [unblocked_of_notMem h_blocked] at h_one ⊢
      refine wp_logged (handleEvent_used h h_blocked h_one sample) ?_ ?_
      · rintro m' d' ⟨h_wasted, h_ok⟩ - h_accepted
        exact ⟨h_ok rfl h_accepted, fun key h_mem => .inl (h_wasted ▸ h_mem)⟩
      · intro e m' d' _ h_quiet
        exact absurd h_quiet (not_quiet_noted rfl)

/-! ### A run of the manager -/

/-- The events a run has processed. -/
def processed (tr : List ((Input × List Fate) × Live)) : List GameEvent :=
  tr.flatMap fun x => x.1.1.event?.toList

theorem unblocked_append (blocklist : List GameKey) (xs ys : List GameEvent) :
    unblocked blocklist (xs ++ ys) = unblocked blocklist xs ++ unblocked blocklist ys := by
  unfold unblocked
  rw [List.map_append, List.filter_append]

/-- **A run** does what the unblocked events say, and wastes none. -/
theorem run_served {blocklist : List GameKey} {s : Live} {tr : List ((Input × List Fate) × Live)}
    (hrun : IsRun Live.Step s tr) (h_reads : ∀ x ∈ tr, x.1.1.Reads blocklist)
    (h_quiet : Quiet (final s tr).1)
    (h_accepted : ∀ t ∈ states s tr, ∀ key aid, .openSessionExists key aid ∉ t.1.log)
    {on : Finset GameKey} (h : Up blocklist on s.1)
    (h_effective : Effective on (unblocked blocklist (processed tr))) :
    Up blocklist ((unblocked blocklist (processed tr)).foldl put on) (final s tr).1 ∧
      ∀ key ∈ (final s tr).1.wasted, key ∈ s.1.wasted ∨ key ∈ blocklist := by
  -- by induction on the run; what has been put on so far is what the map holds
  induction hrun generalizing on with
  | nil s => exact ⟨h, fun key h_mem => .inl h_mem⟩
  | @cons s t l tr h_step h_rest ih =>
    have h_split : unblocked blocklist (processed ((l, t) :: tr)) =
        unblocked blocklist l.1.event?.toList ++ unblocked blocklist (processed tr) :=
      unblocked_append blocklist _ (processed tr)
    rw [h_split, effective_append] at h_effective
    obtain ⟨-, h_served⟩ :=
      h_step.post (turn_served s.2 h l.1 (h_reads _ List.mem_cons_self) h_effective.1)
    obtain ⟨h_up, h_wasted⟩ := h_served (h_quiet.mono (log_subset_final h_rest))
      (h_accepted t (List.mem_cons_of_mem _ List.mem_cons_self))
    obtain ⟨h_end, h_wasted'⟩ := ih (fun x h_x => h_reads x (List.mem_cons_of_mem _ h_x)) h_quiet
      (fun u h_u => h_accepted u (List.mem_cons_of_mem _ h_u)) h_up h_effective.2
    rw [h_split, List.foldl_append]
    refine ⟨h_end, fun key h_mem => ?_⟩
    -- a wasted event was wasted in the first turn or in a later one
    rcases h_wasted' key h_mem with h_mem | h_mem
    · exact h_wasted key h_mem
    · exact .inr h_mem


/-! ### Open sessions -/

/-- The game has been started, and not been stopped since. -/
def Unmatched (events : List GameEvent) (key : GameKey) : Prop :=
  ∃ before displayName executablePath at_ after,
    events = before ++ .started key displayName executablePath at_ :: after ∧
      ∀ at_, .stopped key at_ ∉ after

/-- A game is unmatched if the last event about it is a start. -/
theorem unmatched_iff {events : List GameEvent} {key : GameKey} :
    Unmatched events key ↔ (about key (events.map Steam.mark)).getLast? = some true := by
  induction events using List.reverseRecOn with
  | nil =>
    refine iff_of_false ?_ (fun h => nomatch h)
    rintro ⟨before, _, _, _, after, h_split, -⟩
    exact List.append_ne_nil_of_right_ne_nil _ (List.cons_ne_nil _ _) h_split.symm
  | append_singleton events event ih =>
    rw [List.map_append, about_append]
    -- an event that does not stop the game leaves an earlier start unmatched
    have h_keep : (∀ at_, event ≠ .stopped key at_) → Unmatched events key →
        Unmatched (events ++ [event]) key := by
      rintro h_event ⟨before, displayName, executablePath, at_, after, rfl, h_after⟩
      refine ⟨before, displayName, executablePath, at_, after ++ [event], ?_, fun at' h_mem => ?_⟩
      · rw [List.append_assoc, List.cons_append]
      · rcases List.mem_append.mp h_mem with h_mem | h_mem
        · exact h_after at' h_mem
        · exact h_event at' (List.mem_singleton.mp h_mem).symm
    -- an event that does not start it makes none
    have h_back : (∀ displayName executablePath at_,
          event ≠ .started key displayName executablePath at_) →
        Unmatched (events ++ [event]) key →
        (∀ at_, event ≠ .stopped key at_) ∧ Unmatched events key := by
      rintro h_event ⟨before, displayName, executablePath, at_, after, h_split, h_after⟩
      cases after using List.reverseRecOn with
      | nil =>
        obtain ⟨-, h_last⟩ := List.append_inj' h_split rfl
        exact absurd (List.cons.inj h_last).1 (h_event displayName executablePath at_)
      | append_singleton after last =>
        rw [← List.cons_append, ← List.append_assoc] at h_split
        obtain ⟨rfl, h_last⟩ := List.append_inj' h_split rfl
        obtain ⟨rfl, -⟩ := List.cons.inj h_last
        refine ⟨fun at' h_eq => ?_, before, displayName, executablePath, at_, after, rfl,
          fun at' h_mem => h_after at' (List.mem_append_left _ h_mem)⟩
        exact h_after at' (h_eq ▸ List.mem_append_right _ List.mem_cons_self)
    cases event with
    | started key' displayName executablePath at_ =>
      by_cases h_key : key' = key
      · subst h_key
        refine iff_of_true ⟨events, displayName, executablePath, at_, [], rfl,
          fun _ h_mem => absurd h_mem List.not_mem_nil⟩ ?_
        show (_ ++ about key' [(key', true)]).getLast? = _
        rw [about_cons_self, about_nil, List.getLast?_concat]
      · show _ ↔ (_ ++ about key [(key', true)]).getLast? = _
        rw [about_cons_of_ne h_key, about_nil, List.append_nil, ← ih]
        refine ⟨fun h => (h_back ?_ h).2, h_keep fun at' h_eq => nomatch h_eq⟩
        rintro displayName' executablePath' at' h_eq
        exact h_key (GameEvent.started.inj h_eq).1
    | stopped key' at_ =>
      by_cases h_key : key' = key
      · subst h_key
        refine iff_of_false (fun h => ?_) ?_
        · exact (h_back (fun _ _ _ h_eq => nomatch h_eq) h).1 at_ rfl
        · show (_ ++ about key' [(key', false)]).getLast? ≠ _
          rw [about_cons_self, about_nil, List.getLast?_concat]
          exact fun h => nomatch h
      · show _ ↔ (_ ++ about key [(key', false)]).getLast? = _
        rw [about_cons_of_ne h_key, about_nil, List.append_nil, ← ih]
        refine ⟨fun h => (h_back (fun _ _ _ h_eq => nomatch h_eq) h).2, h_keep fun at' h_eq => ?_⟩
        exact h_key (GameEvent.stopped.inj h_eq).1

/-- What unblocked events leave on are the unblocked games that are unmatched. -/
theorem mem_unblocked_iff {blocklist : List GameKey} {events : List GameEvent} {key : GameKey} :
    key ∈ (unblocked blocklist events).foldl put ∅ ↔ key ∉ blocklist ∧ Unmatched events key := by
  rw [mem_foldl_put_iff, unmatched_iff]
  -- a blocked key has no switch; for another one the filter drops nothing
  by_cases h_blocked : key ∈ blocklist
  · have h_none : about key (unblocked blocklist events) = [] := by
      rw [about_eq_nil_iff]
      rintro m h_mem rfl
      exact of_decide_eq_true (List.mem_filter.mp h_mem).2 h_blocked
    rw [h_none]
    simp [h_blocked]
  · have h_about : about key (unblocked blocklist events) = about key (events.map Steam.mark) := by
      unfold about unblocked
      rw [List.filter_filter]
      refine congrArg _ (List.filter_congr fun m _ => ?_)
      by_cases h_key : m.1 = key
      · simp [h_key, h_blocked]
      · simp [h_key]
    rw [h_about]
    simp [h_blocked]

/-- The database holds an open session of the game. -/
def Database.HoldsOpen (d : Database) (key : GameKey) : Prop :=
  ∃ sid aid, (sid, aid) ∈ d.openRows ∧ (aid, key) ∈ d.keyRows

/-- While map and table match, the games with an open row are those of the map. -/
theorem Matches.holdsOpen_iff {m : SessionManager} {d : Database} (h : Matches m d)
    (key : GameKey) : d.HoldsOpen key ↔ key ∈ m.open_ := by
  refine ⟨?_, ?_⟩
  · rintro ⟨sid, aid, h_row, h_key⟩
    by_contra h_absent
    exact h.not_open h_absent h_key ⟨sid, h_row⟩
  · intro h_mem
    obtain ⟨o, h_lookup⟩ := Option.isSome_iff_exists.mp (AList.lookup_isSome.mpr h_mem)
    obtain ⟨h_row, h_key⟩ := h.held key o h_lookup
    exact ⟨o.sessionId, o.applicationId, h_row, h_key⟩

/-- After a recovery no game is up, and nothing has been wasted. -/
theorem recovered_up {d₀ d₁ : Database} {m₁ : SessionManager} {n : ℕ} {fates rest : List Fate}
    (h_recover : recoverOrphans {} d₀ fates = .returned n m₁ d₁ rest) (blocklist : List GameKey) :
    Up blocklist ∅ m₁ ∧ m₁.wasted = [] := by
  obtain ⟨-, h_ok⟩ := wp_returned (recoverOrphans_spec (.refl d₀) {}) h_recover
  obtain ⟨-, h_open, h_log⟩ := h_ok n rfl
  -- the recovery leaves the map empty, and its log tells of orphans at most
  refine ⟨⟨fun key => ?_, fun key h_mem => absurd h_mem (Finset.notMem_empty key)⟩, ?_⟩
  · rw [h_open]
    exact iff_of_false (AList.notMem_empty key) (Finset.notMem_empty key)
  · unfold SessionManager.wasted
    rcases h_log with h_log | h_log
    · rw [h_log]
      rfl
    · rw [h_log]
      rfl

/-- **The two sources compose without a wasted event.** Let the manager process what the Steam source
and the foreground source send, in any interleaving and with heartbeats in between, under a fixed
blocklist and without a failure of the database. It never finds the game of an unblocked `Started`
up, nor that of an unblocked `Stopped` not up; and after each event the games with an open session,
in the map and in the database, are the unblocked ones whose `Started` is unmatched so far. -/
theorem sources_compose (outlet : Steam.DrainOutlet) (proc : ProcSnapshot)
    (libraries : List Steam.Library) (located : ℕ) (reads : List (Option (List UInt8)))
    {selfPid : ℕ} {turns : List (Kwin.Input × Kwin.Loop)}
    (h_turns : IsRun (Kwin.Step selfPid) {} turns) (now : List GameEvent → OffsetDateTime)
    {channel : List GameEvent}
    (h_channel : Interleaves (Steam.run outlet proc libraries located reads).sent
      (Kwin.sent selfPid now turns) channel)
    {d₀ d₁ : Database} {m₁ : SessionManager} {n : ℕ} {fates rest : List Fate}
    (h_recover : recoverOrphans {} d₀ fates = .returned n m₁ d₁ rest)
    {blocklist : List GameKey} {tr : List ((Input × List Fate) × Live)}
    (hrun : IsRun Live.Step (m₁, d₁) tr) (h_processed : processed tr <+: channel)
    (h_reads : ∀ x ∈ tr, x.1.1.Reads blocklist) (h_quiet : Quiet (final (m₁, d₁) tr).1) :
    (∀ key, key ∉ blocklist → .alreadyOpen key ∉ (final (m₁, d₁) tr).1.log ∧
      .unknownSession key ∉ (final (m₁, d₁) tr).1.log) ∧
    ∀ before after, tr = before ++ after → ∀ key,
      (key ∈ (final (m₁, d₁) before).1.open_ ↔
        key ∉ blocklist ∧ Unmatched (processed before) key) ∧
      ((final (m₁, d₁) before).2.HoldsOpen key ↔
        key ∉ blocklist ∧ Unmatched (processed before) key) := by
  obtain ⟨h_start, h_base, -⟩ := recovered_inStep h_recover
  obtain ⟨h_up, h_wasted⟩ := recovered_up h_recover blocklist
  have h_states := inStep_run hrun h_quiet h_base h_start
  have h_effective : Effective ∅ (channel.map Steam.mark) :=
    channel_effective (Steam.run_bracketed outlet proc libraries located reads) h_turns now h_channel
  -- what has been processed is a front of the channel
  have h_front : ∀ before after, tr = before ++ after →
      Effective ∅ (unblocked blocklist (processed before)) := by
    rintro before after rfl
    obtain ⟨later, h_later⟩ := h_processed
    rw [← h_later, show processed (before ++ after) = processed before ++ processed after from
      List.flatMap_append, List.append_assoc, List.map_append, effective_append] at h_effective
    exact h_effective.1.filter fun key => decide (key ∉ blocklist)
  have h_served : ∀ before after, tr = before ++ after →
      Up blocklist ((unblocked blocklist (processed before)).foldl put ∅)
          (final (m₁, d₁) before).1 ∧
        ∀ key ∈ (final (m₁, d₁) before).1.wasted, key ∈ m₁.wasted ∨ key ∈ blocklist := by
    rintro before after rfl
    obtain ⟨h_before, h_after⟩ := hrun.of_append
    refine run_served h_before (fun x h_x => h_reads x (List.mem_append_left _ h_x)) ?_ ?_ h_up
      (h_front before after rfl)
    · rw [final_append] at h_quiet
      exact h_quiet.mono (log_subset_final h_after)
    · intro t h_t
      refine (h_states t ?_).no_refusal
      unfold states at h_t ⊢
      rw [List.map_append, ← List.cons_append]
      exact List.mem_append_left _ h_t
  refine ⟨fun key h_free => ?_, fun before after h_split key => ?_⟩
  · have h_none : key ∉ (final (m₁, d₁) tr).1.wasted := by
      intro h_mem
      rcases (h_served tr [] (List.append_nil tr).symm).2 key h_mem with h_mem | h_mem
      · rw [h_wasted] at h_mem
        exact List.not_mem_nil h_mem
      · exact h_free h_mem
    rw [mem_wasted, not_or] at h_none
    exact h_none
  · have h_map : key ∈ (final (m₁, d₁) before).1.open_ ↔
        key ∉ blocklist ∧ Unmatched (processed before) key := by
      rw [(h_served before after h_split).1.mem, mem_unblocked_iff]
    refine ⟨h_map, ?_⟩
    rw [← h_map]
    refine (h_states _ ?_).match_.holdsOpen_iff key
    obtain rfl := h_split
    have h_last := final_mem_states (m₁, d₁) before
    unfold states at h_last ⊢
    rw [List.map_append, ← List.cons_append]
    exact List.mem_append_left _ h_last

/-! #### A game of each source -/

/-- A Steam game that is found running, and then reported to be so by the log. -/
def steamGame : Steam.SourceState :=
  Steam.run ⟨.receiving fun _ => .firstDay 90, fun _ appid => appid⟩ Steam.playing
    [some [some manifest440]] 0 [some Steam.startLine]

/-- What the foreground source sends in a run. -/
def foregroundGames : List GameEvent :=
  Kwin.sent 1 (fun _ => .firstDay 100) (trace (Kwin.next 1) {} Kwin.altTabs)

/-- The Steam game comes up after the first game in the foreground. The second game in the foreground
is blocked. -/
def bothSources : List (Input × List Fate) :=
  (foregroundGames.take 1 ++ (steamGame.sent ++ foregroundGames.drop 1)).map fun event =>
    (.event event [.native "/opt/b"] (sampleAt 0), [])

theorem sources_compose_bothSources :
    (∀ key, key ∉ [GameKey.native "/opt/b"] →
      .alreadyOpen key ∉
        (final ({}, Database.empty) (trace Live.next ({}, Database.empty) bothSources)).1.log ∧
      .unknownSession key ∉
        (final ({}, Database.empty) (trace Live.next ({}, Database.empty) bothSources)).1.log) ∧
    ∀ before after, trace Live.next ({}, Database.empty) bothSources = before ++ after → ∀ key,
      (key ∈ (final ({}, Database.empty) before).1.open_ ↔
        key ∉ [GameKey.native "/opt/b"] ∧ Unmatched (processed before) key) ∧
      ((final ({}, Database.empty) before).2.HoldsOpen key ↔
        key ∉ [GameKey.native "/opt/b"] ∧ Unmatched (processed before) key) := by
  -- the log's events come between the first and the second of the foreground
  have h_channel : Interleaves steamGame.sent foregroundGames
      (foregroundGames.take 1 ++ (steamGame.sent ++ foregroundGames.drop 1)) := by
    conv =>
      arg 2
      rw [← List.take_append_drop 1 foregroundGames]
    exact .between _ _ _
  have h_recover : recoverOrphans {} Database.empty [] = .returned 0 {} Database.empty [] := rfl
  exact sources_compose ⟨.receiving fun _ => .firstDay 90, fun _ appid => appid⟩ Steam.playing
    [some [some manifest440]] 0 [some Steam.startLine] (isRun_trace (Kwin.next 1) {} Kwin.altTabs)
    (fun _ => .firstDay 100) h_channel h_recover
    (isRun_trace Live.next ({}, Database.empty) bothSources) (by decide +kernel) (by decide +kernel)
    (by decide +kernel)

end Ludex
