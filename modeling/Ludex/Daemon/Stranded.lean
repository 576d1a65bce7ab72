import Ludex.Daemon.SessionSimulation

/-!
# A failed stop

`handleStopped` takes the session out of the map before it closes the row. When the close fails,
the transaction rolls back, so the row is still open, but the map has forgotten it: the session is
`Stranded`. No later event, heartbeat or shutdown of this run closes the row (`Move.stranded_step`), and
every later `Started` of the game runs into the open row and is dropped (`handleStarted_stranded`),
although the handler calls that case unreachable.

`failed_stop_strands` says that this happens to every stop that fails, in every reachable state.
-/

namespace Ludex

open Transact SessionManager Run

/-! ### Stranded sessions -/

/-- The open row of a game is not in the map. -/
structure Stranded (key : GameKey) (sid aid : ℤ) (s : Live) : Prop where
  absent : key ∉ s.1.open_
  row : (sid, aid) ∈ s.2.openRows
  application : (aid, key) ∈ s.2.keyRows
  forgotten : ∀ key' o, s.1.open_.lookup key' = some o → o.sessionId ≠ sid

theorem Stranded.erase {key key' : GameKey} {sid aid : ℤ} {s t : Live} (h : Stranded key sid aid s)
    (h_map : t.1.open_ = s.1.open_.erase key') (h_row : (sid, aid) ∈ t.2.openRows)
    (h_keys : t.2.keyRows = s.2.keyRows) : Stranded key sid aid t where
  -- the key was not in the map, and the map only loses
  absent := by
    rw [h_map, AList.mem_erase]
    exact fun h_mem => h.absent h_mem.2
  row := h_row
  application := by
    rw [h_keys]
    exact h.application
  forgotten := by
    -- of the entries that are left none was about the session
    intro key'' o h_o
    rw [h_map] at h_o
    by_cases h_key : key'' = key'
    · rw [h_key, AList.lookup_erase] at h_o
      exact nomatch h_o
    · rw [AList.lookup_erase_ne h_key] at h_o
      exact h.forgotten key'' o h_o

/-- **A stranded session stays stranded.** -/
theorem Move.stranded_step {on : Occasion} {key : GameKey} {sid aid : ℤ} {s t : Live}
    (h_move : Move on s t) (h : Stranded key sid aid s) : Stranded key sid aid t := by
  cases h_move with
  | noted record h_plain => exact ⟨h.absent, h.row, h.application, h.forgotten⟩
  | notified notification => exact ⟨h.absent, h.row, h.application, h.forgotten⟩
  | refused key' at_ aid' h_on h_absent h_key h_open =>
    exact ⟨h.absent, h.row, h.application, h.forgotten⟩
  | created key' displayName executablePath at_ app h_on h_create =>
    -- a key is added
    obtain ⟨h_rows, h_keys, -⟩ := create_rows h_create
    refine ⟨h.absent, ?_, ?_, h.forgotten⟩
    · rw [h_rows]
      exact h.row
    · rw [h_keys]
      exact List.mem_append_left _ h.application
  | opened key' at_ aid' row o h_on h_absent h_key h_begin h_session h_application =>
    obtain ⟨h_rows, h_keys, h_fresh⟩ := begin_rows h_begin
    -- the game itself cannot be opened over its open row
    have h_ne : key ≠ key' := by
      rintro rfl
      obtain ⟨e, h_error⟩ := begin_of_open (Database.keyRows_application h.application h_key ▸ h.row)
        at_
      exact nomatch h_error.symm.trans h_begin
    refine ⟨?_, ?_, ?_, ?_⟩
    · rw [AList.mem_insert]
      rintro (h_eq | h_mem)
      · exact h_ne h_eq
      · exact h.absent h_mem
    · rw [h_rows]
      exact List.mem_append_left _ h.row
    · rw [h_keys]
      exact h.application
    · intro key'' o' h_o'
      by_cases h_new : key'' = key'
      · -- the new row has a fresh id
        subst h_new
        rw [AList.lookup_insert] at h_o'
        rw [← Option.some.inj h_o', h_session]
        rintro rfl
        obtain ⟨s', h_mem, -, h_id, -⟩ := Database.mem_openRows.mp h.row
        exact h_fresh (h_id ▸ List.mem_map_of_mem h_mem)
      · rw [AList.lookup_insert_ne h_new] at h_o'
        exact h.forgotten key'' o' h_o'
  | beat key' o sample at_ h_on h_o h_beat =>
    obtain ⟨h_rows, h_keys⟩ := heartbeat_rows h_beat
    refine ⟨h.absent, ?_, ?_, h.forgotten⟩
    · rw [h_rows]
      exact h.row
    · rw [h_keys]
      exact h.application
  | closed key' o sample at_ reason h_closes h_o h_close =>
    obtain ⟨h_rows, h_keys⟩ := closeAndRollup_rows h_close
    -- it is another session that is closed
    refine h.erase rfl ?_ h_keys
    rw [h_rows]
    exact List.mem_filter.mpr ⟨h.row, decide_eq_true (h.forgotten key' o h_o).symm⟩
  | stranded key' o record h_closes h_o h_failure =>
    -- the map loses another session
    exact h.erase (s := (_, _)) (t := (_, _)) rfl h.row rfl

theorem Moves.stranded {on : Occasion} {key : GameKey} {sid aid : ℤ} {s t : Live}
    (h_moves : Moves on s t) (h : Stranded key sid aid s) : Stranded key sid aid t := by
  induction h_moves with
  | refl => exact h
  | tail _ h_move ih => exact h_move.stranded_step ih

/-! ### What happens to the next start -/

/-- **A `Started` of a stranded game is dropped**, by the open row or by another failure of the
database. -/
theorem handleStarted_stranded {key : GameKey} {sid aid : ℤ} {m : SessionManager} {d : Database}
    (h : Stranded key sid aid (m, d)) (displayName : String) (executablePath : Option PathBuf)
    (at_ : OffsetDateTime) {blocklist : List GameKey} (h_blocked : key ∉ blocklist)
    (sample : Sample) :
    wp (handleStarted key displayName executablePath at_ blocklist sample)
      (fun r m' d' => d' = d ∧ m'.open_ = m.open_ ∧
        (r = .ok () ∧ m'.log = m.log ++ [.openSessionExists key aid] ∨
          (∃ e, r = .error e) ∧ m'.log = m.log))
      (fun d' => d' = d) m d := by
  have h_failed : ∀ e : Error, d = d ∧ m.open_ = m.open_ ∧
      ((.error e : Except Error Unit) = .ok () ∧ m.log = m.log ++ [.openSessionExists key aid] ∨
        (∃ e', (.error e : Except Error Unit) = .error e') ∧ m.log = m.log) :=
    fun e => ⟨rfl, rfl, .inr ⟨⟨e, rfl⟩, rfl⟩⟩
  obtain ⟨app, h_app, h_id, h_key⟩ := Database.mem_keyRows.mp h.application
  have h_found : ApplicationRepo.findByKey d key = some app := by
    rw [← h_key]
    exact ApplicationRepo.findByKey_of_mem h_app
  unfold handleStarted
  apply wp_get_bind
  rw [if_neg h_blocked, if_neg h.absent]
  apply wp_bind
  unfold findOrCreateApplication
  refine wp_read_bind ?_ h_failed rfl
  rw [h_found]
  apply wp_pure
  show wp (openSession key at_ sample app) _ _ m d
  unfold openSession
  apply wp_bind
  apply wp_attempt
  apply wp_transact
  · -- the index does not let a second open row in
    intro row d' h_begin
    obtain ⟨e, h_error⟩ := begin_of_open (h_id ▸ h.row) at_
    exact nomatch h_error.symm.trans h_begin
  · intro e h_begin
    cases e with
    | openSessionExists aid' =>
      obtain ⟨rfl, -⟩ := begin_refused h_begin
      exact wp_modify ⟨rfl, rfl, .inl ⟨rfl, by rw [← h_id]; rfl⟩⟩
    | sql e => exact wp_throw (h_failed _)
    | invariant message => exact wp_throw (h_failed _)
  · exact wp_throw (h_failed _)
  · rfl

/-- The input is a `Started` of a game that is not blocked. -/
def SessionManager.Input.Starts (key : GameKey) : Input → Prop
  | event (.started key' _ _ _) blocklist _ => key' = key ∧ key ∉ blocklist
  | _ => False

/-- What a dropped `Started` leaves: nothing but a record in the log. -/
def Dropped (key : GameKey) (aid : ℤ) (s t : Live) : Prop :=
  t.2 = s.2 ∧ t.1.open_ = s.1.open_ ∧
    (t.1.log = s.1.log ++ [.openSessionExists key aid] ∨
      ∃ e, t.1.log = s.1.log ++ [.eventFailed e])

theorem Stranded.dropped {key : GameKey} {sid aid : ℤ} {s t : Live} {l : Input × List Fate}
    (h : Stranded key sid aid s) (h_step : Live.Step s l t) (h_starts : l.1.Starts key) :
    Dropped key aid s t := by
  obtain ⟨input, fates⟩ := l
  cases input with
  | heartbeat at_ now idleGrace order => exact h_starts.elim
  | event event blocklist sample =>
    cases event with
    | stopped key' at_ => exact h_starts.elim
    | started key' displayName executablePath at_ =>
      obtain ⟨rfl, h_blocked⟩ := h_starts
      -- the turn is known by its two outcomes: the refusal is noted, or an error is
      have h_turn : wp (turn (.event (.started key' displayName executablePath at_) blocklist sample))
          (fun _ m' d' => Dropped key' aid s (m', d')) (fun d' => d' = s.2) s.1 s.2 := by
        -- an accepted turn notes the row that is in its way
        refine wp_logged
          (handleStarted_stranded h displayName executablePath at_ h_blocked sample) ?_ ?_
        · rintro m' d' ⟨h_db, h_map, ⟨-, h_log⟩ | ⟨⟨e, h_error⟩, -⟩⟩
          · exact ⟨h_db, h_map, .inl h_log⟩
          · exact nomatch h_error
        · -- a failed one notes its error
          rintro e m' d' ⟨h_db, h_map, ⟨h_ok, -⟩ | ⟨-, h_log⟩⟩
          · exact nomatch h_ok
          · refine ⟨h_db, h_map, .inr ⟨e, ?_⟩⟩
            rw [← h_log]
            rfl
      obtain ⟨-, h_dropped⟩ := h_step.post h_turn
      exact h_dropped

/-! ### The failed stop -/

/-- A stop of an open session either closes it, and logs that, or fails with the session out of the
map and the database as it was. -/
theorem handleStopped_spec {key : GameKey} {o : OpenSession} {m : SessionManager} {d : Database}
    (h_o : m.open_.lookup key = some o) (at_ : OffsetDateTime) (sample : Sample) :
    wp (handleStopped key at_ sample)
      (fun r m' d' =>
        (r = .ok () ∧
            ∃ full, m'.log = m.log ++ [.closed o.applicationId o.sessionId full .terminated]) ∨
          (∃ e, r = .error e) ∧ m'.open_ = m.open_.erase key ∧ m'.log = m.log ∧ d' = d)
      (fun _ => True) m d := by
  unfold handleStopped
  apply wp_get_bind
  rw [h_o]
  apply wp_modify_bind
  unfold closeSession
  apply wp_bind
  apply wp_write
  · intro d' _
    apply wp_modify_bind
    exact wp_modify (.inl ⟨rfl, _, rfl⟩)
  · -- the error leaves the handler with the entry already taken out
    exact fun e => .inr ⟨⟨e, rfl⟩, rfl, rfl, rfl⟩
  · trivial

theorem failed_stop {key : GameKey} {o : OpenSession} {at_ : OffsetDateTime}
    {blocklist : List GameKey} {sample : Sample} {fates : List Fate} {s t : Live} {e : Error}
    (h_o : s.1.open_.lookup key = some o)
    (h_step : Live.Step s (.event (.stopped key at_) blocklist sample, fates) t)
    (h_failed : t.1.log = s.1.log ++ [.eventFailed e]) :
    t.1.open_ = s.1.open_.erase key ∧ t.2 = s.2 := by
  have h_turn : wp (turn (.event (.stopped key at_) blocklist sample))
      (fun _ m' d' =>
        (∃ aid sid full reason, m'.log = s.1.log ++ [.closed aid sid full reason]) ∨
          m'.open_ = s.1.open_.erase key ∧ d' = s.2)
      (fun _ => True) s.1 s.2 := by
    refine wp_logged (handleStopped_spec h_o at_ sample) ?_ ?_
    · rintro m' d' (⟨-, full, h_log⟩ | ⟨-, h_map, -, h_db⟩)
      · exact .inl ⟨_, _, _, _, h_log⟩
      · exact .inr ⟨h_map, h_db⟩
    · rintro e' m' d' (⟨h_ok, -⟩ | ⟨-, h_map, -, h_db⟩)
      · exact nomatch h_ok
      · exact .inr ⟨h_map, h_db⟩
  obtain ⟨-, ⟨_, _, _, _, h_log⟩ | h_stop⟩ := h_step.post h_turn
  · -- the log would say that the close succeeded
    have h_record := List.append_cancel_left (h_failed.symm.trans h_log)
    exact nomatch h_record
  · exact h_stop

/-- A failed stop of a session whose entry is an open row strands it. -/
theorem Holds.stranded {key : GameKey} {o : OpenSession} {s t : Live} (h : Holds s.1 s.2)
    (h_o : s.1.open_.lookup key = some o) (h_map : t.1.open_ = s.1.open_.erase key)
    (h_db : t.2 = s.2) : Stranded key o.sessionId o.applicationId t := by
  obtain ⟨h_row, h_key⟩ := h key o h_o
  -- the row stays open under the application, as the map said before the entry went
  refine ⟨?_, ?_, ?_, ?_⟩
  · rw [h_map, AList.mem_erase]
    exact fun h_mem => h_mem.1 rfl
  · rw [h_db]
    exact h_row
  · rw [h_db]
    exact h_key
  · -- two entries never hold the same session
    intro key' o' h_o' h_session
    rw [h_map] at h_o'
    by_cases h_same : key' = key
    · rw [h_same, AList.lookup_erase] at h_o'
      exact nomatch h_o'
    · rw [AList.lookup_erase_ne h_same] at h_o'
      exact h_same (h.injective h_o' h_o h_session)

theorem holds_run {s : Live} {tr : List ((Input × List Fate) × Live)}
    (hrun : IsRun Live.Step s tr) (h : Holds s.1 s.2) : Holds (final s tr).1 (final s tr).2 :=
  hrun.final_invariant (fun s => Holds s.1 s.2) (fun _ _ _ h_step h => h_step.moves.holds h) h

/-- **Every failed stop strands its session.** In any run from an empty map, take a stop of an open
session whose close fails. The key is gone from the map, map and open rows no longer match, and in
every run from there the row stays open, the key stays out of the map, and each `Started` of the
game that is not blocked is dropped. The shutdown does not close the row either. -/
theorem failed_stop_strands {s₀ t : Live} {before : List ((Input × List Fate) × Live)}
    {key : GameKey} {at_ : OffsetDateTime} {blocklist : List GameKey} {sample : Sample}
    {fates : List Fate} {e : Error} (h_start : s₀.1.open_ = ∅) (hrun : IsRun Live.Step s₀ before)
    (h_open : key ∈ (final s₀ before).1.open_)
    (h_step : Live.Step (final s₀ before) (.event (.stopped key at_) blocklist sample, fates) t)
    (h_failed : t.1.log = (final s₀ before).1.log ++ [.eventFailed e]) :
    key ∉ t.1.open_ ∧ ¬ Matches t.1 t.2 ∧
      ∃ sid aid, (sid, aid) ∈ t.2.openRows ∧ (aid, key) ∈ t.2.keyRows ∧
        ∀ after, IsRun Live.Step t after →
          (∀ u ∈ states t after, (sid, aid) ∈ u.2.openRows ∧ key ∉ u.1.open_) ∧
          (∀ x ∈ steps t after, x.2.1.1.Starts key → Dropped key aid x.1 x.2.2) ∧
          ∀ reason now order fates m d rest,
            (order.map Prod.fst).Perm (final t after).1.open_.keys →
            closeAllOpen reason now order (final t after).1 (final t after).2 fates =
              .returned () m d rest →
            (sid, aid) ∈ d.openRows := by
  have h_holds : Holds (final s₀ before).1 (final s₀ before).2 := by
    apply holds_run hrun
    intro key o h_o
    rw [h_start] at h_o
    exact nomatch h_o
  obtain ⟨o, h_o⟩ := Option.isSome_iff_exists.mp (AList.lookup_isSome.mpr h_open)
  obtain ⟨h_map, h_db⟩ := failed_stop h_o h_step h_failed
  have h_stranded : Stranded key o.sessionId o.applicationId t := h_holds.stranded h_o h_map h_db
  refine ⟨h_stranded.absent, ?_, o.sessionId, o.applicationId, h_stranded.row,
    h_stranded.application, ?_⟩
  · intro h_match
    exact h_match.not_open h_stranded.absent h_stranded.application ⟨_, h_stranded.row⟩
  · intro after h_after
    have h_states := h_after.invariant (Stranded key o.sessionId o.applicationId)
      (fun _ _ _ h_step h => h_step.moves.stranded h) h_stranded
    refine ⟨fun u hu => ⟨(h_states u hu).row, (h_states u hu).absent⟩, ?_, ?_⟩
    · -- the state each later `Started` comes in is still stranded
      intro x hx h_starts
      obtain ⟨pre, l, u, post, rfl, rfl⟩ := mem_steps_iff.mp hx
      obtain ⟨h_pre, h_rest⟩ := h_after.of_append
      have h_before : Stranded key o.sessionId o.applicationId (final t pre) :=
        h_pre.final_invariant _ (fun _ _ _ h_step h => h_step.moves.stranded h) h_stranded
      cases h_rest with
      | cons h_next _ => exact h_before.dropped h_next h_starts
    · intro reason now order fates m d rest h_order h_close
      obtain ⟨-, -, h_moves⟩ := wp_returned (closeAllOpen_moves _ _ _ _ h_order) h_close
      exact (h_moves.stranded (h_states _ (final_mem_states t after))).row

/-! ### A stop that meets a failing disk -/

/-- The state a turn leads to. -/
def Live.after (s : Live) (l : Input × List Fate) : Live := (s.next l).getD s

theorem Live.step_after {s : Live} {l : Input × List Fate} (h : (s.next l).isSome = true) :
    Live.Step s l (s.after l) := by
  unfold Live.Step Live.after
  cases h_next : s.next l with
  | none =>
    rw [h_next] at h
    exact nomatch h
  | some t => rfl

/-- A game has been started. -/
def playing : Live := Live.after ({}, Database.empty) (startedSteam "10" 100 [])

/-- Its stop cannot be written. -/
def stopFails : Input × List Fate := stoppedSteam "10" 200 100 [.fails]

theorem playing_run : IsRun Live.Step ({}, Database.empty)
    [(startedSteam "10" 100 [], playing)] :=
  .cons (Live.step_after (by decide +kernel)) (.nil _)

theorem failed_stop_strands_stopFails :
    GameKey.steam "10" ∉ (playing.after stopFails).1.open_ ∧
      ¬ Matches (playing.after stopFails).1 (playing.after stopFails).2 ∧
      ∃ sid aid, (sid, aid) ∈ (playing.after stopFails).2.openRows ∧
        (aid, GameKey.steam "10") ∈ (playing.after stopFails).2.keyRows ∧
        ∀ after, IsRun Live.Step (playing.after stopFails) after →
          (∀ u ∈ states (playing.after stopFails) after,
            (sid, aid) ∈ u.2.openRows ∧ GameKey.steam "10" ∉ u.1.open_) ∧
          (∀ x ∈ steps (playing.after stopFails) after, x.2.1.1.Starts (.steam "10") →
            Dropped (.steam "10") aid x.1 x.2.2) ∧
          ∀ reason now order fates m d rest,
            (order.map Prod.fst).Perm (final (playing.after stopFails) after).1.open_.keys →
            closeAllOpen reason now order (final (playing.after stopFails) after).1
                (final (playing.after stopFails) after).2 fates = .returned () m d rest →
            (sid, aid) ∈ d.openRows := by
  have h_failed : (playing.after stopFails).1.log = playing.1.log ++ [.eventFailed (.sql .io)] := by
    decide +kernel
  -- the stop fails in the write, after the entry has been taken out
  exact failed_stop_strands rfl playing_run (by decide +kernel)
    (Live.step_after (by decide +kernel)) h_failed

/-- The stop fails, the key is gone, and the next start of the game is dropped by the row that the
stop has left open. -/
theorem failed_stop_drops_start :
    ∃ s t u : Live, IsRun Live.Step ({}, Database.empty) [(startedSteam "10" 100 [], s)] ∧
      Live.Step s stopFails t ∧ Live.Step t (startedSteam "10" 300 []) u ∧
      t.1.log = s.1.log ++ [.eventFailed (.sql .io)] ∧
      GameKey.steam "10" ∈ s.1.open_ ∧ GameKey.steam "10" ∉ t.1.open_ ∧
      t.2.openRows = [(1, 1)] ∧ u.1.log = t.1.log ++ [.openSessionExists (.steam "10") 1] := by
  refine ⟨playing, playing.after stopFails,
    (playing.after stopFails).after (startedSteam "10" 300 []), playing_run,
    -- the start that follows finds the row of the stop that failed
    Live.step_after ?_, Live.step_after ?_, ?_, ?_, ?_, ?_, ?_⟩
  · decide +kernel
  · decide +kernel
  · decide +kernel
  · decide +kernel
  · decide +kernel
  · decide +kernel
  · decide +kernel

end Ludex
