import Ludex.Daemon.Storable
import Ludex.Daemon.Stranded

/-!
# One failing heartbeat

The heartbeat of `session_manager.rs` visits the open sessions in the order of the map and writes
one row at a time. The first `UPDATE` that returns an error ends the batch, so which sessions keep
their heartbeat depends on where in the order the failing one stands.

* `Batch` is a batch with an arbitrary set of failing sessions, and `Batch.Independent` is what the
  heartbeat is for: every session whose own `UPDATE` succeeds has its row written, and a crash before
  the next batch loses at most one interval of it.
* `heartbeats_independent_iff` says in which batches that holds, in every reachable state: those in
  which no failing session is visited before one that would have been written
  (`Batch.NoneStarved`).
* `OpenRowReads` is what carries the bound from the batch to the crash: no call but a heartbeat
  changes the counters of an open row.
-/

namespace Ludex

open Transact SessionManager SessionRepo ApplicationRepo Run
open Calendar (nanosPerSecond)

/-- Heartbeat cadence in seconds. -/
def heartbeatIntervalSecs : ℕ := 60

/-! ### Rows -/

/-- The row reads a snapshot. -/
def Session.Reads (s : Session) (snapshot : RuntimeSnapshot) : Prop :=
  s.heartbeatAt = snapshot.at_ ∧ s.fullRuntimeSeconds = snapshot.fullRuntimeSeconds ∧
    s.interactiveRuntimeSeconds = snapshot.interactiveRuntimeSeconds

instance instDecidableSessionReads (s : Session) (snapshot : RuntimeSnapshot) :
    Decidable (s.Reads snapshot) :=
  inferInstanceAs (Decidable (_ ∧ _ ∧ _))

/-- The session has an open row that reads a snapshot. -/
def Database.Reads (d : Database) (sid : ℤ) (snapshot : RuntimeSnapshot) : Prop :=
  ∃ s ∈ d.sessions, s.id = sid ∧ s.isOpen = true ∧ s.Reads snapshot

instance instDecidableDatabaseReads (d : Database) (sid : ℤ) (snapshot : RuntimeSnapshot) :
    Decidable (d.Reads sid snapshot) :=
  inferInstanceAs (Decidable (∃ s ∈ d.sessions, _ ∧ _ ∧ _))

/-- As long as it is open, the row of a session that was begun reads a snapshot. -/
structure OpenRowReads (sid : ℤ) (snapshot : RuntimeSnapshot) (d : Database) : Prop where
  begun : sid ≤ d.sessionSeq
  row : ∀ s ∈ d.sessions, s.id = sid → s.isOpen = true → s.Reads snapshot

/-- The call stores runtimes in a row that stays open. -/
def Call.isHeartbeat : Call → Bool
  | done (.heartbeat _ _) => true
  | _ => false

section Rows

variable {d d' : Database} {sid : ℤ} {snapshot : RuntimeSnapshot}

/-- The open row of a session, after its heartbeat. -/
theorem heartbeat_reads (h : heartbeat d sid snapshot = .ok d')
    (h_row : ∃ s ∈ d.sessions, s.id = sid ∧ s.isOpen = true) : d'.Reads sid snapshot := by
  obtain ⟨s, hs, rfl, h_open⟩ := h_row
  refine ⟨heartbeatRow snapshot s, ?_, rfl, h_open, rfl, rfl, rfl⟩
  rw [heartbeat_ok h]
  refine Sql.mem_updateWhere.mpr ⟨s, hs, if_pos ?_⟩
  rw [isOpenRow, h_open, Bool.and_true, decide_eq_true_eq]

/-- The rows of other sessions, after a heartbeat. -/
theorem heartbeat_frame (h : heartbeat d sid snapshot = .ok d') {s : Session} (h_ne : s.id ≠ sid) :
    s ∈ d'.sessions ↔ s ∈ d.sessions := by
  rw [heartbeat_ok h]
  show s ∈ Sql.updateWhere (isOpenRow sid) (heartbeatRow snapshot) d.sessions ↔ _
  rw [Sql.mem_updateWhere]
  refine ⟨?_, ?_⟩
  · rintro ⟨s₀, hs₀, rfl⟩
    split at h_ne
    next h_row =>
      -- a row that was written has the id of the session
      exact absurd (of_decide_eq_true (Bool.and_eq_true_iff.mp h_row).1) h_ne
    next h_row =>
      rw [if_neg h_row]
      exact hs₀
  · intro hs
    refine ⟨s, hs, if_neg ?_⟩
    rw [isOpenRow, decide_eq_false h_ne]
    exact Bool.false_ne_true

/-- **No call but a heartbeat changes what an open row reads.** -/
theorem OpenRowReads.step (h : OpenRowReads sid snapshot d) {c : Call} (h_step : Step d c d')
    (h_call : c.isHeartbeat = false) : OpenRowReads sid snapshot d' where
  begun := h.begun.trans h_step.rowids.2.seq_le
  row := by
    intro s' hs' h_id h_open
    cases h_step with
    | failed => exact h.row s' hs' h_id h_open
    | @done _ op h_run =>
      cases op with
      | create new =>
        obtain ⟨⟨a, d₁⟩, h_ok, rfl⟩ := Except.map_eq_ok.mp h_run
        rw [(create_ok h_ok).2] at hs'
        exact h.row s' hs' h_id h_open
      | begin aid startedAt =>
        obtain ⟨⟨new, d₁⟩, h_ok, rfl⟩ := Except.map_eq_ok.mp h_run
        obtain ⟨h_new, h_tables⟩ := begin_ok h_ok
        rw [h_tables] at hs'
        rcases List.mem_append.mp hs' with hs | hs
        · exact h.row s' hs h_id h_open
        · -- the new row has a rowid that was not given out before
          have h_later : d.sessionSeq < s'.id := by
            rw [List.mem_singleton.mp hs, h_new]
            exact Int.lt_add_one_of_le (Sql.le_foldl_max _ _).1
          exact absurd h.begun (by rw [← h_id]; exact not_le.mpr h_later)
      | heartbeat sid' snapshot' => exact nomatch h_call
      | closeAndRollup sid' aid snapshot' reason =>
        rcases closeAndRollup_ok h_run with ⟨-, rfl⟩ | ⟨-, h_tables⟩
        · exact h.row s' hs' h_id h_open
        rw [h_tables] at hs'
        obtain ⟨s, hs, rfl⟩ := Sql.mem_updateWhere.mp hs'
        by_cases h_row : isOpenRow sid' s = true
        · -- the row that was written is closed now
          rw [if_pos h_row] at h_open
          exact absurd h_open Bool.false_ne_true
        · rw [if_neg h_row] at h_id h_open ⊢
          exact h.row s hs h_id h_open
      | deleteSessionsAndRecompute ids =>
        obtain ⟨⟨deleted, d₁⟩, h_ok, rfl⟩ := Except.map_eq_ok.mp h_run
        rw [(deleteSessionsAndRecompute_ok h_ok).2] at hs'
        exact h.row s' (List.mem_filter.mp hs').1 h_id h_open
      | mergeInto srcId dstId =>
        obtain ⟨-, src, -, -, -, h_tables⟩ := mergeInto_ok h_run
        rw [h_tables] at hs'
        change s' ∈ reparent srcId dstId d.sessions at hs'
        rw [reparent_eq_map] at hs'
        obtain ⟨s, hs, rfl⟩ := List.mem_map.mp hs'
        -- only the owner changes
        rw [reparentRow_eq] at h_id h_open ⊢
        exact h.row s hs h_id h_open

end Rows

/-! ### A batch -/

/-- A batch of heartbeats, of which those of the failing sessions return an error. -/
structure Batch where
  at_ : OffsetDateTime
  now : Instant
  idleGrace : ℕ
  order : List (GameKey × IdleReading)
  /-- The `UPDATE` of the session returns an error. -/
  fails : ℤ → Bool

namespace Batch

def input (b : Batch) : Input := .heartbeat b.at_ b.now b.idleGrace b.order

/-- What the batch writes in the row of a session. -/
def snapshot (b : Batch) (o : OpenSession) (idle : IdleReading) : RuntimeSnapshot :=
  snapshotOf o ⟨b.now, b.idleGrace, idle⟩ b.at_

/-- The open sessions, in the order they are visited. -/
def visited (b : Batch) (m : SessionManager) : List (OpenSession × IdleReading) :=
  b.order.filterMap fun x => (m.open_.lookup x.1).map fun o => (o, x.2)

/-- The session of a visit fails. -/
def failsAt (b : Batch) (x : OpenSession × IdleReading) : Bool := b.fails x.1.sessionId

def fates (b : Batch) (m : SessionManager) : List Fate :=
  (b.visited m).map fun x => Fate.failing (b.failsAt x)

/-- The visited session has been written. -/
def WrittenIn (b : Batch) (d : Database) (x : OpenSession × IdleReading) : Prop :=
  d.Reads x.1.sessionId (b.snapshot x.1 x.2)

instance instDecidableWrittenIn (b : Batch) (d : Database) (x : OpenSession × IdleReading) :
    Decidable (b.WrittenIn d x) :=
  inferInstanceAs (Decidable (d.Reads _ _))

variable {b : Batch} {m : SessionManager} {d : Database}

theorem mem_visited {o : OpenSession} {idle : IdleReading} :
    (o, idle) ∈ b.visited m ↔ ∃ key, (key, idle) ∈ b.order ∧ m.open_.lookup key = some o := by
  unfold visited
  rw [List.mem_filterMap]
  refine ⟨?_, ?_⟩
  · rintro ⟨⟨key, idle'⟩, h_mem, h_map⟩
    obtain ⟨o', h_lookup, h_eq⟩ := Option.map_eq_some_iff.mp h_map
    obtain ⟨rfl, rfl⟩ := Prod.mk.inj h_eq
    exact ⟨key, h_mem, h_lookup⟩
  · rintro ⟨key, h_mem, h_lookup⟩
    exact ⟨(key, idle), h_mem, Option.map_eq_some_iff.mpr ⟨o, h_lookup, rfl⟩⟩

/-- Every open session is visited. -/
theorem exists_visit (h_visits : b.input.Visits m) {key : GameKey} {o : OpenSession}
    (h_o : m.open_.lookup key = some o) : ∃ idle, (key, idle) ∈ b.order := by
  have h_key : key ∈ b.order.map Prod.fst := by
    refine (List.Perm.mem_iff h_visits).mpr (AList.mem_keys.mp ?_)
    rw [← AList.lookup_isSome, h_o]
    rfl
  obtain ⟨⟨key', idle⟩, h_mem, rfl⟩ := List.mem_map.mp h_key
  exact ⟨idle, h_mem⟩

/-- No session is visited twice. -/
theorem visited_nodup {clock : Instant} (h : AllTracked clock m d) (h_visits : b.input.Visits m) :
    ((b.visited m).map fun x => x.1.sessionId).Nodup := by
  have h_keys : (b.order.map Prod.fst).Nodup :=
    (List.Perm.nodup_iff h_visits).mpr m.open_.keys_nodup
  unfold visited
  generalize b.order = order at h_keys ⊢
  induction order with
  | nil => exact .nil
  | cons x order ih =>
    obtain ⟨h_fresh, h_rest⟩ := List.nodup_cons.mp h_keys
    cases h_o : m.open_.lookup x.1 with
    | none =>
      rw [List.filterMap_cons_none (by rw [h_o]; rfl)]
      exact ih h_rest
    | some o =>
      rw [List.filterMap_cons_some (b := (o, x.2)) (by rw [h_o]; rfl), List.map_cons,
        List.nodup_cons]
      refine ⟨fun h_mem => h_fresh ?_, ih h_rest⟩
      -- two keys of the map with one session are the same key
      obtain ⟨⟨o', idle⟩, h_later, h_same⟩ := List.mem_map.mp h_mem
      obtain ⟨y, hy, h_map⟩ := List.mem_filterMap.mp h_later
      obtain ⟨o'', h_o', h_eq⟩ := Option.map_eq_some_iff.mp h_map
      obtain ⟨rfl, -⟩ := Prod.mk.inj h_eq
      rw [h.injective x.1 y.1 o o'' h_o h_o' h_same.symm]
      exact List.mem_map_of_mem hy

/-! ### What a batch writes -/

/-- The database with a visited session written. -/
def written (b : Batch) (d : Database) (x : OpenSession × IdleReading) : Database :=
  match heartbeat d x.1.sessionId (b.snapshot x.1 x.2) with
  | .ok d' => d'
  | .error _ => d

/-- A heartbeat is never refused. -/
theorem heartbeat_eq (b : Batch) (d : Database) (x : OpenSession × IdleReading) :
    heartbeat d x.1.sessionId (b.snapshot x.1 x.2) = .ok (b.written d x) := by
  obtain ⟨d', h_ok⟩ := heartbeat_succeeds d x.1.sessionId
    (snapshot_checks x.1 ⟨b.now, b.idleGrace, x.2⟩ b.at_)
  change heartbeat d x.1.sessionId (b.snapshot x.1 x.2) = _ at h_ok
  unfold written
  rw [h_ok]

/-- The rows of the sessions that are not among those written. -/
theorem mem_foldl_written {xs : List (OpenSession × IdleReading)} {s : Session}
    (h_ne : ∀ x ∈ xs, s.id ≠ x.1.sessionId) :
    s ∈ (xs.foldl b.written d).sessions ↔ s ∈ d.sessions := by
  induction xs generalizing d with
  | nil => exact Iff.rfl
  | cons x xs ih =>
    rw [List.foldl_cons, ih fun y hy => h_ne y (List.mem_cons_of_mem x hy)]
    exact heartbeat_frame (b.heartbeat_eq d x) (h_ne x List.mem_cons_self)

/-- What a session not among those written reads is unchanged. -/
theorem writtenIn_foldl_iff {xs : List (OpenSession × IdleReading)}
    {x : OpenSession × IdleReading} (h_ne : ∀ y ∈ xs, x.1.sessionId ≠ y.1.sessionId) :
    b.WrittenIn (xs.foldl b.written d) x ↔ b.WrittenIn d x := by
  refine exists_congr fun s => ?_
  refine ⟨?_, ?_⟩
  · rintro ⟨hs, h_id, h_rest⟩
    exact ⟨(mem_foldl_written (by rw [h_id]; exact h_ne)).mp hs, h_id, h_rest⟩
  · rintro ⟨hs, h_id, h_rest⟩
    exact ⟨(mem_foldl_written (by rw [h_id]; exact h_ne)).mpr hs, h_id, h_rest⟩

/-- A session among those written reads its snapshot. -/
theorem writtenIn_foldl {xs : List (OpenSession × IdleReading)}
    (h_nodup : (xs.map fun x => x.1.sessionId).Nodup)
    (h_rows : ∀ x ∈ xs, ∃ s ∈ d.sessions, s.id = x.1.sessionId ∧ s.isOpen = true) :
    ∀ x ∈ xs, b.WrittenIn (xs.foldl b.written d) x := by
  induction xs generalizing d with
  | nil => exact fun x hx => absurd hx List.not_mem_nil
  | cons x xs ih =>
    obtain ⟨h_fresh, h_rest⟩ := List.nodup_cons.mp h_nodup
    have h_ne : ∀ y ∈ xs, x.1.sessionId ≠ y.1.sessionId := fun y hy h_same =>
      h_fresh (List.mem_map.mpr ⟨y, hy, h_same.symm⟩)
    intro y hy
    rw [List.foldl_cons]
    rcases List.mem_cons.mp hy with rfl | hy
    · -- it is written first, and the others are other rows
      rw [writtenIn_foldl_iff h_ne]
      exact heartbeat_reads (b.heartbeat_eq d y) (h_rows y List.mem_cons_self)
    · refine ih h_rest (fun z hz => ?_) y hy
      obtain ⟨s, hs, h_id, h_open⟩ := h_rows z (List.mem_cons_of_mem x hz)
      refine ⟨s, (heartbeat_frame (b.heartbeat_eq d x) ?_).mpr hs, h_id, h_open⟩
      rw [h_id]
      exact fun h_same => h_ne z hz h_same.symm

/-- What a batch leaves in the database: the sessions before the first failing one are written. -/
theorem store_eq (b : Batch) (m : SessionManager) (d : Database) :
    (turn b.input m d (b.fates m)).store =
      (reached b.failsAt (b.visited m)).foldl b.written d := by
  have h_loop := forM_transact_store (Error.sql .io)
    (fun x d => (heartbeat d x.1.sessionId (b.snapshot x.1 x.2)).map fun d => ((), d))
    (fun x d => b.written d x) (fun x d => by rw [heartbeat_eq]; rfl) b.failsAt (b.visited m) m d
  exact (store_logged _ _ m d (b.fates m)).trans h_loop

end Batch

/-! ### Until the next batch -/

def SessionManager.Input.isTick : Input → Bool
  | heartbeat _ _ _ _ => true
  | event _ _ _ => false

theorem SessionManager.Input.occasion_ne_tick {input : Input} (h : input.isTick = false) :
    input.occasion ≠ .tick := by
  cases input with
  | heartbeat at_ now idleGrace order => exact nomatch h
  | event event blocklist sample =>
    cases event with
    | started key displayName executablePath at_ => exact fun h_tick => nomatch h_tick
    | stopped key at_ => exact fun h_tick => nomatch h_tick

/-- What a process that dies leaves: the database between two turns, or that of a handler it dies
in. -/
inductive Live.DiesWith (s : Live) : Database → Prop
  | betweenTurns : DiesWith s s.2
  | inTurn {input : Input} {fates : List Fate} {d : Database} : input.isTick = false →
      turn input s.1 s.2 fates = .died d → DiesWith s d

section Until

variable {sid : ℤ} {snapshot : RuntimeSnapshot}

theorem Move.openRowReads {on : Occasion} {s t : Live} (h_move : Move on s t) (h_on : on ≠ .tick)
    (h : OpenRowReads sid snapshot s.2) : OpenRowReads sid snapshot t.2 := by
  -- the moves of a turn that is no tick; none of them writes a heartbeat
  cases h_move with
  | noted record _ => exact h
  | notified notification => exact h
  | refused key at_ aid _ _ _ _ => exact h
  -- a new application leaves every session as it is
  | @created m d d' key displayName executablePath at_ app _ h_create =>
    refine h.step (c := .done (.create (firstSeen key displayName executablePath at_))) (.done ?_) rfl
    show (ApplicationRepo.create d _).map Prod.snd = .ok d'
    rw [h_create]
    rfl
  -- the new session has an id of its own
  | @opened m d d' key at_ aid row o _ _ _ h_begin _ _ =>
    refine h.step (c := .done (.begin aid at_)) (.done ?_) rfl
    show (SessionRepo.begin d aid at_).map Prod.snd = .ok d'
    rw [h_begin]
    rfl
  | beat key o sample at_ h_tick _ _ => exact absurd h_tick h_on
  -- a close writes its own row only, and ends it
  | closed key o sample at_ reason _ _ h_close =>
    exact h.step (c := .done (.closeAndRollup _ _ _ reason)) (.done h_close) rfl
  | stranded key o record _ _ _ => exact h

theorem Moves.openRowReads {on : Occasion} {s t : Live} (h_moves : Moves on s t)
    (h_on : on ≠ .tick) (h : OpenRowReads sid snapshot s.2) : OpenRowReads sid snapshot t.2 := by
  induction h_moves with
  | refl => exact h
  | tail _ h_move ih => exact h_move.openRowReads h_on ih

/-- One step between two batches. -/
theorem Clocked.Step.openRowReads {s t : Clocked} {l : Option (Input × List Fate)}
    (h_step : Clocked.Step s l t) (h_tick : ∀ x, l = some x → x.1.isTick = false)
    (h : OpenRowReads sid snapshot s.live.2) : OpenRowReads sid snapshot t.live.2 := by
  cases h_step with
  | @turn l live _ h_turn =>
    exact Moves.openRowReads h_turn.moves (Input.occasion_ne_tick (h_tick l rfl)) h
  | interference h_other =>
    cases h_other with
    | deleted ids h_step => exact h.step h_step rfl
    | merged srcId dstId h_step => exact h.step h_step rfl

theorem Live.DiesWith.openRowReads {s : Live} {d : Database} (h_dies : s.DiesWith d)
    (h : OpenRowReads sid snapshot s.2) : OpenRowReads sid snapshot d := by
  cases h_dies with
  | betweenTurns => exact h
  | @inTurn input _ _ h_tick h_died =>
    obtain ⟨m, h_moves⟩ := wp_died (turn_moves s.1 s.2 input) h_died
    exact Moves.openRowReads h_moves (Input.occasion_ne_tick h_tick) h

end Until

/-! ### Independence -/

namespace Batch

/-- **The documented bound**, after a batch that leaves `t`. Whatever happens until the next batch,
if the process dies within an interval then what it leaves of a session still open is its runtime,
up to one interval. -/
def LosesAtMostOneInterval (b : Batch) (t : Clocked) (o : OpenSession) : Prop :=
  ∀ tr, IsRun Clocked.Step t tr → (∀ x ∈ tr, ∀ l, x.1 = some l → l.1.isTick = false) →
    ∀ d, (final t tr).live.DiesWith d →
      ∀ s ∈ d.sessions, s.id = o.sessionId → s.isOpen = true →
        ∀ death : Instant, death.nanos ≤ b.now.nanos + heartbeatIntervalSecs * nanosPerSecond →
          o.startedInstant.secondsSince death ≤ s.fullRuntimeSeconds + heartbeatIntervalSecs

/-- One failing heartbeat does not starve the others: each open session whose own `UPDATE` does not
fail has its row written, and the bound holds for it. -/
def Independent (b : Batch) (m : SessionManager) (t : Clocked) : Prop :=
  ∀ key o, m.open_.lookup key = some o → b.fails o.sessionId = false →
    (∃ idle, (key, idle) ∈ b.order ∧ b.WrittenIn t.live.2 (o, idle)) ∧ b.LosesAtMostOneInterval t o

/-- No session that fails is visited before one that does not, unless the row of that one already
reads what would be written. -/
def NoneStarved (b : Batch) (s : Live) : Prop :=
  (b.visited s.1).Pairwise fun x y =>
    b.failsAt x = true → b.failsAt y = true ∨ b.WrittenIn s.2 y

instance instDecidableNoneStarved (b : Batch) (s : Live) : Decidable (b.NoneStarved s) :=
  inferInstanceAs (Decidable (List.Pairwise _ _))

variable {b : Batch}

/-- An interval after a snapshot, a session has run one interval more. -/
theorem secondsSince_le (started : Instant) {now death : Instant}
    (h : death.nanos ≤ now.nanos + heartbeatIntervalSecs * nanosPerSecond) :
    started.secondsSince death ≤ started.secondsSince now + heartbeatIntervalSecs := by
  rw [Instant.secondsSince_eq, Instant.secondsSince_eq]
  unfold heartbeatIntervalSecs nanosPerSecond at *
  omega

/-- **The bound follows from the write.** -/
theorem losesAtMostOneInterval_of_writtenIn {t : Clocked}
    (h : AllTracked t.clock t.live.1 t.live.2) {o : OpenSession} {idle : IdleReading}
    (h_written : b.WrittenIn t.live.2 (o, idle)) : b.LosesAtMostOneInterval t o := by
  -- a crash loses what has been played since the last row that was written
  intro tr hrun h_ticks d h_dies s hs h_id h_open death h_death
  obtain ⟨row, h_row, h_row_id, -, h_reads⟩ := h_written
  -- the row was just written, so it reads as the snapshot
  have h_before : OpenRowReads o.sessionId (b.snapshot o idle) t.live.2 := by
    refine ⟨?_, fun s hs h_id _ => ?_⟩
    · have h_seq := h.reachable.sessionIds row h_row
      rwa [h_row_id] at h_seq
    · rwa [t.live.2.session_unique hs h_row (h_id.trans h_row_id.symm)]
  -- between the crash and that row there was no tick
  have h_quiet : ∀ x ∈ steps t tr, ∀ l, x.2.1 = some l → l.1.isTick = false := by
    intro x hx l h_l
    obtain ⟨pre, l', u, post, rfl, rfl⟩ := mem_steps_iff.mp hx
    exact h_ticks (l', u) (List.mem_append_right _ List.mem_cons_self) l h_l
  -- so the row still reads the same when the daemon dies
  have h_after := hrun.invariant_of_steps
    (fun u => OpenRowReads o.sessionId (b.snapshot o idle) u.live.2)
    (fun _ l => ∀ x, l = some x → x.1.isTick = false)
    (fun _ _ _ h_step h_tick h => h_step.openRowReads h_tick h) h_quiet h_before _
    (final_mem_states t tr)
  obtain ⟨-, h_full, -⟩ := (h_dies.openRowReads h_after).row s hs h_id h_open
  -- what it says is the time up to the heartbeat, and the rest is one interval at most
  rw [h_full]
  exact secondsSince_le o.startedInstant h_death

/-- A visited session has been written if the batch reached it, or if its row read the same
before. -/
theorem writtenIn_store_iff {m : SessionManager} {d : Database} {clock : Instant}
    (h : AllTracked clock m d) (h_visits : b.input.Visits m) {x : OpenSession × IdleReading}
    (hx : x ∈ b.visited m) :
    b.WrittenIn (turn b.input m d (b.fates m)).store x ↔
      x ∈ reached b.failsAt (b.visited m) ∨ b.WrittenIn d x := by
  rw [store_eq]
  have h_sub : (reached b.failsAt (b.visited m)).Sublist (b.visited m) := List.takeWhile_sublist _
  have h_nodup := visited_nodup h h_visits
  by_cases h_reached : x ∈ reached b.failsAt (b.visited m)
  · refine iff_of_true ?_ (Or.inl h_reached)
    refine writtenIn_foldl (h_nodup.sublist (h_sub.map _)) (fun y hy => ?_) x h_reached
    obtain ⟨key, -, h_o⟩ := mem_visited.mp (h_sub.subset hy)
    obtain ⟨owner, h_row, -⟩ := (h.tracked key y.1 h_o).row
    obtain ⟨s, hs, h_open, h_id, -⟩ := Database.mem_openRows.mp h_row
    exact ⟨s, hs, h_id, h_open⟩
  · rw [or_iff_right h_reached]
    refine writtenIn_foldl_iff fun y hy h_same => h_reached ?_
    -- a session of the map is visited once
    rwa [List.inj_on_of_nodup_map h_nodup hx (h_sub.subset hy) h_same]

end Batch

/-- **When heartbeats are independent.** Take any state of a run of the manager, any set of sessions
whose `UPDATE` returns an error, and any order of the map. The sessions that do not fail all keep
their heartbeat, and with it the bound on what a crash loses, if and only if none of them is visited
after one that fails (or has a row that reads the same already). -/
theorem heartbeats_independent_iff {d : Database} (h : d.Reachable) {clock : Instant}
    {tr : List (Option (Input × List Fate) × Clocked)}
    (hrun : IsRun Clocked.Step ⟨({}, d), clock⟩ tr) {s t : Clocked}
    (h_s : s ∈ states ⟨({}, d), clock⟩ tr) {b : Batch}
    (h_step : Clocked.Step s (some (b.input, b.fates s.live.1)) t) :
    b.Independent s.live.1 t ↔ b.NoneStarved s.live := by
  have h_all := hrun.invariant (fun s => AllTracked s.clock s.live.1 s.live.2)
    (fun _ _ _ h_step h => h_step.allTracked h) (AllTracked.start h clock) s h_s
  have h_after := h_step.allTracked h_all
  obtain ⟨h_store, h_visits⟩ : t.live.2 = (turn b.input s.live.1 s.live.2 (b.fates s.live.1)).store ∧
      b.input.Visits s.live.1 := by
    cases h_step with
    | turn _ h_turn => exact ⟨h_turn.store, h_turn.ran.1⟩
  have h_nodup : (b.visited s.live.1).Nodup :=
    List.Nodup.of_map _ (Batch.visited_nodup h_all h_visits)
  unfold Batch.NoneStarved
  rw [← forall_reached_iff h_nodup]
  refine ⟨fun h_indep x hx h_ok => ?_, fun h_reached key o h_o h_ok => ?_⟩
  · -- the session was written with the one reading that was taken for it
    obtain ⟨o, idle⟩ := x
    obtain ⟨key, h_mem, h_o⟩ := Batch.mem_visited.mp hx
    obtain ⟨⟨idle', h_mem', h_written⟩, -⟩ := h_indep key o h_o h_ok
    have h_keys : (b.order.map Prod.fst).Nodup :=
      (List.Perm.nodup_iff h_visits).mpr s.live.1.open_.keys_nodup
    have h_same : (key, idle) = (key, idle') := List.inj_on_of_nodup_map h_keys h_mem h_mem' rfl
    rw [← (Prod.mk.inj h_same).2, h_store] at h_written
    exact (Batch.writtenIn_store_iff h_all h_visits hx).mp h_written
  · obtain ⟨idle, h_mem⟩ := Batch.exists_visit h_visits h_o
    have hx : (o, idle) ∈ b.visited s.live.1 := Batch.mem_visited.mpr ⟨key, h_mem, h_o⟩
    have h_written : b.WrittenIn t.live.2 (o, idle) := by
      rw [h_store]
      exact (Batch.writtenIn_store_iff h_all h_visits hx).mpr (h_reached (o, idle) hx h_ok)
    exact ⟨⟨idle, h_mem, h_written⟩, Batch.losesAtMostOneInterval_of_writtenIn h_after h_written⟩

/-! ### Two games -/

/-- One game has been started. -/
def oneStarted : Live := Live.after ({}, .empty) (startedSteam "10" 100 [])

/-- Two games have been started. -/
def twoStarted : Live := oneStarted.after (startedSteam "20" 101 [])

theorem twoStarted_run : IsRun Clocked.Step ⟨({}, .empty), .ofSeconds 0⟩
    [(some (startedSteam "10" 100 []), ⟨oneStarted, .ofSeconds 0⟩),
      (some (startedSteam "20" 101 []), ⟨twoStarted, .ofSeconds 0⟩)] :=
  .cons (.turn le_rfl (Live.step_after (by decide +kernel)))
    (.cons (.turn le_rfl (Live.step_after (by decide +kernel))) (.nil _))

/-- The heartbeat a minute later visits the first game first, and that of `sid` fails. -/
def failingOne (sid : ℤ) : Batch where
  at_ := .firstDay 160
  now := .ofSeconds 60
  idleGrace := 60
  order := [(.steam "10", ⟨{}, .ofSeconds 60⟩), (.steam "20", ⟨{}, .ofSeconds 60⟩)]
  fails := fun sid' => sid' = sid

def afterFailingOne (sid : ℤ) : Live :=
  twoStarted.after ((failingOne sid).input, (failingOne sid).fates twoStarted.1)

/-- The second game does not starve the first. -/
theorem heartbeats_independent_iff_secondFails :
    (failingOne 2).Independent twoStarted.1 ⟨afterFailingOne 2, .ofSeconds 60⟩ := by
  refine (heartbeats_independent_iff .empty twoStarted_run
    (s := ⟨twoStarted, .ofSeconds 0⟩) ?_ (.turn (by decide) ?_)).mpr (by decide +kernel)
  · exact final_mem_states _ _
  · exact Live.step_after (by decide +kernel)

/-- The first game starves the second: its own `UPDATE` would succeed, and its row is left without a
second of runtime. -/
theorem firstFails_starves :
    ∃ (tr : List (Option (Input × List Fate) × Clocked)) (s t : Clocked),
      IsRun Clocked.Step ⟨({}, .empty), .ofSeconds 0⟩ tr ∧
        s ∈ states ⟨({}, .empty), .ofSeconds 0⟩ tr ∧
          Clocked.Step s (some ((failingOne 1).input, (failingOne 1).fates s.live.1)) t ∧
            ¬ (failingOne 1).Independent s.live.1 t := by
  refine ⟨_, ⟨twoStarted, .ofSeconds 0⟩, ⟨afterFailingOne 1, .ofSeconds 60⟩, twoStarted_run,
    final_mem_states _ _, .turn (by decide) (Live.step_after (by decide +kernel)), ?_⟩
  intro h
  obtain ⟨o, h_o⟩ : ∃ o, twoStarted.1.open_.lookup (.steam "20") = some o :=
    Option.isSome_iff_exists.mp (by decide +kernel)
  have h_session : o.sessionId = 2 := by
    have h_all : ∀ o ∈ twoStarted.1.open_.lookup (.steam "20"), o.sessionId = 2 := by decide +kernel
    exact h_all o h_o
  obtain ⟨⟨idle, -, s, hs, h_id, -, h_at, -⟩, -⟩ := h (.steam "20") o h_o (by rw [h_session]; rfl)
  -- the row still has the heartbeat it was begun with
  have h_left : ∀ s ∈ (afterFailingOne 1).2.sessions, s.id = 2 → s.heartbeatAt ≠ .firstDay 160 := by
    decide +kernel
  exact h_left s hs (h_id.trans h_session) h_at

end Ludex
