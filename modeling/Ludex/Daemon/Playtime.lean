import Mathlib.Algebra.Order.BigOperators.Group.List
import Ludex.Daemon.CrashRecovery
import Ludex.Daemon.Storable

/-!
# No second is counted twice

The playtime of an application is the sum over its session rows, and no more of it can be recorded than
time passes. `no_second_counted_twice` says so for the daemon as it runs for months: boots and
recoveries, turns whose transactions fail, crashes in the middle of a handler, shutdowns, and deletes
from the interface in between. What makes it true is that an application has one open row at a time,
that the runtime of a session starts where the session was opened, and that a recovery keeps the runtime
that the last heartbeat has left. The seconds are whole ones, rounded down once per session.

A merge adds up two applications that may have been played at the same time, so it is not one of the
steps.

`Kept` is a proof rule for handlers: a property of the open sessions and the database that every single
thing a handler does keeps is kept by a whole turn (`turn_kept`) and by a shutdown
(`closeAllOpen_kept`), and holds of what a process that dies in one of them leaves.
-/

namespace Ludex

open Transact SessionManager SessionRepo Run
open Calendar (nanosPerSecond)

/-- The sessions of the manager. -/
abbrev Opens := AList fun _ : GameKey => OpenSession

/-! ### A rule for handlers -/

/-- A property that is kept by each thing a handler does before an instant. -/
structure Kept (now : Instant) (P : Opens → Database → Prop) : Prop where
  created {opens : Opens} {d d' : Database} {new : NewApplication} {app : Application} :
    P opens d → ApplicationRepo.create d new = .ok (app, d') → P opens d'
  opened {opens : Opens} {d d' : Database} {key : GameKey} {app : Application}
      {at_ : OffsetDateTime} {row : Session} {sample : Sample} :
    P opens d → SessionRepo.begin d app.id at_ = .ok (row, d') → sample.now = now →
      P (opens.insert key (openFor row app sample)) d'
  beat {opens : Opens} {d d' : Database} {key : GameKey} {o : OpenSession} {at_ : OffsetDateTime}
      {sample : Sample} :
    P opens d → opens.lookup key = some o → sample.now ≤ now →
      heartbeat d o.sessionId (snapshotOf o sample at_) = .ok d' → P opens d'
  closed {opens : Opens} {d d' : Database} {key : GameKey} {o : OpenSession}
      {at_ : OffsetDateTime} {reason : ExitReason} {sample : Sample} :
    P opens d → opens.lookup key = some o → sample.now ≤ now →
      closeAndRollup d o.sessionId o.applicationId (snapshotOf o sample at_) reason = .ok d' →
      P (opens.erase key) d'
  /-- A session whose close failed is forgotten. -/
  dropped {opens : Opens} {d : Database} {key : GameKey} : P opens d → P (opens.erase key) d

section Handlers

variable {now : Instant} {P : Opens → Database → Prop} {m : SessionManager} {d : Database}

/-- What a handler leaves in the database when the process dies in it. -/
def Lost (P : Opens → Database → Prop) (d : Database) : Prop := ∃ opens, P opens d

/-- What a handler leaves otherwise. -/
def Stays (P : Opens → Database → Prop) {α : Type} : Except Error α → SessionManager → Database → Prop :=
  fun _ m d => P m.open_ d

theorem findOrCreateApplication_kept (h : Kept now P) (h_P : P m.open_ d) (key : GameKey)
    (displayName : String) (executablePath : Option PathBuf) (at_ : OffsetDateTime) :
    wp (findOrCreateApplication key displayName executablePath at_) (Stays P) (Lost P) m d := by
  unfold findOrCreateApplication
  -- a lookup changes nothing; the invariant has to survive the new row only
  refine wp_read_bind ?_ (fun _ => h_P) ⟨_, h_P⟩
  cases ApplicationRepo.findByKey d key with
  | some app => exact wp_pure h_P
  | none =>
    apply wp_bind
    apply wp_transact
    · intro app d' h_create
      -- the application that was created has no runtime yet
      apply wp_modify_bind
      exact wp_pure (h.created h_P h_create)
    · exact fun _ _ => h_P
    · exact h_P
    · exact ⟨_, h_P⟩

theorem openSession_kept {sample : Sample} (h : Kept sample.now P) (h_P : P m.open_ d)
    (key : GameKey) (at_ : OffsetDateTime) (app : Application) :
    wp (openSession key at_ sample app) (Stays P) (Lost P) m d := by
  unfold openSession
  apply wp_bind
  apply wp_attempt
  apply wp_transact
  · -- the row and the entry in the map appear together, at the instant of the sample
    intro row d' h_begin
    apply wp_modify_bind
    apply wp_modify_bind
    exact wp_modify (h.opened h_P h_begin rfl)
  · -- the row was refused or the database failed: nothing has changed
    intro e _
    cases e with
    | openSessionExists aid => exact wp_modify h_P
    | sql e => exact wp_throw h_P
    | invariant message => exact wp_throw h_P
  · exact wp_throw h_P
  · exact ⟨_, h_P⟩

theorem handleStarted_kept {sample : Sample} (h : Kept sample.now P) (h_P : P m.open_ d)
    (key : GameKey) (displayName : String) (executablePath : Option PathBuf) (at_ : OffsetDateTime)
    (blocklist : List GameKey) :
    wp (handleStarted key displayName executablePath at_ blocklist sample) (Stays P) (Lost P) m d := by
  unfold handleStarted
  apply wp_get_bind
  -- blocked or already open: only the log grows
  split
  · exact wp_modify h_P
  split
  · exact wp_modify h_P
  apply wp_bind
  refine wp_mono (findOrCreateApplication_kept h h_P key displayName executablePath at_) ?_
    fun _ h_lost => h_lost
  -- the application is there; what is left is the opening of the session
  rintro (e | app) m' d' h_post
  · exact h_post
  · exact openSession_kept h h_post key at_ app

/-- A close of a session that is out of the map already. -/
theorem closeSession_kept (h : Kept now P) {opens : Opens} (h_P : P opens d) {key : GameKey}
    {o : OpenSession} (h_o : opens.lookup key = some o) (at_ : OffsetDateTime) (reason : ExitReason)
    {sample : Sample} (h_now : sample.now ≤ now) :
    wp (closeSession o at_ reason sample)
      (fun _ m' d' => m'.open_ = m.open_ ∧ P (opens.erase key) d') (Lost P) m d := by
  unfold closeSession
  apply wp_bind
  apply wp_write
  · intro d' h_close
    apply wp_modify_bind
    exact wp_modify ⟨rfl, h.closed h_P h_o h_now h_close⟩
  · exact fun _ => ⟨rfl, h.dropped h_P⟩
  · exact ⟨_, h_P⟩

theorem handleStopped_kept {sample : Sample} (h : Kept sample.now P) (h_P : P m.open_ d)
    (key : GameKey) (at_ : OffsetDateTime) :
    wp (handleStopped key at_ sample) (Stays P) (Lost P) m d := by
  unfold handleStopped
  apply wp_get_bind
  cases h_o : m.open_.lookup key with
  -- no entry of the map is closed without a row
  | none => exact wp_modify h_P
  | some o =>
    apply wp_modify_bind
    -- the runtime that is added is the time since the entry was opened
    refine wp_mono (closeSession_kept h h_P h_o at_ .terminated (le_refl _)) ?_
      fun _ h_lost => h_lost
    rintro r m' d' ⟨h_map, h_post⟩
    show P m'.open_ d'
    rw [h_map]
    exact h_post

theorem heartbeatOpenSessions_kept (h : Kept now P) (h_P : P m.open_ d) (at_ : OffsetDateTime)
    (idleGrace : ℕ) (order : List (GameKey × IdleReading)) :
    wp (heartbeatOpenSessions at_ now idleGrace order) (Stays P) (Lost P) m d := by
  unfold heartbeatOpenSessions
  apply wp_get_bind
  -- the map does not change, and what is still to do are sessions of it
  apply wp_forM fun xs m' d' => P m'.open_ d' ∧ ∀ x ∈ xs, ∃ key, m'.open_.lookup key = some x.1
  · rintro ⟨o, idle⟩ xs m' d' ⟨h_P', h_mem⟩
    obtain ⟨key, h_o⟩ := h_mem _ List.mem_cons_self
    apply wp_write
    · intro d'' h_beat
      have h_now : (Sample.mk now idleGrace idle).now ≤ now := le_refl _
      exact ⟨h.beat h_P' h_o h_now h_beat, fun x hx => h_mem x (List.mem_cons_of_mem _ hx)⟩
    · exact fun _ => h_P'
    · exact ⟨_, h_P'⟩
  · exact fun m' d' h_done => h_done.1
  · refine ⟨h_P, fun x hx => ?_⟩
    obtain ⟨⟨key, idle⟩, -, h_x⟩ := List.mem_filterMap.mp hx
    obtain ⟨o, h_o, rfl⟩ := Option.map_eq_some_iff.mp h_x
    exact ⟨key, h_o⟩

/-- **A turn keeps what each thing it does keeps**, whatever its fates. -/
theorem turn_kept {input : Input} (h : Kept input.now P) (h_P : P m.open_ d) :
    wp (turn input) (Stays P) (Lost P) m d := by
  cases input with
  | event event blocklist sample =>
    refine wp_logged (P := Stays P) ?_ (fun _ _ h_post => h_post) fun _ _ _ h_post => h_post
    cases event with
    | started key displayName executablePath at_ =>
      exact handleStarted_kept h h_P key displayName executablePath at_ blocklist
    | stopped key at_ => exact handleStopped_kept h h_P key at_
  | heartbeat at_ now idleGrace order =>
    exact wp_logged (P := Stays P) (heartbeatOpenSessions_kept h h_P at_ idleGrace order)
      (fun _ _ h_post => h_post) fun _ _ _ h_post => h_post

/-- **A shutdown keeps it** for the sessions it has not come to, and then for none. -/
theorem closeAllOpen_kept (h : Kept now P) (h_P : P m.open_ d) (reason : ExitReason)
    (at_ : OffsetDateTime) {order : List (GameKey × Sample)}
    (h_order : (order.map Prod.fst).Perm m.open_.keys) (h_now : ∀ x ∈ order, x.2.now ≤ now) :
    wp (closeAllOpen reason at_ order) (fun _ _ d' => Lost P d') (Lost P) m d := by
  unfold closeAllOpen
  apply wp_get_bind
  apply wp_modify_bind
  -- `opens` is what the map would hold if each close took its own entry out
  apply wp_forM fun xs _ d' => ∃ opens, P opens d' ∧ (xs.map Prod.fst).Nodup ∧
    ∀ x ∈ xs, opens.lookup x.1 = some x.2.1 ∧ x.2.2.now ≤ now
  · rintro ⟨key, o, sample⟩ xs m' d' ⟨opens, h_P', h_nodup, h_xs⟩
    obtain ⟨h_o, h_sample⟩ := h_xs _ List.mem_cons_self
    obtain ⟨h_fresh, h_rest⟩ := List.nodup_cons.mp h_nodup
    have h_left : ∀ x ∈ xs, (opens.erase key).lookup x.1 = some x.2.1 ∧ x.2.2.now ≤ now := by
      intro x hx
      obtain ⟨h_lookup, h_le⟩ := h_xs x (List.mem_cons_of_mem _ hx)
      have h_ne : x.1 ≠ key := fun h_key => h_fresh (List.mem_map.mpr ⟨x, hx, h_key⟩)
      rw [AList.lookup_erase_ne h_ne]
      exact ⟨h_lookup, h_le⟩
    apply wp_bind
    apply wp_attempt
    refine wp_mono (closeSession_kept h h_P' h_o at_ reason h_sample) ?_ fun _ h_lost => h_lost
    rintro (e | u) m'' d'' ⟨-, h_post⟩
    · exact wp_modify ⟨_, h_post, h_rest, h_left⟩
    · exact wp_pure ⟨_, h_post, h_rest, h_left⟩
  · rintro m' d' ⟨opens, h_P', -, -⟩
    exact ⟨opens, h_P'⟩
  · refine ⟨m.open_, h_P, ?_, ?_⟩
    · exact (h_order.nodup_iff.mpr m.open_.keys_nodup).sublist (drained_sublist m order)
    · rintro ⟨key, o, sample⟩ h_mem
      obtain ⟨h_mem, h_o⟩ := mem_drained.mp h_mem
      exact ⟨h_o, h_now _ h_mem⟩

end Handlers

/-! ### Recorded runtimes -/

namespace Database

/-- The runtime recorded for an application: that of its session rows, the open one included. -/
def runtime (d : Database) (aid : ℤ) : ℤ :=
  ((d.sessions.filter fun s => s.applicationId = aid).map Session.fullRuntimeSeconds).sum

/-- The runtime recorded for an application in other rows than one. -/
def runtimeBut (d : Database) (sid aid : ℤ) : ℤ :=
  ((d.sessions.filter fun s => decide (s.applicationId = aid) && decide (s.id ≠ sid)).map
    Session.fullRuntimeSeconds).sum

variable {d d' : Database} {sid aid : ℤ}

theorem runtime_eq {s : Session} (hs : s ∈ d.sessions) :
    d.runtime s.applicationId = s.fullRuntimeSeconds + d.runtimeBut s.id s.applicationId :=
  Sql.sum_filter_split d.session_ids_nodup hs (decide_eq_true rfl)

/-- What the rows of a table show of the runtimes. -/
theorem runtime_congr (h : d'.sessions.map (fun s => (s.id, s.applicationId, s.fullRuntimeSeconds)) =
    d.sessions.map fun s => (s.id, s.applicationId, s.fullRuntimeSeconds)) (aid : ℤ) :
    d'.runtime aid = d.runtime aid := by
  have h_sum : ∀ rows : List Session,
      (rows.filter fun s => s.applicationId = aid).map Session.fullRuntimeSeconds =
        ((rows.map fun s => (s.id, s.applicationId, s.fullRuntimeSeconds)).filter
          fun x => x.2.1 = aid).map fun x => x.2.2 := by
    intro rows
    rw [List.filter_map, List.map_map]
    rfl
  unfold runtime
  rw [h_sum, h_sum, h]

/-- Rows without a runtime are not seen. -/
theorem runtime_append {row : Session} (h : d'.sessions = d.sessions ++ [row])
    (h_row : row.fullRuntimeSeconds = 0) (sid aid : ℤ) :
    d'.runtime aid = d.runtime aid ∧ d'.runtimeBut sid aid = d.runtimeBut sid aid := by
  have h_sum : ∀ q : Session → Bool,
      ((d'.sessions.filter q).map Session.fullRuntimeSeconds).sum =
        ((d.sessions.filter q).map Session.fullRuntimeSeconds).sum := by
    intro q
    rw [h, List.filter_append, List.map_append, List.sum_append]
    by_cases h_q : q row = true
    · simp [h_q, h_row]
    · simp [h_q]
  exact ⟨h_sum _, h_sum _⟩

/-- The rows that are left have no more runtime. -/
theorem runtime_delete {p : Session → Bool} (h : d'.sessions = Sql.deleteWhere p d.sessions)
    (sid aid : ℤ) : d'.runtime aid ≤ d.runtime aid ∧ d'.runtimeBut sid aid ≤ d.runtimeBut sid aid := by
  have h_sum : ∀ q : Session → Bool,
      ((d'.sessions.filter q).map Session.fullRuntimeSeconds).sum ≤
        ((d.sessions.filter q).map Session.fullRuntimeSeconds).sum := by
    intro q
    have h_sub : (d'.sessions.filter q).Sublist (d.sessions.filter q) := by
      rw [h]
      exact List.filter_sublist.filter q
    refine (h_sub.map _).sum_le_sum fun x hx => ?_
    obtain ⟨s, hs, rfl⟩ := List.mem_map.mp hx
    exact (d.checks.2 s (List.mem_of_mem_filter hs)).2.1
  exact ⟨h_sum _, h_sum _⟩

/-- A write of an open row: a heartbeat, or a close. -/
structure Writes (d d' : Database) (sid full : ℤ) (f : Session → Session) : Prop where
  rows : d'.sessions = Sql.updateWhere (isOpenRow sid) f d.sessions
  id : ∀ s, (f s).id = s.id
  applicationId : ∀ s, (f s).applicationId = s.applicationId
  full : ∀ s, (f s).fullRuntimeSeconds = full

section Writes

variable {full : ℤ} {f : Session → Session}

/-- It does not touch the other rows. -/
theorem Writes.runtimeBut (h : d.Writes d' sid full f) (aid : ℤ) :
    d'.runtimeBut sid aid = d.runtimeBut sid aid := by
  unfold Database.runtimeBut
  rw [h.rows, Sql.filter_updateWhere fun s _ h_s => ?_]
  rw [isOpenRow, Bool.and_eq_true, decide_eq_true_eq] at h_s
  simp [h.id, h_s.1]

/-- It records its runtime for the application of the row. -/
theorem Writes.runtime (h : d.Writes d' sid full f) (h_row : (sid, aid) ∈ d.openRows) :
    d'.runtime aid = full + d.runtimeBut sid aid := by
  obtain ⟨s, hs, h_open, rfl, rfl⟩ := mem_openRows.mp h_row
  have hs' : f s ∈ d'.sessions := by
    rw [h.rows]
    refine Sql.mem_updateWhere.mpr ⟨s, hs, if_pos ?_⟩
    rw [isOpenRow, h_open, decide_eq_true rfl]
    rfl
  have h_eq := runtime_eq hs'
  rw [h.applicationId, h.full, h.id, h.runtimeBut] at h_eq
  exact h_eq

/-- It is not seen by another application. -/
theorem Writes.other (h : d.Writes d' sid full f) {owner : ℤ} (h_row : (sid, owner) ∈ d.openRows)
    (h_ne : owner ≠ aid) (sid' : ℤ) :
    d'.runtime aid = d.runtime aid ∧ d'.runtimeBut sid' aid = d.runtimeBut sid' aid := by
  obtain ⟨s₀, hs₀, -, h_id₀, rfl⟩ := mem_openRows.mp h_row
  have h_out : ∀ s ∈ d.sessions, isOpenRow sid s = true → s.applicationId ≠ aid := by
    intro s hs h_s
    rw [isOpenRow, Bool.and_eq_true, decide_eq_true_eq] at h_s
    rw [d.session_unique hs hs₀ (h_s.1.trans h_id₀.symm)]
    exact h_ne
  unfold Database.runtime Database.runtimeBut
  rw [h.rows, Sql.filter_updateWhere fun s hs h_s => ?_, Sql.filter_updateWhere fun s hs h_s => ?_]
  · exact ⟨rfl, rfl⟩
  · simp [h.applicationId, h_out s hs h_s]
  · simp [h.applicationId, h_out s hs h_s]

end Writes

end Database

theorem heartbeat_writes {d d' : Database} {sid : ℤ} {snapshot : RuntimeSnapshot}
    (h : heartbeat d sid snapshot = .ok d') :
    ∃ f, d.Writes d' sid snapshot.fullRuntimeSeconds f := by
  refine ⟨fun s => { s with
    heartbeatAt := snapshot.at_
    fullRuntimeSeconds := snapshot.fullRuntimeSeconds
    interactiveRuntimeSeconds := snapshot.interactiveRuntimeSeconds }, ?_, fun _ => rfl,
    fun _ => rfl, fun _ => rfl⟩
  rw [heartbeat_ok h]

theorem close_writes {d d' : Database} {sid owner aid : ℤ} {snapshot : RuntimeSnapshot}
    {reason : ExitReason} (h : closeAndRollup d sid aid snapshot reason = .ok d')
    (h_row : (sid, owner) ∈ d.openRows) :
    d.Writes d' sid snapshot.fullRuntimeSeconds (closeRow snapshot reason) := by
  obtain ⟨s, hs, h_open, rfl, -⟩ := Database.mem_openRows.mp h_row
  exact ⟨(closeAndRollup_tables hs h_open h).2, fun _ => rfl, fun _ => rfl, fun _ => rfl⟩

/-! ### The bound -/

namespace Instant

variable {a b c : Instant}

/-- Whole seconds of two stretches of time are no more than those of the two together. -/
theorem secondsSince_add (h_ab : a ≤ b) (h_bc : b ≤ c) :
    a.secondsSince b + b.secondsSince c ≤ a.secondsSince c := by
  rw [secondsSince_eq, secondsSince_eq, secondsSince_eq]
  have h_ab := le_iff.mp h_ab
  have h_bc := le_iff.mp h_bc
  unfold nanosPerSecond
  omega

/-- A clock that has not been read yet has counted nothing. -/
theorem secondsSince_self : a.secondsSince a = 0 := by
  rw [secondsSince_eq, Nat.sub_self, Nat.zero_div, Nat.cast_zero]

end Instant

/-- **The invariant.** The session of an application was opened when the seconds recorded in its other
rows had passed; and no application has more seconds than have passed by now. `base` is what was recorded
when the clock started. -/
structure Counted (base : ℤ → ℤ) (start clock : Instant) (opens : Opens) (d : Database) : Prop where
  row : ∀ key o, opens.lookup key = some o → (o.sessionId, o.applicationId) ∈ d.openRows
  injective : ∀ key key' o o', opens.lookup key = some o → opens.lookup key' = some o' →
    o.sessionId = o'.sessionId → key = key'
  started : ∀ key o, opens.lookup key = some o →
    start ≤ o.startedInstant ∧ o.startedInstant ≤ clock
  others : ∀ key o, opens.lookup key = some o →
    d.runtimeBut o.sessionId o.applicationId ≤
      base o.applicationId + start.secondsSince o.startedInstant
  total : ∀ aid, d.runtime aid ≤ base aid + start.secondsSince clock

namespace Counted

variable {base : ℤ → ℤ} {start clock : Instant} {opens : Opens} {d d' : Database}

/-- Without a process there are no sessions. -/
theorem dead (h : ∀ aid, d.runtime aid ≤ base aid + start.secondsSince clock) :
    Counted base start clock ∅ d where
  row := fun _ _ h_o => absurd h_o (by simp)
  injective := fun _ _ _ _ h_o => absurd h_o (by simp)
  started := fun _ _ h_o => absurd h_o (by simp)
  others := fun _ _ h_o => absurd h_o (by simp)
  total := h

theorem later (h : Counted base start clock opens d) {clock' : Instant} (h_clock : clock ≤ clock') :
    Counted base start clock' opens d where
  row := h.row
  injective := h.injective
  started := fun key o h_o => ⟨(h.started key o h_o).1, (h.started key o h_o).2.trans h_clock⟩
  others := h.others
  total := fun aid => (h.total aid).trans (add_le_add_right (start.secondsSince_mono h_clock) _)

/-- Fewer sessions, in a database that shows no more. -/
theorem weaken (h : Counted base start clock opens d) {opens' : Opens}
    (h_opens : ∀ key o, opens'.lookup key = some o → opens.lookup key = some o)
    (h_row : ∀ key o, opens'.lookup key = some o →
      (o.sessionId, o.applicationId) ∈ d.openRows → (o.sessionId, o.applicationId) ∈ d'.openRows)
    (h_others : ∀ key o, opens'.lookup key = some o →
      d'.runtimeBut o.sessionId o.applicationId ≤ d.runtimeBut o.sessionId o.applicationId)
    (h_total : ∀ aid, d'.runtime aid ≤ base aid + start.secondsSince clock) :
    Counted base start clock opens' d' where
  row := fun key o h_o => h_row key o h_o (h.row key o (h_opens key o h_o))
  injective := fun key key' o o' h_o h_o' =>
    h.injective key key' o o' (h_opens key o h_o) (h_opens key' o' h_o')
  started := fun key o h_o => h.started key o (h_opens key o h_o)
  others := fun key o h_o => (h_others key o h_o).trans (h.others key o (h_opens key o h_o))
  total := h_total

theorem lookup_of_erase {key key' : GameKey} {o : OpenSession}
    (h_o : (opens.erase key).lookup key' = some o) : key' ≠ key ∧ opens.lookup key' = some o := by
  by_cases h_key : key' = key
  · rw [h_key, AList.lookup_erase] at h_o
    exact absurd h_o (by simp)
  · rw [AList.lookup_erase_ne h_key] at h_o
    exact ⟨h_key, h_o⟩

theorem dropped (h : Counted base start clock opens d) (key : GameKey) :
    Counted base start clock (opens.erase key) d :=
  h.weaken (fun _ _ h_o => (lookup_of_erase h_o).2) (fun _ _ _ h_row => h_row)
    (fun _ _ _ => le_refl _) h.total

/-- A statement that does not touch the session rows. -/
theorem same (h : Counted base start clock opens d) (h_sessions : d'.sessions = d.sessions) :
    Counted base start clock opens d' := by
  refine h.weaken (fun _ _ h_o => h_o) (fun _ _ _ h_row => ?_) (fun _ _ _ => le_of_eq ?_)
    fun aid => le_of_eq_of_le ?_ (h.total aid)
  · unfold Database.openRows Tables.openSessions at *
    rwa [h_sessions]
  · unfold Database.runtimeBut
    rw [h_sessions]
  · unfold Database.runtime
    rw [h_sessions]

/-- **A session that was just begun** starts when everything recorded so far has passed. -/
theorem opened (h : Counted base start clock opens d) (h_start : start ≤ clock) {key : GameKey}
    {app : Application} {at_ : OffsetDateTime} {row : Session} {sample : Sample}
    (h_begin : SessionRepo.begin d app.id at_ = .ok (row, d')) (h_now : sample.now = clock) :
    Counted base start clock (opens.insert key (openFor row app sample)) d' := by
  obtain ⟨h_rows, -, h_fresh⟩ := begin_rows h_begin
  obtain ⟨h_row, h_tables⟩ := SessionRepo.begin_ok h_begin
  have h_sessions : d'.sessions = d.sessions ++ [row] := by rw [h_tables]
  have h_zero : row.fullRuntimeSeconds = 0 := by rw [h_row]; rfl
  have h_app : row.applicationId = app.id := by rw [h_row]; rfl
  have h_seen := Database.runtime_append h_sessions h_zero
  have h_cases : ∀ key' o', (opens.insert key (openFor row app sample)).lookup key' = some o' →
      key' = key ∧ o' = openFor row app sample ∨ opens.lookup key' = some o' := by
    intro key' o' h_o'
    by_cases h_key : key' = key
    · rw [h_key, AList.lookup_insert] at h_o'
      exact Or.inl ⟨h_key, (Option.some.inj h_o').symm⟩
    · rw [AList.lookup_insert_ne h_key] at h_o'
      exact Or.inr h_o'
  -- the sessions of the map had a row before the new one
  have h_ne : ∀ key' o', opens.lookup key' = some o' → o'.sessionId ≠ row.id := by
    intro key' o' h_o' h_id
    obtain ⟨s, hs, -, h_s, -⟩ := Database.mem_openRows.mp (h.row key' o' h_o')
    rw [← h_id, ← h_s] at h_fresh
    exact h_fresh (List.mem_map_of_mem hs)
  refine ⟨?_, ?_, ?_, ?_, fun aid => ?_⟩
  · intro key' o' h_o'
    rw [h_rows]
    rcases h_cases key' o' h_o' with ⟨-, rfl⟩ | h_old
    · exact List.mem_append_right _ List.mem_cons_self
    · exact List.mem_append_left _ (h.row key' o' h_old)
  · intro key₁ key₂ o₁ o₂ h₁ h₂ h_id
    rcases h_cases key₁ o₁ h₁ with ⟨rfl, rfl⟩ | h_old₁
    · rcases h_cases key₂ o₂ h₂ with ⟨rfl, -⟩ | h_old₂
      · rfl
      · exact absurd h_id.symm (h_ne key₂ o₂ h_old₂)
    · rcases h_cases key₂ o₂ h₂ with ⟨rfl, rfl⟩ | h_old₂
      · exact absurd h_id (h_ne key₁ o₁ h_old₁)
      · exact h.injective key₁ key₂ o₁ o₂ h_old₁ h_old₂ h_id
  · intro key' o' h_o'
    rcases h_cases key' o' h_o' with ⟨-, rfl⟩ | h_old
    · show start ≤ sample.now ∧ sample.now ≤ clock
      rw [h_now]
      exact ⟨h_start, le_refl _⟩
    · exact h.started key' o' h_old
  · intro key' o' h_o'
    rcases h_cases key' o' h_o' with ⟨-, rfl⟩ | h_old
    · -- the row itself has no runtime yet
      have h_mem : row ∈ d'.sessions := by
        rw [h_sessions]
        exact List.mem_append_right _ List.mem_cons_self
      have h_split := Database.runtime_eq h_mem
      rw [h_zero, h_app, zero_add, (h_seen row.id app.id).1] at h_split
      show d'.runtimeBut row.id app.id ≤ base app.id + start.secondsSince sample.now
      rw [← h_split, h_now]
      exact h.total app.id
    · rw [(h_seen _ _).2]
      exact h.others key' o' h_old
  · rw [(h_seen 0 aid).1]
    exact h.total aid

/-- **A write of a session of the map** with a runtime it has reached keeps the bound, and is not seen
by the other sessions. -/
theorem written (h : Counted base start clock opens d) {key : GameKey} {o : OpenSession}
    (h_o : opens.lookup key = some o) {f : Session → Session} {now : Instant}
    (h_now : now ≤ clock) (h_write : d.Writes d' o.sessionId (o.startedInstant.secondsSince now) f) :
    (∀ aid, d'.runtime aid ≤ base aid + start.secondsSince clock) ∧
      ∀ key' o', opens.lookup key' = some o' →
        d'.runtimeBut o'.sessionId o'.applicationId = d.runtimeBut o'.sessionId o'.applicationId := by
  have h_row := h.row key o h_o
  refine ⟨fun aid => ?_, fun key' o' h_o' => ?_⟩
  · by_cases h_aid : o.applicationId = aid
    · subst h_aid
      obtain ⟨h_start, h_clock⟩ := h.started key o h_o
      calc d'.runtime o.applicationId
          = o.startedInstant.secondsSince now + d.runtimeBut o.sessionId o.applicationId :=
            h_write.runtime h_row
        _ ≤ o.startedInstant.secondsSince clock
              + (base o.applicationId + start.secondsSince o.startedInstant) :=
            add_le_add (o.startedInstant.secondsSince_mono h_now) (h.others key o h_o)
        _ = base o.applicationId + (start.secondsSince o.startedInstant
              + o.startedInstant.secondsSince clock) := by omega
        _ ≤ base o.applicationId + start.secondsSince clock :=
            add_le_add_right (Instant.secondsSince_add h_start h_clock) _
    · rw [(h_write.other h_row h_aid 0).1]
      exact h.total aid
  · by_cases h_aid : o.applicationId = o'.applicationId
    · -- an application has one open row
      have h_row' := h.row key' o' h_o'
      rw [← h_aid] at h_row'
      rw [Database.openRows_session h_row' h_row]
      exact h_write.runtimeBut _
    · exact (h_write.other h_row h_aid _).2

theorem beat (h : Counted base start clock opens d) {key : GameKey} {o : OpenSession}
    (h_o : opens.lookup key = some o) {at_ : OffsetDateTime} {sample : Sample}
    (h_now : sample.now ≤ clock)
    (h_beat : heartbeat d o.sessionId (snapshotOf o sample at_) = .ok d') :
    Counted base start clock opens d' := by
  obtain ⟨f, h_write⟩ := heartbeat_writes h_beat
  obtain ⟨h_total, h_others⟩ := h.written h_o h_now h_write
  refine h.weaken (fun _ _ h_o' => h_o') (fun _ _ _ h_row => ?_)
    (fun key' o' h_o' => (h_others key' o' h_o').le) h_total
  rwa [(heartbeat_rows h_beat).1]

theorem closed (h : Counted base start clock opens d) {key : GameKey} {o : OpenSession}
    (h_o : opens.lookup key = some o) {at_ : OffsetDateTime} {reason : ExitReason} {sample : Sample}
    (h_now : sample.now ≤ clock)
    (h_close : closeAndRollup d o.sessionId o.applicationId (snapshotOf o sample at_) reason = .ok d') :
    Counted base start clock (opens.erase key) d' := by
  have h_write := close_writes h_close (h.row key o h_o)
  obtain ⟨h_total, h_others⟩ := h.written h_o h_now h_write
  refine h.weaken (fun _ _ h_o' => (lookup_of_erase h_o').2) (fun key' o' h_o' h_row => ?_)
    (fun key' o' h_o' => (h_others key' o' (lookup_of_erase h_o').2).le) h_total
  -- the rows of the other sessions stay open
  obtain ⟨h_key, h_o'⟩ := lookup_of_erase h_o'
  rw [(closeAndRollup_rows h_close).1, List.mem_filter]
  exact ⟨h_row, decide_eq_true fun h_id => h_key (h.injective key' key o' o h_o' h_o h_id)⟩

/-- **Every thing a handler does keeps the count.** -/
theorem kept (base : ℤ → ℤ) {start clock : Instant} (h_start : start ≤ clock) :
    Kept clock (Counted base start clock) where
  created h h_create := h.same (by rw [(ApplicationRepo.create_ok h_create).2])
  opened h h_begin h_now := h.opened h_start h_begin h_now
  beat h h_o h_now h_beat := h.beat h_o h_now h_beat
  closed h h_o h_now h_close := h.closed h_o h_now h_close
  dropped h := h.dropped _

/-- A delete takes closed rows only. -/
theorem deleted (h : Counted base start clock opens d) {ids : List ℤ} {found : Bool}
    (h_delete : deleteSessionsAndRecompute d ids = .ok (found, d')) :
    Counted base start clock opens d' := by
  have h_sessions : d'.sessions = Sql.deleteWhere (fun s => s.id ∈ ids) d.sessions := by
    rw [(deleteSessionsAndRecompute_ok h_delete).2]
  refine h.weaken (fun _ _ h_o => h_o) (fun _ _ _ h_row => ?_)
    (fun _ _ _ => (Database.runtime_delete h_sessions _ _).2)
    fun aid => (Database.runtime_delete h_sessions 0 aid).1.trans (h.total aid)
  rwa [deleteSessionsAndRecompute_rows h_delete]

end Counted

/-- A recovery closes rows with the runtimes they have. -/
theorem PartlyRecovered.runtime {d₀ d : Database} (h : PartlyRecovered d₀ d) (aid : ℤ) :
    d.runtime aid = d₀.runtime aid := by
  obtain ⟨done, h_done⟩ := h
  refine Database.runtime_congr ?_ aid
  rw [h_done]
  unfold recoverSome
  rw [List.map_map]
  refine List.map_congr_left fun s _ => ?_
  show ((recoverRow done s).id, (recoverRow done s).applicationId,
    (recoverRow done s).fullRuntimeSeconds) = _
  unfold recoverRow
  split
  · rfl
  · rfl

/-! ### The daemon and its clock -/

namespace System

/-- The sessions of the process, if there is one. -/
def sessions (s : System) : Opens := s.process.elim ∅ SessionManager.open_

/-- The clock was read for a label. A shutdown reads it for each of its closes. -/
def Label.ReadBy (now : Instant) : Label → Prop
  | boot _ => True
  | turn input _ => input.now = now
  | shutdown _ order _ => ∀ x ∈ order, x.2.now ≤ now
  | crash => True

instance (now : Instant) : (l : Label) → Decidable (l.ReadBy now)
  | .boot _ | .crash => instDecidableTrue
  | .turn input _ => inferInstanceAs (Decidable (input.now = now))
  | .shutdown _ order _ => inferInstanceAs (Decidable (∀ x ∈ order, x.2.now ≤ now))

variable {base : ℤ → ℤ} {start now : Instant} {s t : System}

/-- Without a process what is known is a bound on the runtimes. -/
theorem counted_lost {d : Database} (h : Lost (Counted base start now) d) :
    Counted base start now (sessions ⟨d, none⟩) d := by
  obtain ⟨opens, h_opens⟩ := h
  exact .dead h_opens.total

/-- **A step of the daemon keeps the count.** The recovery leaves the runtimes alone, and what a turn or
the shutdown adds is on the clock that was read for it. -/
theorem Step.counted {l : Label} (h_step : s.Step l t) (h_read : l.ReadBy now) (h_start : start ≤ now)
    (h : Counted base start now s.sessions s.db) : Counted base start now t.sessions t.db := by
  have h_open : ∀ {m}, s.process = some m → Counted base start now m.open_ s.db := by
    intro m h_some
    unfold System.sessions at h
    rwa [h_some] at h
  cases h_step.does with
  | crash => exact .dead h.total
  | boot _ =>
    refine afterBoot_of_wp (P := fun t => Counted base start now t.sessions t.db)
      (wp_mono (recoverOrphans_spec (.refl s.db) {}) ?_ ?_) _
    · rintro r m' d' ⟨h_partly, h_ok⟩
      have h_dead : ∀ aid, d'.runtime aid ≤ base aid + start.secondsSince now := by
        intro aid
        rw [h_partly.runtime]
        exact h.total aid
      refine ⟨.dead h_dead, fun n h_r => ?_⟩
      -- a process that has just recovered holds no session
      show Counted base start now m'.open_ d'
      rw [(h_ok n h_r).2.1]
      exact .dead h_dead
    · intro d' h_partly
      refine .dead fun aid => ?_
      rw [h_partly.runtime]
      exact h.total aid
  | turn h_some _ =>
    obtain rfl := h_read
    exact afterTurn_of_wp (P := fun t => Counted base start _ t.sessions t.db)
      (wp_mono (turn_kept (Counted.kept base h_start) (h_open h_some)) (fun _ _ _ h_kept => h_kept)
        fun _ h_lost => counted_lost h_lost) _
  | shutdown h_some h_order =>
    -- every close is by a reading of the clock that is not after this one
    exact afterShutdown_of_wp (P := fun t => Counted base start now t.sessions t.db)
      (wp_mono (closeAllOpen_kept (Counted.kept base h_start) (h_open h_some) .terminated _ h_order
        h_read) (fun _ _ _ h_lost => counted_lost h_lost) fun _ h_lost => counted_lost h_lost) _

end System

/-- The daemon on a machine that is switched on and off. -/
structure Uptime where
  system : System
  /-- The last reading of the monotonic clock, which starts anew with each boot of the machine. -/
  clock : Instant
  /-- Its first reading after the boot. -/
  since : Instant
  ordered : since ≤ clock
  /-- The whole seconds that passed before the boot. -/
  before : ℤ := 0

namespace Uptime

/-- What can happen. -/
inductive Label where
  /-- A step of the daemon, by the time of a reading. -/
  | daemon (now : Instant) (l : System.Label)
  /-- Sessions are deleted in the interface. -/
  | delete (ids : List ℤ)
  /-- The machine is booted again. -/
  | reboot (now : Instant)

/-- The whole seconds that have passed. -/
def seconds (u : Uptime) : ℤ := u.before + u.since.secondsSince u.clock

/-- One step. A delete that fails changes nothing. -/
def next (u : Uptime) : Label → Option Uptime
  | .daemon now l =>
    if h : u.clock ≤ now ∧ l.ReadBy now then
      (u.system.next l).map fun system =>
        { u with system := system, clock := now, ordered := u.ordered.trans h.1 }
    else none
  | .delete ids =>
    match deleteSessionsAndRecompute u.system.db ids with
    | .ok (_, d) => some { u with system := { u.system with db := d } }
    | .error _ => some u
  | .reboot now => some ⟨⟨u.system.db, none⟩, now, now, le_refl _, u.seconds⟩

/-- A step. -/
def Step (u : Uptime) (l : Label) (v : Uptime) : Prop := u.next l = some v

/-- The count, from a time on when `base` had been recorded at zero seconds. -/
def Counts (base : ℤ → ℤ) (u : Uptime) : Prop :=
  Counted (fun aid => base aid + u.before) u.since u.clock u.system.sessions u.system.db

/-- **Every step keeps the count.** -/
theorem Step.counts {base : ℤ → ℤ} {u v : Uptime} {l : Label} (h_step : u.Step l v)
    (h : u.Counts base) : v.Counts base := by
  -- the three kinds of step: one of the daemon, a delete in between, a reboot
  unfold Step next at h_step
  cases l with
  | daemon now l =>
    simp only at h_step
    split at h_step
    next h_read =>
      -- the clock moved on before the step, so the bound had the time to grow
      obtain ⟨system, h_next, rfl⟩ := Option.map_eq_some_iff.mp h_step
      exact System.Step.counted h_next h_read.2 (u.ordered.trans h_read.1) (h.later h_read.1)
    next => exact absurd h_step (by simp)
  | delete ids =>
    simp only at h_step
    -- a delete takes runtime away, which keeps an upper bound
    split at h_step
    next h_delete =>
      obtain rfl := Option.some.inj h_step
      exact h.deleted h_delete
    next =>
      obtain rfl := Option.some.inj h_step
      exact h
  | reboot now =>
    -- the seconds up to the reboot are kept, and no session survives it in memory
    obtain rfl := Option.some.inj h_step
    refine .dead fun aid => ?_
    show u.system.db.runtime aid ≤ base aid + u.seconds + now.secondsSince now
    rw [Instant.secondsSince_self, add_zero]
    calc u.system.db.runtime aid
        ≤ base aid + u.before + u.since.secondsSince u.clock := h.total aid
      _ = base aid + u.seconds := add_assoc _ _ _

end Uptime

/-- **No second is counted twice.** From a time when no daemon runs, through every boot, recovery, turn,
failing transaction, crash, shutdown, delete and reboot of the machine: the runtime recorded for an
application grows by no more seconds than pass. -/
theorem no_second_counted_twice {u₀ : Uptime} (h_dead : u₀.system.process = none)
    {tr : List (Uptime.Label × Uptime)} (hrun : IsRun Uptime.Step u₀ tr) :
    ∀ u ∈ states u₀ tr, ∀ aid,
      u.system.db.runtime aid ≤ u₀.system.db.runtime aid + (u.seconds - u₀.seconds) := by
  -- the bound counts from the runtime at the start, less the seconds already counted there
  let base : ℤ → ℤ := fun aid => u₀.system.db.runtime aid - u₀.seconds
  have h_start : u₀.Counts base := by
    -- no daemon runs yet, so there is nothing uncharged in memory
    unfold Uptime.Counts System.sessions
    rw [h_dead]
    refine .dead fun aid => ?_
    show u₀.system.db.runtime aid ≤
      u₀.system.db.runtime aid - u₀.seconds + u₀.before + u₀.since.secondsSince u₀.clock
    unfold Uptime.seconds
    omega
  intro u hu aid
  have h_counts := hrun.invariant (Uptime.Counts base) (fun _ _ _ h_step => h_step.counts) h_start u hu
  calc u.system.db.runtime aid
      ≤ u₀.system.db.runtime aid - u₀.seconds + u.before + u.since.secondsSince u.clock :=
        h_counts.total aid
    _ = u₀.system.db.runtime aid + (u.seconds - u₀.seconds) := by
        unfold Uptime.seconds
        omega

/-- A game is played until the machine goes down, and again after it has been booted. -/
def playedTwice : List Uptime.Label :=
  [.daemon (.ofSeconds 0) (.boot []),
    .daemon (.ofSeconds 0) (.turn (startedSteam "10" 100 []).1 []),
    .daemon (.ofSeconds 60) (.turn (.heartbeat (.firstDay 160) (.ofSeconds 60) 60
      [(.steam "10", awake 60)]) []),
    .daemon (.ofSeconds 70) .crash,
    .reboot (.ofSeconds 0),
    .daemon (.ofSeconds 5) (.boot []),
    .daemon (.ofSeconds 5) (.turn
      (.event (.started (.steam "10") "10" none (.firstDay 500)) [] (sampleAt 5)) []),
    .daemon (.ofSeconds 65) (.turn (stoppedSteam "10" 560 65 []).1 [])]

/-- Nothing has been recorded, and the machine has just been booted. -/
def Uptime.fresh : Uptime := ⟨.fresh, .ofSeconds 0, .ofSeconds 0, le_refl _, 0⟩

/-- What the heartbeat has written counts, and what came after it does not. -/
theorem no_second_counted_twice_playedTwice :
    (∀ u ∈ states .fresh (trace Uptime.next .fresh playedTwice), ∀ aid,
      u.system.db.runtime aid ≤
        (Database.empty).runtime aid + (u.seconds - Uptime.fresh.seconds)) ∧
    (states .fresh (trace Uptime.next .fresh playedTwice)).map
        (fun u => (u.system.db.runtime 1, u.seconds)) =
      [(0, 0), (0, 0), (0, 0), (60, 60), (60, 70), (60, 70), (60, 75), (60, 75), (120, 135)] :=
  ⟨no_second_counted_twice rfl (isRun_trace Uptime.next .fresh playedTwice), by decide +kernel⟩

end Ludex
