import Ludex.Daemon.Runtimes
import Ludex.Daemon.SessionMoves

/-!
# Runtime snapshots are storable

A snapshot that violates a `CHECK` constraint is refused by SQLite, and the session it belongs to is
lost. `snapshots_storable` says that this does not happen: in every state of a run of the session
manager, while the clock goes on, the idle tracker changes, the grace is set and other processes
delete sessions and merge applications, the next snapshot of every open session is computed without
an overflow, is accepted by a heartbeat, does not go back behind what is stored, and is accepted by a
close while the runtimes of the application stay in range.

`Tracked` is what is known of a session of the map: its row is open, its start is not after the
clock, its baseline is in range, and the stored runtime is one the session has reached. Every
repository call but its own close keeps it (`Tracked.step`). `AllTracked` is the invariant of the manager:
all its sessions are tracked, and no two are the same.
-/

namespace Ludex

open Transact SessionManager Run

/-! ### Sessions of the map -/

/-- What is known of an open session. Another process may have merged its application away. -/
structure Tracked (d : Database) (clock : Instant) (o : OpenSession) : Prop where
  row : ∃ owner, (o.sessionId, owner) ∈ d.openRows ∧
    (owner = o.applicationId ∨ d.Gone o.applicationId)
  started : o.startedInstant ≤ clock
  baseline : I64.NonNeg o.baselineOpenIdleSeconds
  stored : ∀ s ∈ d.sessions, s.id = o.sessionId →
    s.fullRuntimeSeconds ≤ o.startedInstant.secondsSince clock

/-- The call does not close the session, and stores no runtime it has not reached. -/
def Call.Spares (clock : Instant) (o : OpenSession) : Call → Prop
  | done (.heartbeat sessionId snapshot) => sessionId = o.sessionId →
    snapshot.fullRuntimeSeconds ≤ o.startedInstant.secondsSince clock
  | done (.closeAndRollup sessionId _ _ _) => sessionId ≠ o.sessionId
  | _ => True

section Tracked

variable {d d' : Database} {clock : Instant} {o : OpenSession}

theorem Tracked.later (h : Tracked d clock o) {clock' : Instant} (h_clock : clock ≤ clock') :
    Tracked d clock' o where
  row := h.row
  started := h.started.trans h_clock
  baseline := h.baseline
  stored := fun s hs h_id =>
    (h.stored s hs h_id).trans (o.startedInstant.secondsSince_mono h_clock)

theorem Call.Spares.not_closes {c : Call} (h : c.Spares clock o) :
    ∀ aid snapshot reason, c ≠ .done (.closeAndRollup o.sessionId aid snapshot reason) := by
  rintro aid snapshot reason rfl
  exact h rfl

/-- **Every call keeps a session tracked** but the one that closes it. -/
theorem Tracked.step (h : Tracked d clock o) {c : Call} (h_reach : d.Reachable)
    (h_step : Step d c d') (h_spares : c.Spares clock o) : Tracked d' clock o := by
  obtain ⟨owner, h_open, h_owner⟩ := h.row
  refine ⟨?_, h.started, h.baseline, fun s' hs' h_id => ?_⟩
  · obtain ⟨owner', h_open', h_owner'⟩ := h_step.openRow h_reach h_open h_spares.not_closes
    refine ⟨owner', h_open', ?_⟩
    -- the owner is the one it was opened for, or that one is gone, now or before
    rcases h_owner with rfl | h_gone
    · exact h_owner'
    · exact Or.inr (h_gone.step h_step)
  · rcases h_step.fullRuntime h_open h_spares.not_closes hs' h_id with
      ⟨s, hs, h_same, h_runtime⟩ | ⟨snapshot, rfl, h_runtime⟩
    · rw [← h_runtime]
      exact h.stored s hs h_same
    · rw [h_runtime]
      exact h_spares rfl

/-- The manager closes a session it tracks for its owner. -/
theorem Tracked.ownedOrGone (h : Tracked d clock o) (snapshot : RuntimeSnapshot)
    (reason : ExitReason) :
    (Call.done (.closeAndRollup o.sessionId o.applicationId snapshot reason)).OwnedOrGone d := by
  intro s hs h_id
  obtain ⟨owner, h_open, h_owner⟩ := h.row
  obtain ⟨s₀, hs₀, -, h_id₀, h_app⟩ := Database.mem_openRows.mp h_open
  obtain rfl := d.session_unique hs hs₀ (h_id.trans h_id₀.symm)
  exact h_owner.imp (fun h_same => h_app.trans h_same) fun h_gone => h_gone.2

end Tracked

/-! ### The sessions of the manager -/

/-- All sessions of the map are tracked, and no two are the same. -/
structure AllTracked (clock : Instant) (m : SessionManager) (d : Database) : Prop where
  reachable : d.Reachable
  tracked : ∀ key o, m.open_.lookup key = some o → Tracked d clock o
  injective : ∀ key key' o o', m.open_.lookup key = some o → m.open_.lookup key' = some o' →
    o.sessionId = o'.sessionId → key = key'

section AllTracked

variable {m m' : SessionManager} {d d' : Database} {clock : Instant} {key : GameKey}
  {o : OpenSession}

/-- A manager of no session. -/
theorem AllTracked.start (h : d.Reachable) (clock : Instant) : AllTracked clock {} d where
  reachable := h
  tracked := fun _ _ h_o => absurd h_o (by simp)
  injective := fun _ _ _ _ h_o => absurd h_o (by simp)

theorem AllTracked.later (h : AllTracked clock m d) {clock' : Instant} (h_clock : clock ≤ clock') :
    AllTracked clock' m d where
  reachable := h.reachable
  tracked := fun key o h_o => (h.tracked key o h_o).later h_clock
  injective := h.injective

theorem AllTracked.same (h : AllTracked clock m d) (h_map : m'.open_ = m.open_) : AllTracked clock m' d where
  reachable := h.reachable
  tracked := by rw [h_map]; exact h.tracked
  injective := by rw [h_map]; exact h.injective

theorem AllTracked.noted (h : AllTracked clock m d) (record : LogRecord) : AllTracked clock (m.noted record) d :=
  h.same rfl

/-- A call that spares the sessions of the map. -/
theorem AllTracked.step (h : AllTracked clock m d) {c : Call} (h_step : Step d c d')
    (h_owned : c.OwnedOrGone d)
    (h_spares : ∀ key o, m.open_.lookup key = some o → c.Spares clock o) : AllTracked clock m d' where
  reachable := h.reachable.step h_step h_owned
  tracked := fun key o h_o => (h.tracked key o h_o).step h.reachable h_step (h_spares key o h_o)
  injective := h.injective

/-- The session that was taken out of the map is none of those left. -/
theorem AllTracked.ne_of_erase (h : AllTracked clock m d) (h_o : m.open_.lookup key = some o)
    (h_map : m'.open_ = m.open_.erase key) {key' : GameKey} {o' : OpenSession}
    (h_o' : m'.open_.lookup key' = some o') :
    m.open_.lookup key' = some o' ∧ o.sessionId ≠ o'.sessionId := by
  rw [h_map] at h_o'
  by_cases h_key : key' = key
  · rw [h_key, AList.lookup_erase] at h_o'
    exact nomatch h_o'
  · rw [AList.lookup_erase_ne h_key] at h_o'
    exact ⟨h_o', fun h_id => h_key (h.injective key' key o' o h_o' h_o h_id.symm)⟩

theorem AllTracked.taken (h : AllTracked clock m d) (h_o : m.open_.lookup key = some o)
    (h_map : m'.open_ = m.open_.erase key) : AllTracked clock m' d where
  reachable := h.reachable
  tracked := fun key' o' h_o' => h.tracked key' o' (h.ne_of_erase h_o h_map h_o').1
  injective := fun key₁ key₂ o₁ o₂ h₁ h₂ h_id =>
    h.injective key₁ key₂ o₁ o₂ (h.ne_of_erase h_o h_map h₁).1 (h.ne_of_erase h_o h_map h₂).1 h_id

/-- A session is closed after it was taken out of the map. -/
theorem AllTracked.closed (h : AllTracked clock m d) (h_o : m.open_.lookup key = some o)
    (h_map : m'.open_ = m.open_.erase key) {snapshot : RuntimeSnapshot} {reason : ExitReason}
    (h_close : SessionRepo.closeAndRollup d o.sessionId o.applicationId snapshot reason = .ok d') :
    AllTracked clock m' d' := by
  refine (h.taken h_o h_map).step (c := .done (.closeAndRollup _ _ snapshot reason))
    (.done h_close) ((h.tracked key o h_o).ownedOrGone snapshot reason) fun key' o' h_o' => ?_
  exact (h.ne_of_erase h_o h_map h_o').2

/-- A session that was just begun goes into the map. -/
theorem AllTracked.opened (h : AllTracked clock m d) {aid : ℤ} {at_ : OffsetDateTime} {row : Session}
    (h_begin : SessionRepo.begin d aid at_ = .ok (row, d')) (h_new : Tracked d' clock o)
    (h_row : o.sessionId = row.id) (h_map : m'.open_ = m.open_.insert key o) : AllTracked clock m' d' := by
  have h_step : Step d (.done (.begin aid at_)) d' := by
    refine .done ?_
    show (SessionRepo.begin d aid at_).map Prod.snd = .ok d'
    rw [h_begin]
    rfl
  have h_before : AllTracked clock m d' := h.step h_step trivial fun _ _ _ => trivial
  obtain ⟨-, -, h_fresh⟩ := begin_rows h_begin
  -- the sessions of the map had a row before the new one
  have h_ne : ∀ key' o', m.open_.lookup key' = some o' → o'.sessionId ≠ o.sessionId := by
    intro key' o' h_o' h_id
    obtain ⟨owner, h_open, -⟩ := (h.tracked key' o' h_o').row
    obtain ⟨s, hs, -, h_s, -⟩ := Database.mem_openRows.mp h_open
    rw [← h_row, ← h_id, ← h_s] at h_fresh
    exact h_fresh (List.mem_map_of_mem hs)
  have h_cases : ∀ key' o', m'.open_.lookup key' = some o' →
      key' = key ∧ o' = o ∨ m.open_.lookup key' = some o' := by
    intro key' o' h_o'
    rw [h_map] at h_o'
    by_cases h_key : key' = key
    · rw [h_key, AList.lookup_insert] at h_o'
      exact Or.inl ⟨h_key, (Option.some.inj h_o').symm⟩
    · rw [AList.lookup_insert_ne h_key] at h_o'
      exact Or.inr h_o'
  refine ⟨h_before.reachable, fun key' o' h_o' => ?_, fun key₁ key₂ o₁ o₂ h₁ h₂ h_id => ?_⟩
  · rcases h_cases key' o' h_o' with ⟨-, rfl⟩ | h_old
    · exact h_new
    · exact h_before.tracked key' o' h_old
  · rcases h_cases key₁ o₁ h₁ with ⟨rfl, rfl⟩ | h_old₁
    · rcases h_cases key₂ o₂ h₂ with ⟨rfl, -⟩ | h_old₂
      · rfl
      · exact absurd h_id.symm (h_ne key₂ o₂ h_old₂)
    · rcases h_cases key₂ o₂ h₂ with ⟨rfl, rfl⟩ | h_old₂
      · exact absurd h_id (h_ne key₁ o₁ h_old₁)
      · exact h.injective key₁ key₂ o₁ o₂ h_old₁ h_old₂ h_id

/-- The session that `openFor` makes of a new row. -/
theorem Tracked.openFor {app : Application} {at_ : OffsetDateTime} {row : Session}
    (h_begin : SessionRepo.begin d app.id at_ = .ok (row, d')) (sample : Sample) :
    Tracked d' sample.now (openFor row app sample) where
  -- the row is the one just inserted, and the map's entry starts from it
  row := by
    refine ⟨app.id, ?_, Or.inl rfl⟩
    rw [(begin_rows h_begin).1]
    exact List.mem_append_right _ List.mem_cons_self
  started := le_refl _
  baseline := IdleTracker.baseline_nonNeg _ _
  stored := by
    -- identities are unique, so it is the only row the entry can mean
    intro s hs h_id
    obtain ⟨h_row, h_tables⟩ := SessionRepo.begin_ok h_begin
    have h_mem : row ∈ d'.sessions := by
      rw [h_tables]
      exact List.mem_append_right _ List.mem_cons_self
    obtain rfl := d'.session_unique hs h_mem h_id
    rw [h_row]
    -- nothing has been added up yet
    exact (Instant.secondsSince_nonNeg _ _).1

end AllTracked

/-! ### Handlers -/

section Handlers

variable {m : SessionManager} {d : Database} {clock : Instant}

/-- What every handler leaves, however it ends. -/
abbrev Left.AllTracked (clock : Instant) {α : Type} : Except Error α → SessionManager → Database → Prop :=
  fun _ m d => Ludex.AllTracked clock m d

theorem findOrCreateApplication_tracked (h : AllTracked clock m d) (key : GameKey) (displayName : String)
    (executablePath : Option PathBuf) (now : OffsetDateTime) :
    wp (findOrCreateApplication key displayName executablePath now) (Left.AllTracked clock)
      Database.Reachable m d := by
  unfold findOrCreateApplication
  -- only the insert of a new application changes the database, and that is a call of its own
  refine wp_read_bind ?_ (fun _ => h) h.reachable
  cases ApplicationRepo.findByKey d key with
  | some app => exact wp_pure h
  | none =>
    apply wp_bind
    apply wp_transact
    · intro app d' h_create
      have h_step : Step d (.done (.create (firstSeen key displayName executablePath now))) d' := by
        refine .done ?_
        show (ApplicationRepo.create d _).map Prod.snd = .ok d'
        rw [h_create]
        rfl
      apply wp_modify_bind
      exact wp_pure ((h.step h_step trivial fun _ _ _ => trivial).same rfl)
    · exact fun _ _ => h
    · exact h
    · exact h.reachable

theorem openSession_tracked {sample : Sample} (h : AllTracked sample.now m d) (key : GameKey)
    (at_ : OffsetDateTime) (app : Application) :
    wp (openSession key at_ sample app) (Left.AllTracked sample.now) Database.Reachable m d := by
  unfold openSession
  apply wp_bind
  apply wp_attempt
  apply wp_transact
  · -- the new row joins the rows the map stands for
    intro row d' h_begin
    apply wp_modify_bind
    apply wp_modify_bind
    apply wp_modify
    exact (h.noted _).opened h_begin (.openFor h_begin sample) rfl rfl
  · -- an insert that is refused or fails leaves the rows as they are
    intro e _
    cases e with
    | openSessionExists aid => exact wp_modify (h.noted _)
    | sql e => exact wp_throw h
    | invariant message => exact wp_throw h
  · exact wp_throw h
  · exact h.reachable

theorem handleStarted_tracked {sample : Sample} (h : AllTracked sample.now m d) (key : GameKey)
    (displayName : String) (executablePath : Option PathBuf) (at_ : OffsetDateTime)
    (blocklist : List GameKey) :
    wp (handleStarted key displayName executablePath at_ blocklist sample) (Left.AllTracked sample.now)
      Database.Reachable m d := by
  unfold handleStarted
  apply wp_get_bind
  -- blocked, already open, and the case in which the start is accepted
  split
  · exact wp_modify (h.noted _)
  · split
    · exact wp_modify (h.noted _)
    · apply wp_bind
      refine wp_mono (findOrCreateApplication_tracked h key displayName executablePath at_) ?_
        fun _ h_left => h_left
      rintro (e | app) m' d' h_post
      · exact h_post
      · exact openSession_tracked h_post key at_ app

theorem handleStopped_tracked (h : AllTracked clock m d) (key : GameKey) (at_ : OffsetDateTime)
    (sample : Sample) :
    wp (handleStopped key at_ sample) (Left.AllTracked clock) Database.Reachable m d := by
  unfold handleStopped
  apply wp_get_bind
  cases h_lookup : m.open_.lookup key with
  | none => exact wp_modify (h.noted _)
  | some o =>
    apply wp_modify_bind
    unfold closeSession
    apply wp_bind
    apply wp_write
    · -- the entry has left the map whether or not the close goes through
      intro d' h_close
      apply wp_modify_bind
      apply wp_modify
      exact h.closed h_lookup rfl h_close
    · exact fun _ => h.taken h_lookup rfl
    · exact h.reachable

theorem heartbeatOpenSessions_tracked {now : Instant} (h : AllTracked now m d) (at_ : OffsetDateTime)
    (idleGrace : ℕ) (order : List (GameKey × IdleReading)) :
    wp (heartbeatOpenSessions at_ now idleGrace order) (Left.AllTracked now) Database.Reachable m d := by
  unfold heartbeatOpenSessions
  apply wp_get_bind
  -- the memory does not change, and what is still to do are sessions of the map
  apply wp_forM fun xs m' d' => AllTracked now m' d' ∧
    ∀ x ∈ xs, ∃ key, m'.open_.lookup key = some x.1
  · rintro ⟨o, idle⟩ xs m' d' ⟨h_all, h_mem⟩
    obtain ⟨key, h_lookup⟩ := h_mem _ List.mem_cons_self
    apply wp_write
    · intro d'' h_beat
      refine ⟨h_all.step (c := .done (.heartbeat _ _)) (.done h_beat) trivial ?_,
        fun x hx => h_mem x (List.mem_cons_of_mem _ hx)⟩
      intro key' o' h_o' h_id
      obtain rfl := h_all.injective key key' o o' h_lookup h_o' h_id
      obtain rfl := Option.some.inj (h_lookup.symm.trans h_o')
      exact le_refl _
    · exact fun _ => h_all
    · exact h_all.reachable
  · exact fun m' d' h_done => h_done.1
  · refine ⟨h, fun x hx => ?_⟩
    obtain ⟨⟨key, idle⟩, -, h_x⟩ := List.mem_filterMap.mp hx
    obtain ⟨o, h_lookup, rfl⟩ := Option.map_eq_some_iff.mp h_x
    exact ⟨key, h_lookup⟩

/-- The clock reading of a turn. -/
def SessionManager.Input.now : Input → Instant
  | event _ _ sample => sample.now
  | heartbeat _ now _ _ => now

/-- **A turn leaves the sessions of the map tracked**, at the instant it read. -/
theorem turn_tracked {input : Input} (h : AllTracked input.now m d) :
    wp (turn input) (Left.AllTracked input.now) Database.Reachable m d := by
  cases input with
  | event event blocklist sample =>
    refine wp_logged (P := Left.AllTracked sample.now) ?_ (fun _ _ h_post => h_post)
      fun _ _ _ h_post => h_post.noted _
    cases event with
    | started key displayName executablePath at_ =>
      exact handleStarted_tracked h key displayName executablePath at_ blocklist
    | stopped key at_ => exact handleStopped_tracked h key at_ sample
  | heartbeat at_ now idleGrace order =>
    exact wp_logged (P := Left.AllTracked now) (heartbeatOpenSessions_tracked h at_ idleGrace order)
      (fun _ _ h_post => h_post) fun _ _ _ h_post => h_post.noted _

end Handlers

/-! ### Closing several sessions -/

/-- A session of the map to be closed, with what the close reads. -/
structure Closing where
  key : GameKey
  session : OpenSession
  sample : Sample
  at_ : OffsetDateTime
  reason : ExitReason

namespace Closing

/-- The repository call of the close. -/
def run (d : Database) (c : Closing) : Except Error Database :=
  SessionRepo.closeAndRollup d c.session.sessionId c.session.applicationId
    (snapshotOf c.session c.sample c.at_) c.reason

/-- The runtimes of the application stay in range with the session added. -/
def HasRoom (d : Database) (c : Closing) : Prop :=
  d.closedRuntime c.session.applicationId + (runtimesFor c.session c.sample).1 < 2 ^ 63

/-- A close of a tracked session leaves room for the others, whose applications it does not add
to. -/
theorem HasRoom.step {d d' : Database} {clock : Instant} {c c' : Closing} (h : c'.HasRoom d)
    (h_c : Tracked d clock c.session) (h_c' : Tracked d clock c'.session)
    (h_ne : c.session.sessionId ≠ c'.session.sessionId)
    (h_run : c.run d = .ok d') : c'.HasRoom d' := by
  have h_step : Step d (.done (.closeAndRollup _ _ _ c.reason)) d' := .done h_run
  obtain ⟨owner, h_row, -⟩ := h_c.row
  obtain ⟨owner', h_row', h_owner'⟩ := h_c'.row
  unfold HasRoom at h ⊢
  -- the owner may have been merged away: then there is nothing the close could add to
  rcases h_owner' with rfl | h_gone
  · -- two different rows, so the close of one does not count for the other's owner twice
    rw [closedRuntime_close h_run h_row fun h_same => ?_]
    · exact h
    · rw [← h_same] at h_row'
      exact h_ne (Database.openRows_session h_row h_row')
  · rw [(h_gone.step h_step).closedRuntime]
    rw [h_gone.closedRuntime] at h
    exact h

/-- **Sessions that are tracked can be closed**, all of them and in any order. -/
theorem foldlM_run {d : Database} {clock : Instant} (h_reach : d.Reachable) {cs : List Closing}
    (h_nodup : (cs.map fun c => c.session.sessionId).Nodup)
    (h : ∀ c ∈ cs, Tracked d clock c.session ∧ c.HasRoom d) :
    ∃ d', cs.foldlM run d = .ok d' := by
  induction cs generalizing d with
  | nil => exact ⟨d, rfl⟩
  | cons c cs ih =>
    obtain ⟨h_fresh, h_rest⟩ := List.nodup_cons.mp h_nodup
    obtain ⟨h_c, h_room⟩ := h c List.mem_cons_self
    obtain ⟨owner, h_row, -⟩ := h_c.row
    obtain ⟨s, hs, h_open, h_id, -⟩ := Database.mem_openRows.mp h_row
    obtain ⟨d₁, h_run⟩ : ∃ d₁, c.run d = .ok d₁ := by
      unfold run
      rw [← h_id]
      exact closeAndRollup_succeeds h_reach hs h_open _ (snapshot_checks _ _ _) c.reason h_room
    have h_step : Step d (.done (.closeAndRollup _ _ _ c.reason)) d₁ := .done h_run
    have h_reach₁ : d₁.Reachable := h_reach.step h_step (h_c.ownedOrGone _ _)
    -- the others are still tracked, and have as much room as before
    have h_others : ∀ c' ∈ cs, Tracked d₁ clock c'.session ∧ c'.HasRoom d₁ := by
      intro c' hc'
      have h_ne : c.session.sessionId ≠ c'.session.sessionId := fun h_same =>
        h_fresh (List.mem_map.mpr ⟨c', hc', h_same.symm⟩)
      obtain ⟨h_c', h_room'⟩ := h c' (List.mem_cons_of_mem _ hc')
      exact ⟨h_c'.step h_reach h_step h_ne, h_room'.step h_c h_c' h_ne h_run⟩
    obtain ⟨d', h_ok⟩ := ih h_reach₁ h_rest h_others
    refine ⟨d', ?_⟩
    rw [List.foldlM_cons, h_run]
    exact h_ok

end Closing

/-! ### Runs -/

/-- A manager, its database, and the last reading of its clock. -/
structure Clocked where
  live : Live
  clock : Instant

/-- What other processes do to the sessions and applications while the manager runs: the public
interface deletes sessions, and the command line merges applications. -/
inductive Interference (d d' : Database) : Prop
  | deleted (ids : List ℤ) : Step d (.done (.deleteSessionsAndRecompute ids)) d' → Interference d d'
  | merged (srcId dstId : ℤ) : Step d (.done (.mergeInto srcId dstId)) d' → Interference d d'

/-- A turn of the manager at a reading of its clock, or an interference between two turns. -/
inductive Clocked.Step : Clocked → Option (Input × List Fate) → Clocked → Prop
  | turn {s : Clocked} {l : Input × List Fate} {live : Live} : s.clock ≤ l.1.now →
      Live.Step s.live l live → Step s (some l) ⟨live, l.1.now⟩
  | interference {s : Clocked} {d' : Database} : Interference s.live.2 d' →
      Step s none ⟨(s.live.1, d'), s.clock⟩

theorem Clocked.Step.allTracked {s t : Clocked} {l : Option (Input × List Fate)}
    (h_step : Clocked.Step s l t) (h : AllTracked s.clock s.live.1 s.live.2) :
    AllTracked t.clock t.live.1 t.live.2 := by
  cases h_step with
  | turn h_clock h_turn =>
    obtain ⟨_, h_post⟩ := h_turn.post (turn_tracked (h.later h_clock))
    exact h_post
  | interference h_other =>
    cases h_other with
    | deleted ids h_step => exact h.step h_step trivial fun _ _ _ => trivial
    | merged srcId dstId h_step => exact h.step h_step trivial fun _ _ _ => trivial

/-- What the next snapshots of the open sessions promise. -/
structure Clocked.Storable (s : Clocked) : Prop where
  /-- No operation overflows, and the bounds of the clamp are ordered. -/
  arithmetic : ∀ key o, s.live.1.open_.lookup key = some o → ∀ sample : Sample,
    sample.idle.state.Reachable → runtimesForChecked o sample = some (runtimesFor o sample)
  /-- `0 ≤ interactive ≤ full`. -/
  ordered : ∀ key o, s.live.1.open_.lookup key = some o → ∀ sample : Sample,
    0 ≤ (runtimesFor o sample).2 ∧ (runtimesFor o sample).2 ≤ (runtimesFor o sample).1
  /-- A heartbeat is accepted, whatever has happened to the database since. -/
  heartbeat : ∀ key o, s.live.1.open_.lookup key = some o → ∀ (sample : Sample) (at_ : OffsetDateTime)
    (d : Database), ∃ d', SessionRepo.heartbeat d o.sessionId (snapshotOf o sample at_) = .ok d'
  /-- The full runtime is no less than what is stored, and does not decrease from there. -/
  grows : ∀ key o, s.live.1.open_.lookup key = some o → ∀ sample : Sample, s.clock ≤ sample.now →
    (∀ row ∈ s.live.2.sessions, row.id = o.sessionId →
      row.fullRuntimeSeconds ≤ (runtimesFor o sample).1) ∧
    ∀ sample' : Sample, sample.now ≤ sample'.now →
      (runtimesFor o sample).1 ≤ (runtimesFor o sample').1
  /-- Any of the sessions can be closed, one after the other, and no total of interactive runtimes
  exceeds that of full ones afterwards. -/
  closes : ∀ cs : List Closing, (cs.map Closing.key).Nodup →
    (∀ c ∈ cs, s.live.1.open_.lookup c.key = some c.session ∧ c.HasRoom s.live.2) →
    ∃ d', cs.foldlM Closing.run s.live.2 = .ok d' ∧
      ∀ a ∈ d'.applications, a.statTotalInteractive ≤ a.statTotalFull

theorem AllTracked.storable {s : Clocked} (h : AllTracked s.clock s.live.1 s.live.2) :
    s.Storable where
  -- each field is a fact about one entry but the last, which is about closing them all
  arithmetic := fun key o h_o sample h_idle =>
    runtimesForChecked_eq (h.tracked key o h_o).baseline h_idle.inRange
  ordered := fun key o _ sample => by
    obtain ⟨-, -, h_zero, h_le⟩ := snapshot_checks o sample (.firstDay 0)
    exact ⟨h_zero, h_le⟩
  heartbeat := fun key o _ sample at_ d =>
    heartbeat_succeeds d o.sessionId (snapshot_checks o sample at_)
  grows := fun key o h_o sample h_now =>
    ⟨((h.tracked key o h_o).later h_now).stored, fun _ h_later => fullRuntime_mono o h_later⟩
  closes := by
    intro cs h_nodup h_cs
    have h_sessions : (cs.map fun c => c.session.sessionId).Nodup := by
      refine List.Nodup.map_on ?_ (List.Nodup.of_map _ h_nodup)
      -- entries of different keys have different rows
      intro c hc c' hc' h_same
      have h_key := h.injective c.key c'.key _ _ (h_cs c hc).1 (h_cs c' hc').1 h_same
      exact List.inj_on_of_nodup_map h_nodup hc hc' h_key
    obtain ⟨d', h_ok⟩ := Closing.foldlM_run h.reachable h_sessions
      fun c hc => ⟨h.tracked c.key c.session (h_cs c hc).1, (h_cs c hc).2⟩
    refine ⟨d', h_ok, fun a ha => ?_⟩
    obtain ⟨-, -, -, -, -, -, h_le, -⟩ := d'.checks.1 a ha
    exact h_le

/-- **Snapshots are storable.** In every state of a run of the manager that starts with no session
on a reachable database. -/
theorem snapshots_storable {d : Database} (h : d.Reachable) {clock : Instant}
    {tr : List (Option (Input × List Fate) × Clocked)}
    (hrun : IsRun Clocked.Step ⟨({}, d), clock⟩ tr) :
    ∀ s ∈ states ⟨({}, d), clock⟩ tr, s.Storable := by
  intro s hs
  have h_all := hrun.invariant (fun s => AllTracked s.clock s.live.1 s.live.2)
    (fun _ _ _ h_step h_before => h_step.allTracked h_before) (AllTracked.start h clock) s hs
  exact h_all.storable

/-- A game started ten seconds after boot. -/
def portalStarted : Input :=
  .event (.started (.steam "620") "Portal 2" none (.firstDay 0)) []
    ⟨.ofSeconds 10, 300, ⟨{}, .ofSeconds 10⟩⟩

/-- The manager after that turn. -/
def portalOpened : Live :=
  (Live.next ({}, .empty) (portalStarted, [])).get (by decide +kernel)

/-- The session of the game is open, and its snapshots can be stored. -/
theorem snapshots_storable_portal :
    GameKey.steam "620" ∈ portalOpened.1.open_ ∧
      Clocked.Storable ⟨portalOpened, .ofSeconds 10⟩ := by
  have h_step : Clocked.Step ⟨({}, .empty), .ofSeconds 0⟩ (some (portalStarted, []))
      ⟨portalOpened, .ofSeconds 10⟩ := .turn (by decide) (Option.some_get _).symm
  refine ⟨by decide +kernel, ?_⟩
  exact snapshots_storable .empty (.cons h_step (.nil _)) _
    (List.mem_cons_of_mem _ List.mem_cons_self)

end Ludex
