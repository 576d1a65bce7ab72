import Ludex.Core.Aggregates
import Ludex.Daemon.Storable
import Ludex.Daemon.Stranded
import Ludex.Daemon.Transactions

/-!
# Sessions of an application that was merged away

The manager remembers which application it opened a session for. When the command line merges that
application into another while the game runs, the session row goes to the other application and the
manager is not told: its close adds the runtime to an application that no longer exists, which adds
it to nothing. `ludex merge` refuses to start while a daemon owns the name on the bus. But it looks
only once, before it opens the database, and it takes a bus that it cannot reach for one without a
daemon.

`aggregates_agree_iff_charged` says that this is the only way in which the statistics come apart: in
every run of the manager, with the deletes and merges of other processes in between, they are those of
the closed sessions in every state if and only if no turn closes a session whose application is gone.
-/

namespace Ludex

open Transact SessionManager Run

/-- The statistics of every application are those of its closed sessions. -/
def Database.Balanced (d : Database) : Prop := ∀ a ∈ d.applications, AggregatesAgree d.sessions a

theorem Database.Balanced.step {d d' : Database} {c : Call} (h : d.Balanced) (h_step : Step d c d')
    (h_owned : c.Owned d) : d'.Balanced := AggregatesAgree.step h_step h_owned h

/-- A call that closes nothing keeps the statistics. -/
theorem Database.Balanced.repoCall {d d' : Database} (h_call : RepoCall false d d')
    (h : d.Balanced) : d'.Balanced := by
  rcases h_call with rfl | ⟨op, h_close, h_run⟩
  · exact h
  · -- of the other calls each keeps the aggregates whatever the owner
    refine h.step (.done h_run) ?_
    cases op with
    | closeAndRollup sid aid snapshot reason => exact absurd (h_close rfl) Bool.false_ne_true
    | create new => trivial
    | begin aid at_ => trivial
    | heartbeat sid snapshot => trivial
    | deleteSessionsAndRecompute ids => trivial
    | mergeInto srcId dstId => trivial

section Close

variable {d d' : Database} {clock : Instant} {o : OpenSession} {snapshot : RuntimeSnapshot}
  {reason : ExitReason}

/-- A session that is closed for an application that is gone is added to nothing. -/
theorem not_balanced_close (h : d.Balanced) (h_tracked : Tracked d clock o)
    (h_gone : d.Gone o.applicationId)
    (h_close : SessionRepo.closeAndRollup d o.sessionId o.applicationId snapshot reason = .ok d') :
    ¬ d'.Balanced := by
  intro h'
  obtain ⟨owner, h_row, -⟩ := h_tracked.row
  obtain ⟨s, hs, h_open, h_id, rfl⟩ := Database.mem_openRows.mp h_row
  obtain ⟨a, ha, h_owner⟩ := d.exists_owner hs
  rw [← h_id] at h_close
  obtain ⟨h_apps, h_sessions⟩ := closeAndRollup_tables hs h_open h_close
  -- the row of the owner is not written
  have ha' : a ∈ d'.applications := by
    rw [h_apps]
    refine Sql.mem_updateWhere.mpr ⟨a, ha, if_neg ?_⟩
    rw [decide_eq_true_eq]
    exact h_gone.2 a ha
  have h_perm := closedSessions_close_owner hs h_open snapshot reason
  rw [← h_sessions, ← h_owner] at h_perm
  have h_more := h_perm.length_eq
  rw [List.length_cons] at h_more
  have h_before := (h a ha).runCount
  have h_after := (h' a ha').runCount
  omega

/-- Closing a tracked session keeps the statistics exactly when its application is still there. -/
theorem balanced_close_iff (h : d.Balanced) (h_tracked : Tracked d clock o)
    (h_close : SessionRepo.closeAndRollup d o.sessionId o.applicationId snapshot reason = .ok d') :
    d'.Balanced ↔ ¬ d.Gone o.applicationId := by
  refine ⟨fun h' h_gone => not_balanced_close h h_tracked h_gone h_close h', fun h_there => ?_⟩
  refine h.step (c := .done (.closeAndRollup _ _ snapshot reason)) (.done h_close) ?_
  -- the row that is closed is the one the entry stands for
  intro s hs h_id
  obtain ⟨owner, h_row, h_owner⟩ := h_tracked.row
  obtain ⟨s₀, hs₀, -, h_id₀, h_app⟩ := Database.mem_openRows.mp h_row
  obtain rfl := d.session_unique hs hs₀ (h_id.trans h_id₀.symm)
  exact h_app.trans (h_owner.resolve_right h_there)

/-- An application that is gone has room for any session. -/
theorem close_of_gone (h_reach : d.Reachable) (h_tracked : Tracked d clock o)
    (h_gone : d.Gone o.applicationId) (sample : Sample) (at_ : OffsetDateTime)
    (reason : ExitReason) :
    ∃ d', SessionRepo.closeAndRollup d o.sessionId o.applicationId (snapshotOf o sample at_) reason
      = .ok d' := by
  obtain ⟨owner, h_row, -⟩ := h_tracked.row
  obtain ⟨s, hs, h_open, h_id, -⟩ := Database.mem_openRows.mp h_row
  have h_checks := snapshot_checks o sample at_
  rw [← h_id]
  -- an application that is gone has no runtime, so the total stays within the limit
  refine closeAndRollup_succeeds h_reach hs h_open _ h_checks reason ?_
  rw [h_gone.closedRuntime, Int.zero_add]
  exact h_checks.2.1.2
end Close

/-! ### The turn for a `Stopped` -/

section Stopped

variable {m m' : SessionManager} {d d' : Database} {key : GameKey} {at_ : OffsetDateTime}
  {blocklist : List GameKey} {sample : Sample} {fates : List Fate}

/-- The turn of a game that is not in the map does not touch the database. -/
theorem stopped_unknown
    (h : Live.Step (m, d) (.event (.stopped key at_) blocklist sample, fates) (m', d'))
    (h_none : m.open_.lookup key = none) : d' = d := by
  -- an unknown key: only the log is written
  have h_turn : wp (turn (.event (.stopped key at_) blocklist sample))
      (fun _ _ d' => d' = d) (fun d' => d' = d) m d := by
    refine wp_logged (P := fun _ _ d' => d' = d) ?_ (fun _ _ h_same => h_same)
      fun _ _ _ h_same => h_same
    show wp (handleStopped key at_ sample) _ _ m d
    unfold handleStopped
    apply wp_get_bind
    rw [h_none]
    exact wp_modify rfl
  obtain ⟨-, h_same⟩ := h.post h_turn
  exact h_same

theorem store_write (op : Database → Except Error Database) (m : SessionManager) (d : Database)
    (fates : List Fate) :
    (write op m d fates).store =
      if executes fates then
        match op d with
        | .ok d' => d'
        | .error _ => d
      else d := by
  unfold write SessionManager.transact
  rw [store_transact]
  cases op d <;> rfl

/-- **The turn of a game in the map** closes its session, unless the close is not carried out. -/
theorem stopped_known {o : OpenSession}
    (h : Live.Step (m, d) (.event (.stopped key at_) blocklist sample, fates) (m', d'))
    (h_o : m.open_.lookup key = some o) :
    d' = if executes fates then
        match SessionRepo.closeAndRollup d o.sessionId o.applicationId (snapshotOf o sample at_)
          .terminated with
        | .ok d' => d'
        | .error _ => d
      else d := by
  -- a known key: the handler takes the entry out and closes its row
  have h_handler : handleStopped key at_ sample m d fates =
      closeSession o at_ .terminated sample { m with open_ := m.open_.erase key } d fates := by
    simp only [handleStopped, bind, Program.bind, Program.get, h_o, Program.modify]
  refine h.store.trans ?_
  show (logged (handleStopped key at_ sample) _ m d fates).store = _
  rw [store_logged, h_handler]
  refine (store_bind (fun _ _ _ _ => rfl) _ d fates).trans ?_
  exact store_write _ _ d fates

end Stopped

/-! ### Runs -/

/-- The step closes no session whose application was merged away. -/
def Clocked.ChargesOwner (s : Clocked) : Option (Input × List Fate) → Prop
  | some (.event (.stopped key _) _ _, fates) =>
    ∀ o, s.live.1.open_.lookup key = some o → s.live.2.Gone o.applicationId →
      executes fates = false
  | _ => True

/-- **One step keeps the statistics exactly when it charges the owner.** -/
theorem Clocked.Step.balanced_iff {s t : Clocked} {l : Option (Input × List Fate)}
    (h : Clocked.Step s l t) (h_all : AllTracked s.clock s.live.1 s.live.2)
    (h_balanced : s.live.2.Balanced) : t.live.2.Balanced ↔ s.ChargesOwner l := by
  cases h with
  | interference h_other =>
    refine iff_of_true ?_ trivial
    cases h_other with
    | deleted ids h_step => exact h_balanced.step h_step trivial
    | merged srcId dstId h_step => exact h_balanced.step h_step trivial
  | @turn l live h_clock h_turn =>
    obtain ⟨input, fates⟩ := l
    obtain ⟨⟨m, d⟩, clock⟩ := s
    obtain ⟨m', d'⟩ := live
    have h_quiet : input.isStopped = false → d'.Balanced := by
      intro h_input
      have h_resumption := hasResumption_turn input
      rw [h_input] at h_resumption
      obtain ⟨-, h_kept⟩ := h_turn.post (h_resumption.wp
        (fun _ _ h_call h_inv => Database.Balanced.repoCall h_call h_inv) m h_balanced)
      exact h_kept
    match input with
    | .heartbeat at_ now idleGrace order => exact iff_of_true (h_quiet rfl) trivial
    | .event (.started key displayName executablePath at_) blocklist sample =>
      exact iff_of_true (h_quiet rfl) trivial
    | .event (.stopped key at_) blocklist sample =>
      show d'.Balanced ↔ ∀ o, m.open_.lookup key = some o → d.Gone o.applicationId →
        executes fates = false
      cases h_o : m.open_.lookup key with
      | none =>
        rw [stopped_unknown h_turn h_o]
        exact iff_of_true h_balanced fun o h_some => nomatch h_some
      | some o =>
        have h_tracked := h_all.tracked key o h_o
        have h_db := stopped_known h_turn h_o
        cases h_executes : executes fates with
        | false =>
          rw [h_executes, if_neg Bool.false_ne_true] at h_db
          rw [h_db]
          exact iff_of_true h_balanced fun _ _ _ => rfl
        | true =>
          rw [h_executes, if_pos rfl] at h_db
          cases h_close : SessionRepo.closeAndRollup d o.sessionId o.applicationId
              (snapshotOf o sample at_) .terminated with
          | ok d₁ =>
            rw [h_close] at h_db
            obtain rfl : d' = d₁ := h_db
            rw [balanced_close_iff h_balanced h_tracked h_close]
            refine ⟨fun h_there o' h_some h_gone => ?_, fun h_ok h_gone => ?_⟩
            · obtain rfl := Option.some.inj h_some
              exact absurd h_gone h_there
            · exact nomatch h_ok o rfl h_gone
          | error e =>
            rw [h_close] at h_db
            obtain rfl : d' = d := h_db
            refine iff_of_true h_balanced fun o' h_some h_gone => ?_
            -- such a close would have been accepted
            obtain rfl := Option.some.inj h_some
            obtain ⟨d₁, h_ok⟩ := close_of_gone h_all.reachable h_tracked h_gone sample at_ .terminated
            exact nomatch h_ok.symm.trans h_close

/-- **When the statistics come apart.** In a run of the manager from a reachable database whose
statistics are those of its closed sessions, with the deletes and merges of other processes in
between, they are in every state if and only if no turn closes a session whose application was merged
away while it was open. -/
theorem aggregates_agree_iff_charged {d : Database} (h_reach : d.Reachable)
    (h_balanced : d.Balanced) {clock : Instant} {tr : List (Option (Input × List Fate) × Clocked)}
    (hrun : IsRun Clocked.Step ⟨({}, d), clock⟩ tr) :
    (∀ s ∈ states ⟨({}, d), clock⟩ tr, s.live.2.Balanced) ↔
      ∀ x ∈ steps ⟨({}, d), clock⟩ tr, x.1.ChargesOwner x.2.1 :=
  hrun.states_iff (fun s => AllTracked s.clock s.live.1 s.live.2) (fun s => s.live.2.Balanced)
    Clocked.ChargesOwner (fun _ _ _ h_step h_all => h_step.allTracked h_all)
    (fun _ _ _ h_step h_all h_inv => h_step.balanced_iff h_all h_inv) (.start h_reach clock) h_balanced

theorem Interference.of_merge {d : Database} {srcId dstId : ℤ}
    (h : (ApplicationRepo.mergeInto d srcId dstId).isOk = true) :
    Interference d ((ApplicationRepo.mergeInto d srcId dstId).toOption.getD d) := by
  refine .merged srcId dstId (.done ?_)
  show ApplicationRepo.mergeInto d srcId dstId = _
  cases h_merge : ApplicationRepo.mergeInto d srcId dstId with
  | ok d' => rfl
  | error e =>
    rw [h_merge] at h
    exact nomatch h

/-- One game has been played, and another is running. -/
def oneRunning : List (Input × List Fate) :=
  [startedSteam "20" 100 [], stoppedSteam "20" 130 0 [], startedSteam "10" 200 []]

/-- The manager after these turns, and the turns as steps. -/
def playedTrace : List (Option (Input × List Fate) × Clocked) :=
  (Run.follow Live.after ({}, Database.empty) oneRunning).map fun x =>
    (some x.1, ⟨x.2, .ofSeconds 0⟩)

/-- The running one is merged into the other. -/
def mergedAway : Clocked :=
  let s := Run.final ⟨({}, Database.empty), .ofSeconds 0⟩ playedTrace
  ⟨(s.live.1, (ApplicationRepo.mergeInto s.live.2 2 1).toOption.getD s.live.2), s.clock⟩

/-- Then it is stopped. -/
def stoppedAfterMerge : List (Option (Input × List Fate) × Clocked) :=
  playedTrace ++ [(none, mergedAway),
    (some (stoppedSteam "10" 300 60 []), ⟨mergedAway.live.after (stoppedSteam "10" 300 60 []),
      .ofSeconds 60⟩)]

theorem aggregates_agree_iff_charged_stoppedAfterMerge :
    ((∀ s ∈ states ⟨({}, Database.empty), .ofSeconds 0⟩ stoppedAfterMerge, s.live.2.Balanced) ↔
      ∀ x ∈ steps ⟨({}, Database.empty), .ofSeconds 0⟩ stoppedAfterMerge,
        x.1.ChargesOwner x.2.1) ∧
      (Run.final ⟨({}, Database.empty), .ofSeconds 0⟩ stoppedAfterMerge).live.2.applications.map
        (fun a => (a.launcherId, a.statRunCount)) = [("20", 1)] := by
  have hrun : IsRun Clocked.Step ⟨({}, Database.empty), .ofSeconds 0⟩ stoppedAfterMerge := by
    refine .cons (.turn (by decide) (Live.step_after (by decide +kernel))) ?_
    refine .cons (.turn (by decide) (Live.step_after (by decide +kernel))) ?_
    refine .cons (.turn (by decide) (Live.step_after (by decide +kernel))) ?_
    refine .cons (.interference (.of_merge (by decide +kernel))) ?_
    exact .cons (.turn (by decide) (Live.step_after (by decide +kernel))) (.nil _)
  exact ⟨aggregates_agree_iff_charged .empty (fun a ha => absurd ha List.not_mem_nil) hrun,
    by decide +kernel⟩

end Ludex
