import Ludex.Lib.Fair
import Ludex.Daemon.Pipeline
import Ludex.Daemon.Transactions

/-!
# Graceful shutdown

After a termination signal the main task joins the sources, the idle watcher, the backup scheduler,
the notifier of the D-Bus signals and the manager, in this order. A source can be waiting for room in
the channel at that time, and the manager no longer makes any: the daemon does not hang, because the
manager ends without the sources, and drops its receiver when it does. The helpers do not wait for
each other: each is done with what it is busy with, notices the shutdown, and the backup scheduler
takes a final snapshot.

`shutdown_completes`: in every fair execution of the tasks a shutdown is followed by a state in which
every task has ended and the main task has returned. No session is left in the map then, and unless
the database failed there is no open row.

Fair means: the `select!` of a source, which chooses among what is ready, does not overlook the
shutdown for ever (`notice`, strongly fair, as the source is not always at its `select!`), and neither
does that of the manager (`quit`); a source that can go on with its sends does; a helper is done with
what it has taken up at some time, so that the calls it makes on the buses and the snapshots it takes
come to an end, and at its `select!` it looks at the shutdown; and so does the main task go on with
its joins.
-/

namespace Ludex

open Transact SessionManager Run Fair

/-! ### The close of everything -/

theorem Moves.matches {on : Occasion} {s t : Live} (h_moves : Moves on s t) (h_quiet : Quiet t.1)
    (h : Matches s.1 s.2) : Matches t.1 t.2 := by
  induction h_moves with
  | refl => exact h
  | tail _ h_move ih => exact h_move.matches h_quiet (ih (h_quiet.mono h_move.log))

/-- A run without a failure keeps the match of map and open rows. -/
theorem matches_run {s : Live} {tr : List ((SessionManager.Input × List Fate) × Live)}
    (hrun : IsRun Live.Step s tr) (h_quiet : Quiet (final s tr).1) (h : Matches s.1 s.2) :
    Matches (final s tr).1 (final s tr).2 := by
  induction hrun with
  | nil s => exact h
  | cons h_step h_rest ih =>
    refine ih h_quiet (h_step.moves.matches ?_ h)
    exact h_quiet.mono (log_subset_final h_rest)

/-- Without an entry in the map there is no open row. -/
theorem Matches.none_open {m : SessionManager} {d : Database} (h : Matches m d)
    (h_empty : m.open_ = ∅) : d.openSessions = [] := by
  refine openSessions_eq_nil (List.eq_nil_iff_forall_not_mem.mpr ?_)
  rintro ⟨sid, aid⟩ h_row
  obtain ⟨key, o, h_o, -⟩ := h.covered sid aid h_row
  rw [h_empty, AList.lookup_empty] at h_o
  exact nomatch h_o

/-- An order to visit the map in. -/
def visiting (m : SessionManager) : List (GameKey × Sample) := m.open_.keys.map fun key => (key, sampleAt 0)

theorem visiting_perm (m : SessionManager) :
    ((visiting m).map Prod.fst).Perm m.open_.keys := by
  unfold visiting
  rw [List.map_map]
  exact (List.Perm.of_eq (List.map_id _))

/-- The close of everything comes to its end. -/
theorem closeAllOpen_returns (m : SessionManager) (d : Database) (now : OffsetDateTime) :
    ∃ m' d' rest, closeAllOpen .terminated now (visiting m) m d [] = .returned () m' d' rest := by
  cases h_run : closeAllOpen .terminated now (visiting m) m d [] with
  | returned a m' d' rest => exact ⟨m', d', rest, rfl⟩
  | threw e m' d' rest =>
    obtain ⟨h_ok, -⟩ := wp_threw (closeAllOpen_moves m d .terminated now (visiting_perm m)) h_run
    exact nomatch h_ok
  | died d' =>
    exact absurd h_run ((hasResumption_closeAllOpen .terminated now (visiting m)).alive m d d')

namespace Pipeline

/-- The source whose step it is. -/
def Label.source? : Label → Option SourceId
  | wake i _ | send i | reject i | back i | notice i _ | fail i => some i
  | turn _ | done _ | leave _ | exit _ | receive _ _ _ | tick _ _ _ _ _ | quit _ _ _ | signal
  | join | rest => none

/-- The source goes on with its sends. -/
inductive Label.Works (i : SourceId) : Label → Prop
  | send : Works i (send i)
  | reject : Works i (reject i)
  | back : Works i (back i)

theorem Label.Works.source {i : SourceId} {l : Label} (h : l.Works i) : l.source? = some i := by
  cases h <;> rfl

/-- The helper goes on, with what it has taken up or on its way out. -/
inductive Label.Helps (j : HelperId) : Label → Prop
  | done : Helps j (done j)
  | leave : Helps j (leave j)

/-- The manager ends. -/
def Label.isQuit : Label → Bool
  | quit _ _ _ => true
  | _ => false

/-! ### What does not change any more -/

section Stable

variable {s t : Pipeline} {l : Label} {i : SourceId}

theorem Step.shutdown (h : s.Step l t) (h_shutdown : s.shutdown = true) : t.shutdown = true := by
  cases h.effect with
  | signal _ => rfl
  | _ => exact h_shutdown

theorem Step.not_managing (h : s.Step l t) (h_gone : s.managing = false) : t.managing = false := by
  cases h.effect with
  | quit _ _ _ _ => rfl
  | _ => exact h_gone

/-- The source of a step of another source. -/
theorem goOn_source_of_ne {i j : SourceId} (h : i ≠ j) (source : Source) :
    (s.goOn j source).source i = s.source i := Function.update_of_ne h ..

theorem goOn_source_self (s : Pipeline) (i : SourceId) (source : Source) :
    (s.goOn i source).source i = source := Function.update_self ..

/-- A step that is not one of the source leaves it alone. -/
theorem Step.source_of_ne (h : s.Step l t) (h_other : l.source? ≠ some i) :
    t.source i = s.source i := by
  cases h.effect with
  | @wake j _ _ _ => exact goOn_source_of_ne (fun h_i => h_other (congrArg some h_i.symm)) _
  | @send j _ _ _ _ _ _ => exact goOn_source_of_ne (fun h_i => h_other (congrArg some h_i.symm)) _
  | @reject j _ _ _ _ _ => exact goOn_source_of_ne (fun h_i => h_other (congrArg some h_i.symm)) _
  | @back j _ _ => exact goOn_source_of_ne (fun h_i => h_other (congrArg some h_i.symm)) _
  | @notice j _ _ _ _ => exact goOn_source_of_ne (fun h_i => h_other (congrArg some h_i.symm)) _
  | @fail j _ => exact goOn_source_of_ne (fun h_i => h_other (congrArg some h_i.symm)) _
  | _ => rfl

theorem Step.ended (h : s.Step l t) (h_ended : s.source i = .ended) : t.source i = .ended := by
  -- a step of its own would have to find it where it is not; another step leaves it alone
  by_cases h_own : l.source? = some i
  · cases h.effect with
    | @wake j _ h_j _ =>
      obtain rfl := Option.some.inj h_own
      exact nomatch h_j.symm.trans h_ended
    | @send j _ _ _ h_j _ _ =>
      obtain rfl := Option.some.inj h_own
      exact nomatch h_j.symm.trans h_ended
    | @reject j _ _ _ h_j _ =>
      obtain rfl := Option.some.inj h_own
      exact nomatch h_j.symm.trans h_ended
    | @back j _ h_j =>
      obtain rfl := Option.some.inj h_own
      exact nomatch h_j.symm.trans h_ended
    | @notice j _ h_j _ _ =>
      obtain rfl := Option.some.inj h_own
      exact nomatch h_j.symm.trans h_ended
    | @fail j h_j =>
      obtain rfl := Option.some.inj h_own
      exact nomatch h_j.symm.trans h_ended
    | _ => exact nomatch h_own
  · exact (h.source_of_ne h_own).trans h_ended

/-- A source that sends, when there is no receiver: it goes on with fewer events, or is done. -/
theorem Step.sending (h : s.Step l t) (h_gone : s.managing = false) {events : List GameEvent}
    {last : Bool} (h_i : s.source i = .sending events last) :
    ¬ l.Works i ∧ t.source i = s.source i ∨
      t.source i = (if last then .ended else .ready) ∨
      ∃ rest, rest.length < events.length ∧ t.source i = .sending rest last := by
  by_cases h_own : l.source? = some i
  · cases h.effect with
    | @wake j _ h_j _ =>
      obtain rfl := Option.some.inj h_own
      exact nomatch h_j.symm.trans h_i
    -- without a receiver no send succeeds
    | send _ h_managing _ => exact nomatch h_gone.symm.trans h_managing
    -- a failed send costs a source the event, and the foreground source the rest of its round
    | @reject j event rest last' h_j _ =>
      obtain rfl := Option.some.inj h_own
      obtain ⟨rfl, rfl⟩ := Source.sending.inj (h_j.symm.trans h_i)
      refine Or.inr (Or.inr ⟨afterFailure j rest, ?_, goOn_source_self s j _⟩)
      cases j with
      | steam => exact Nat.succ_pos _
      | kwin => exact Nat.lt_succ_self _
    -- with nothing left to send it is done with this round
    | @back j last' h_j =>
      obtain rfl := Option.some.inj h_own
      obtain ⟨rfl, rfl⟩ := Source.sending.inj (h_j.symm.trans h_i)
      exact Or.inr (Or.inl (goOn_source_self s j _))
    | @notice j _ h_j _ _ =>
      obtain rfl := Option.some.inj h_own
      exact nomatch h_j.symm.trans h_i
    | @fail j h_j =>
      obtain rfl := Option.some.inj h_own
      exact nomatch h_j.symm.trans h_i
    | _ => exact nomatch h_own
  · exact Or.inl ⟨fun h_works => h_own h_works.source, h.source_of_ne h_own⟩

/-- A source at its `select!`: it stays there, wakes up, or is on its way out. -/
theorem Step.ready (h : s.Step l t) (h_i : s.source i = .ready) :
    t.source i = .ready ∧ (∀ events, l ≠ .notice i events) ∨
      (∃ events, t.source i = .sending events false) ∧ (∀ events, l ≠ .notice i events) ∨
      t.source i = .ended ∨ ∃ events, t.source i = .sending events true := by
  by_cases h_own : l.source? = some i
  · cases h.effect with
    -- it has woken up, and does not know of the shutdown yet
    | @wake j events _ _ =>
      obtain rfl := Option.some.inj h_own
      exact Or.inr (Or.inl ⟨⟨events, goOn_source_self s j _⟩, fun _ h_eq => nomatch h_eq⟩)
    | @send j _ _ _ h_j _ _ =>
      obtain rfl := Option.some.inj h_own
      exact nomatch h_j.symm.trans h_i
    | @reject j _ _ _ h_j _ =>
      obtain rfl := Option.some.inj h_own
      exact nomatch h_j.symm.trans h_i
    | @back j _ h_j =>
      obtain rfl := Option.some.inj h_own
      exact nomatch h_j.symm.trans h_i
    -- it has noticed the shutdown, and says goodbye to what it tracks
    | @notice j events _ _ _ =>
      obtain rfl := Option.some.inj h_own
      exact Or.inr (Or.inr (Or.inr ⟨events, goOn_source_self s j _⟩))
    | @fail j _ =>
      obtain rfl := Option.some.inj h_own
      exact Or.inr (Or.inr (Or.inl (goOn_source_self s j _)))
    | _ => exact nomatch h_own
  · -- another task has taken the step
    refine Or.inl ⟨(h.source_of_ne h_own).trans h_i, ?_⟩
    rintro events rfl
    exact h_own rfl

theorem assign_helper_self (s : Pipeline) (j : HelperId) (helper : Helper) :
    (s.assign j helper).helper j = helper := Function.update_self ..

/-- The helper of a step of another helper. -/
theorem assign_helper_of_ne {j k : HelperId} (h : j ≠ k) (helper : Helper) :
    (s.assign k helper).helper j = s.helper j := Function.update_of_ne h ..

theorem Step.helper_ended {j : HelperId} (h : s.Step l t) (h_ended : s.helper j = .ended) :
    t.helper j = .ended := by
  -- only the helper itself changes how far it is, and one that has ended takes no step
  have h_other : ∀ k helper, s.helper k ≠ .ended → (s.assign k helper).helper j = .ended := by
    intro k helper h_k
    have h_ne : j ≠ k := by
      rintro rfl
      exact h_k h_ended
    rw [assign_helper_of_ne h_ne, h_ended]
  cases h.effect with
  | @turn k h_k _ => exact h_other k _ (by rw [h_k]; exact Helper.noConfusion)
  | @done k _ h_k => exact h_other k _ (by rw [h_k]; exact Helper.noConfusion)
  | @leave k h_k _ => exact h_other k _ (by rw [h_k]; exact Helper.noConfusion)
  | @exit k h_k => exact h_other k _ h_k
  | _ => exact h_ended

/-- How many steps a helper is from its end, once the shutdown has been sent. -/
def stepsLeft : Helper → ℕ
  | .working false => 3
  | .waiting => 2
  | .working true => 1
  | .ended => 0

theorem stepsLeft_farewell (s : Pipeline) (j : HelperId) : stepsLeft (s.farewell j) < 2 := by
  cases j with
  | idle => exact Nat.zero_lt_succ 1
  | notifier => exact Nat.zero_lt_succ 1
  | backup =>
    show stepsLeft (if s.backupDir then .working true else .ended) < 2
    split
    · exact Nat.one_lt_two
    · exact Nat.zero_lt_succ 1

/-- After the shutdown a helper takes nothing up, so that each of its steps brings it nearer to its
end. -/
theorem Step.helper (h : s.Step l t) (h_shutdown : s.shutdown = true) (j : HelperId) :
    stepsLeft (t.helper j) ≤ stepsLeft (s.helper j) ∧
      (l.Helps j → stepsLeft (t.helper j) < stepsLeft (s.helper j)) := by
  -- a step of the helper itself, and one of another helper
  have h_own : ∀ helper, stepsLeft helper < stepsLeft (s.helper j) →
      stepsLeft ((s.assign j helper).helper j) ≤ stepsLeft (s.helper j) ∧
        (l.Helps j → stepsLeft ((s.assign j helper).helper j) < stepsLeft (s.helper j)) := by
    intro helper h_less
    rw [assign_helper_self]
    exact ⟨Nat.le_of_lt h_less, fun _ => h_less⟩
  have h_other : ∀ k helper, j ≠ k → ¬ l.Helps j →
      stepsLeft ((s.assign k helper).helper j) ≤ stepsLeft (s.helper j) ∧
        (l.Helps j → stepsLeft ((s.assign k helper).helper j) < stepsLeft (s.helper j)) := by
    intro k helper h_ne h_not
    rw [assign_helper_of_ne h_ne]
    exact ⟨Nat.le_refl _, fun h_helps => absurd h_helps h_not⟩
  cases h.effect with
  | turn _ h_running => exact nomatch h_shutdown.symm.trans h_running
  | @done k last h_k =>
    by_cases h_j : j = k
    · subst h_j
      refine h_own _ ?_
      rw [h_k]
      cases last with
      | true => exact Nat.zero_lt_succ 0
      | false => exact Nat.lt_succ_self 2
    · refine h_other k _ h_j fun h_helps => ?_
      cases h_helps
      exact h_j rfl
  | @leave k h_k _ =>
    by_cases h_j : j = k
    · subst h_j
      refine h_own _ ?_
      rw [h_k]
      exact stepsLeft_farewell s j
    · refine h_other k _ h_j fun h_helps => ?_
      cases h_helps
      exact h_j rfl
  | @exit k h_k =>
    by_cases h_j : j = k
    · subst h_j
      refine h_own _ ?_
      cases h_helper : s.helper j with
      | ended => exact absurd h_helper h_k
      | waiting => exact Nat.zero_lt_succ 1
      | working last => cases last <;> exact Nat.zero_lt_succ _
    · refine h_other k _ h_j fun h_helps => ?_
      cases h_helps
  | _ => exact ⟨Nat.le_refl _, fun h_helps => nomatch h_helps⟩

/-- A task that has ended does not come back. -/
theorem Step.hasEnded (h : s.Step l t) (task : Task) (h_ended : s.hasEnded task = true) :
    t.hasEnded task = true := by
  cases task with
  | source i => exact decide_eq_true (h.ended (of_decide_eq_true h_ended))
  | helper j => exact decide_eq_true (h.helper_ended (of_decide_eq_true h_ended))
  | manager =>
    rw [Pipeline.hasEnded, Bool.not_eq_true'] at h_ended ⊢
    exact h.not_managing h_ended

/-- The main task joins one task after the other. -/
theorem Step.main (h : s.Step l t) (h_main : s.main ≠ .running) :
    t.main = s.main ∧ l ≠ .join ∨
      ∃ tasks, s.main = .joining tasks ∧
        (t.main = .returned ∨ ∃ rest, rest.length < tasks.length ∧ t.main = .joining rest) := by
  cases h.effect with
  | signal h_running => exact absurd h_running h_main
  | @joined task tasks h_joining _ =>
    exact Or.inr ⟨task :: tasks, h_joining, Or.inr ⟨tasks, Nat.lt_succ_self _, rfl⟩⟩
  | returned h_joining => exact Or.inr ⟨[], h_joining, Or.inl rfl⟩
  | _ => exact Or.inl ⟨rfl, fun h_eq => nomatch h_eq⟩

/-- The shutdown is sent by the main task, when it starts to join. -/
theorem Step.signalled (h : s.Step l t) (h_inv : s.shutdown = true → s.main ≠ .running) :
    t.shutdown = true → t.main ≠ .running := by
  intro h_shutdown
  cases h.effect with
  | signal _ => exact fun h_eq => nomatch h_eq
  | joined _ _ => exact fun h_eq => nomatch h_eq
  | returned _ => exact fun h_eq => nomatch h_eq
  | _ => exact h_inv h_shutdown

end Stable

/-! ### One phase after the other -/

/-- None of the tasks is overlooked. -/
structure FairTasks (e : Execution Step) : Prop where
  works : ∀ i, e.WeaklyFair (Label.Works i)
  helps : ∀ j, e.WeaklyFair (Label.Helps j)
  notices : ∀ i, e.StronglyFair fun l => ∃ events, l = .notice i events
  quits : e.WeaklyFair fun l => l.isQuit = true
  joins : e.WeaklyFair fun l => l = .join

/-- The shutdown has been sent, and the manager has ended. -/
def Deserted (s : Pipeline) : Prop := s.shutdown = true ∧ s.managing = false

theorem Deserted.step {s t : Pipeline} {l : Label} (h : s.Deserted) (h_step : s.Step l t) :
    t.Deserted := ⟨h_step.shutdown h.1, h_step.not_managing h.2⟩

section Phases

variable {e : Execution Step} {i : SourceId}

/-- **The manager ends.** -/
theorem manager_ends (h_fair : FairTasks e) : e.LeadsTo (fun s => s.shutdown = true) Deserted := by
  refine leadsTo_of_fair h_fair.quits ?_ (fun _ _ _ h_step h _ => Or.inl (h_step.shutdown h)) ?_
  · -- it can end whatever state it is in, since the close of everything always comes to its end
    intro s h_shutdown h_not
    have h_managing : s.managing = true := by
      by_contra h_gone
      exact h_not ⟨h_shutdown, Bool.eq_false_iff.mpr h_gone⟩
    obtain ⟨m, d, rest, h_run⟩ := closeAllOpen_returns s.live.1 s.live.2 (.firstDay 0)
    refine ⟨.quit (.firstDay 0) (visiting s.live.1) [],
      { s with live := (m, d), managing := false, buffer := [] }, rfl, ?_⟩
    show next s (.quit _ _ _) = _
    simp only [next, h_managing, h_shutdown, decide_eq_true (visiting_perm s.live.1), Bool.true_or,
      Bool.and_self, if_true, h_run]
  · -- its last step is all that is asked for
    intro s l t h_step h_shutdown _ h_quit
    cases h_step.effect with
    | quit _ _ _ _ => exact ⟨h_shutdown, rfl⟩
    | _ => exact absurd h_quit Bool.false_ne_true

/-- **A source gets to the end of its sends**: they fail when there is no receiver. -/
theorem sends_end (h_fair : FairTasks e) (i : SourceId) (last : Bool) :
    e.LeadsTo (fun s => s.Deserted ∧ ∃ events, s.source i = .sending events last)
      fun s => s.Deserted ∧ s.source i = if last then .ended else .ready := by
  -- by induction on the events that are left
  refine leadsTo_of_fair_rank (h_fair.works i) (fun s => (s.source i).pending.length) ?_ ?_
  · -- there is always a send to fail, or the round is over
    rintro s ⟨h, events, h_i⟩ -
    cases events with
    | nil =>
      refine ⟨.back i, s.goOn i (if last then .ended else .ready), .back, ?_⟩
      show next s (.back i) = _
      simp only [next, h_i]
    | cons event events =>
      refine ⟨.reject i, s.goOn i (.sending (afterFailure i events) last), .reject, ?_⟩
      show next s (.reject i) = _
      simp only [next, h_i, h.2, Bool.false_eq_true, if_false]
  · -- each step of its own leaves fewer of them, and no other step gives it more
    rintro s l t h_step ⟨h, events, h_i⟩ -
    rcases h_step.sending h.2 h_i with ⟨h_idle, h_same⟩ | h_done | ⟨rest, h_less, h_rest⟩
    · refine Or.inr ⟨⟨h.step h_step, events, h_same.trans h_i⟩, ?_, fun h_works => ?_⟩
      · rw [h_same]
      · exact absurd h_works h_idle
    · exact Or.inl ⟨h.step h_step, h_done⟩
    · rw [h_rest, h_i]
      exact Or.inr ⟨⟨h.step h_step, rest, rfl⟩, Nat.le_of_lt h_less, fun _ => h_less⟩

/-- The source has not noticed the shutdown. -/
def Unaware (i : SourceId) (s : Pipeline) : Prop :=
  s.Deserted ∧ (s.source i = .ready ∨ ∃ events, s.source i = .sending events false)

/-- The source is on its way out. -/
def Leaving (i : SourceId) (s : Pipeline) : Prop :=
  s.Deserted ∧ (s.source i = .ended ∨ ∃ events, s.source i = .sending events true)

/-- **A source notices the shutdown.** -/
theorem source_leaves (h_fair : FairTasks e) (i : SourceId) :
    e.LeadsTo (Unaware i) (Leaving i) := by
  have h_ready : ∀ s : Pipeline, s.Deserted → s.source i = .ready →
      Enabled Step (fun l => ∃ events, l = .notice i events) s := by
    intro s h h_i
    refine ⟨.notice i [], s.find i [] true, ⟨[], rfl⟩, ?_⟩
    show next s (.notice i []) = _
    have h_last : lastEvents i [] = true := by
      cases i <;> rfl
    simp only [next, h_i, h.1, h_last, Bool.and_self, if_true]
  refine leadsTo_of_stronglyFair (h_fair.notices i) ?_ ?_ ?_
  · -- it comes back to its `select!`
    rintro n ⟨h, h_i | h_sending⟩
    · exact ⟨n, Nat.le_refl n, Or.inr (h_ready _ h h_i)⟩
    · obtain ⟨m, h_le, h_m, h_back⟩ := sends_end h_fair i false n ⟨h, h_sending⟩
      exact ⟨m, h_le, Or.inr (h_ready _ h_m h_back)⟩
  · rintro s l t h_step ⟨h, h_i | ⟨events, h_i⟩⟩ -
    · have h_t := h.step h_step
      rcases h_step.ready h_i with ⟨h_stays, -⟩ | ⟨h_wakes, -⟩ | h_leaves
      · exact Or.inl ⟨h_t, Or.inl h_stays⟩
      · exact Or.inl ⟨h_t, Or.inr h_wakes⟩
      · exact Or.inr ⟨h_t, h_leaves⟩
    · have h_t := h.step h_step
      rcases h_step.sending h.2 h_i with ⟨-, h_same⟩ | h_done | ⟨rest, -, h_rest⟩
      · exact Or.inl ⟨h_t, Or.inr ⟨events, h_same.trans h_i⟩⟩
      · exact Or.inl ⟨h_t, Or.inl h_done⟩
      · exact Or.inl ⟨h_t, Or.inr ⟨rest, h_rest⟩⟩
  · rintro s l t h_step ⟨h, h_i⟩ - ⟨events, rfl⟩
    cases h_step.effect with
    | notice _ _ _ => exact ⟨h.step h_step, Or.inr ⟨events, goOn_source_self s i _⟩⟩

/-- **A source ends.** -/
theorem source_ends (h_fair : FairTasks e) (i : SourceId) :
    e.LeadsTo Deserted fun s => s.source i = .ended := by
  -- once it knows of the shutdown it only has its last sends left
  have h_leaving : e.LeadsTo (Leaving i) fun s => s.source i = .ended := by
    rintro n ⟨h, h_ended | h_sending⟩
    · exact ⟨n, Nat.le_refl n, h_ended⟩
    · obtain ⟨m, h_le, -, h_ended⟩ := sends_end h_fair i true n ⟨h, h_sending⟩
      exact ⟨m, h_le, h_ended⟩
  have h_unaware := (source_leaves h_fair i).trans h_leaving
  intro n h
  -- it may be at its select, in the midst of a round, or gone already
  cases h_i : (e.state n).source i with
  | ready => exact h_unaware n ⟨h, Or.inl h_i⟩
  | ended => exact ⟨n, Nat.le_refl n, h_i⟩
  | sending events last =>
    cases last with
    | false => exact h_unaware n ⟨h, Or.inr ⟨events, h_i⟩⟩
    | true => exact h_leaving n ⟨h, Or.inr ⟨events, h_i⟩⟩

/-- **A helper ends.** -/
theorem helper_ends (h_fair : FairTasks e) (j : HelperId) :
    e.LeadsTo (fun s => s.shutdown = true) fun s => s.helper j = .ended := by
  refine leadsTo_of_fair_rank (h_fair.helps j) (fun s => stepsLeft (s.helper j)) ?_ ?_
  · -- a helper that has not ended can take a step, since the shutdown has been sent
    intro s h_shutdown h_not
    cases h_j : s.helper j with
    | ended => exact absurd h_j h_not
    | waiting =>
      refine ⟨.leave j, s.assign j (s.farewell j), .leave, ?_⟩
      show next s (.leave j) = _
      simp only [next, h_j, h_shutdown, if_true]
    | working last =>
      refine ⟨.done j, s.assign j (if last then .ended else .waiting), .done, ?_⟩
      show next s (.done j) = _
      simp only [next, h_j]
  · -- and each of its steps brings it nearer to its end
    intro s l t h_step h_shutdown _
    obtain ⟨h_le, h_less⟩ := h_step.helper h_shutdown j
    exact Or.inr ⟨h_step.shutdown h_shutdown, h_le, h_less⟩

/-- The shutdown has been sent, and all tasks the main task joins have ended. -/
def AllEnded (s : Pipeline) : Prop := s.Deserted ∧ ∀ task, s.hasEnded task = true

theorem AllEnded.step {s t : Pipeline} {l : Label} (h : s.AllEnded) (h_step : s.Step l t) :
    t.AllEnded := ⟨h.1.step h_step, fun task => h_step.hasEnded task (h.2 task)⟩

theorem mem_joined (task : Task) : task ∈ joined := by
  cases task with
  | source i => cases i <;> decide
  | helper j => cases j <;> decide
  | manager => decide

/-- **Every task ends**, after the manager has. -/
theorem task_ends (h_fair : FairTasks e) (task : Task) :
    e.LeadsTo Deserted fun s => s.hasEnded task = true := by
  intro n h
  -- each kind of task has been seen to end by itself
  cases task with
  | manager =>
    refine ⟨n, Nat.le_refl n, ?_⟩
    show (!(e.state n).managing) = true
    rw [h.2]
    rfl
  | source i =>
    obtain ⟨m, h_le, h_ended⟩ := source_ends h_fair i n h
    exact ⟨m, h_le, decide_eq_true h_ended⟩
  | helper j =>
    obtain ⟨m, h_le, h_ended⟩ := helper_ends h_fair j n h.1
    exact ⟨m, h_le, decide_eq_true h_ended⟩

theorem all_end (h_fair : FairTasks e) : e.LeadsTo Deserted AllEnded := by
  have h_tasks : e.LeadsTo Deserted fun s => ∀ task ∈ joined, s.hasEnded task = true :=
    .forall_mem joined (task_ends h_fair) fun task _ _ _ h_step h => h_step.hasEnded task h
  intro n h
  obtain ⟨m, h_le, h_m⟩ := h_tasks n h
  refine ⟨m, h_le, e.stays (fun _ _ _ h_step h => h.step h_step) h_le h, fun task => ?_⟩
  exact h_m task (mem_joined task)

/-- How many joins are left, and the return. -/
def joinsLeft : Main → ℕ
  | .joining tasks => tasks.length + 1
  | _ => 0

/-- **The main task returns.** -/
theorem main_returns (h_fair : FairTasks e) :
    e.LeadsTo (fun s => s.AllEnded ∧ s.main ≠ .running) fun s => s.AllEnded ∧ s.main = .returned := by
  refine leadsTo_of_fair_rank h_fair.joins (fun s => joinsLeft s.main) ?_ ?_
  · -- the next task to join has ended, so the join does not wait
    rintro s ⟨h, h_main⟩ h_not
    cases h_joining : s.main with
    | running => exact absurd h_joining h_main
    | returned => exact absurd ⟨h, h_joining⟩ h_not
    | joining tasks =>
      cases tasks with
      | nil =>
        refine ⟨.join, { s with main := .returned }, rfl, ?_⟩
        show next s .join = _
        simp only [next, h_joining]
      | cons task tasks =>
        refine ⟨.join, { s with main := .joining tasks }, rfl, ?_⟩
        show next s .join = _
        simp only [next, h_joining, h.2 task, if_true]
  · -- a join takes a task off the list, and nothing else touches it
    rintro s l t h_step ⟨h, h_main⟩ -
    rcases h_step.main h_main with ⟨h_same, h_other⟩ | ⟨tasks, h_joining, h_t | ⟨rest, h_less, h_t⟩⟩
    · rw [h_same]
      exact Or.inr ⟨⟨h.step h_step, h_main⟩, Nat.le_refl _, fun h_join => absurd h_join h_other⟩
    · exact Or.inl ⟨h.step h_step, h_t⟩
    · rw [h_t, h_joining]
      have h_fewer := Nat.succ_lt_succ h_less
      exact Or.inr ⟨⟨h.step h_step, Main.noConfusion⟩, Nat.le_of_lt h_fewer, fun _ => h_fewer⟩

end Phases

/-! ### The shutdown as a whole -/

/-- When the manager has ended it holds no session, and there is no open row unless the database has
failed. -/
theorem Managed.closed {start : Live} {s : Pipeline} (h : s.Managed start)
    (h_matches : Matches start.1 start.2) (h_gone : s.managing = false) :
    s.live.1.open_ = ∅ ∧ (Quiet s.live.1 → s.live.2.openSessions = []) := by
  obtain ⟨tr, h_tr, -, h_state⟩ := h.run
  rw [h_gone, if_neg Bool.false_ne_true] at h_state
  obtain ⟨now, order, fates, rest, h_order, h_close⟩ := h_state
  obtain ⟨-, h_empty, h_moves⟩ :=
    wp_returned (closeAllOpen_moves _ _ .terminated now h_order) h_close
  refine ⟨h_empty, fun h_quiet => ?_⟩
  have h_before := matches_run h_tr (h_quiet.mono h_moves.log) h_matches
  exact (h_moves.matches h_quiet h_before).none_open h_empty

/-- **A shutdown completes.** In every fair execution of the tasks, whatever the sources find and
however full the channel is, the termination signal leads to a state in which the main task has
returned and every task it joined has ended: the sources, the idle watcher, the backup scheduler, the
notifier and the manager. The manager holds no session then, and there is no open row unless the
database has failed. -/
theorem shutdown_completes {e : Execution Step} (h_spawned : (e.state 0).Spawned)
    (h_matches : Matches (e.state 0).live.1 (e.state 0).live.2) (h_fair : FairTasks e) :
    e.LeadsTo (fun s => s.shutdown = true) fun s =>
      s.AllEnded ∧ s.main = .returned ∧ s.live.1.open_ = ∅ ∧
        (Quiet s.live.1 → s.live.2.openSessions = []) := by
  -- the manager is in a state of a run of its own, and the main task is past its wait
  have h_managed : ∀ n, (e.state n).Managed (e.state 0).live :=
    e.invariant _ (fun _ _ _ h_step h => h.step h_step) h_spawned.managed
  have h_signalled : ∀ n, (e.state n).shutdown = true → (e.state n).main ≠ .running := by
    refine e.invariant (fun s => s.shutdown = true → s.main ≠ .running)
      (fun _ _ _ h_step h => h_step.signalled h) fun h_shutdown => ?_
    rw [h_spawned.shutdown] at h_shutdown
    exact nomatch h_shutdown
  -- the manager ends, then the others do, and then the main task joins them all
  intro n h_shutdown
  obtain ⟨m, h_nm, h_ended⟩ := ((manager_ends h_fair).trans (all_end h_fair)) n h_shutdown
  obtain ⟨k, h_mk, h_k, h_returned⟩ :=
    main_returns h_fair m ⟨h_ended, h_signalled m h_ended.1.1⟩
  obtain ⟨h_empty, h_none⟩ := (h_managed k).closed h_matches h_k.1.2
  exact ⟨k, Nat.le_trans h_nm h_mk, h_k, h_returned, h_empty, h_none⟩

/-- When everything has ended, no task has anything left to do. -/
theorem AllEnded.idle {s t : Pipeline} {l : Label} (h : s.AllEnded) (h_main : s.main = .returned)
    (h_step : s.Step l t) :
    (∀ i, ¬ l.Works i) ∧ (∀ j, ¬ l.Helps j) ∧ (∀ i events, l ≠ .notice i events) ∧
      l.isQuit = false ∧ l ≠ .join := by
  -- no task can go on that has ended, and the main task has nothing left to join
  have h_source : ∀ i, s.source i = .ended := fun i => of_decide_eq_true (h.2 (.source i))
  have h_helper : ∀ j, s.helper j = .ended := fun j => of_decide_eq_true (h.2 (.helper j))
  cases h_step.effect with
  | @wake i _ h_i _ => exact nomatch h_i.symm.trans (h_source i)
  | @send i _ _ _ h_i _ _ => exact nomatch h_i.symm.trans (h_source i)
  | @reject i _ _ _ h_i _ => exact nomatch h_i.symm.trans (h_source i)
  | @back i _ h_i => exact nomatch h_i.symm.trans (h_source i)
  | @notice i _ h_i _ _ => exact nomatch h_i.symm.trans (h_source i)
  | @fail i h_i => exact nomatch h_i.symm.trans (h_source i)
  | @turn j h_j _ => exact nomatch h_j.symm.trans (h_helper j)
  | @done j _ h_j => exact nomatch h_j.symm.trans (h_helper j)
  | @leave j h_j _ => exact nomatch h_j.symm.trans (h_helper j)
  | @exit j h_j => exact absurd (h_helper j) h_j
  | receive _ h_managing _ => exact nomatch h.1.2.symm.trans h_managing
  | tick h_managing _ => exact nomatch h.1.2.symm.trans h_managing
  | quit h_managing _ _ _ => exact nomatch h.1.2.symm.trans h_managing
  | signal h_running => exact nomatch h_main.symm.trans h_running
  | joined h_joining _ => exact nomatch h_main.symm.trans h_joining
  | returned h_joining => exact nomatch h_main.symm.trans h_joining
  | rest =>
    refine ⟨fun i h_works => ?_, fun j h_helps => ?_, fun i events => Label.noConfusion, rfl,
      Label.noConfusion⟩
    · cases h_works
    · cases h_helps

/-- A game is running when the daemon is told to stop, another one has just been found, the idle
watcher waits for an answer, and the backup scheduler is taking a snapshot. -/
def stoppedWhilePlaying : List Label :=
  [.wake .steam [.started (.steam "10") "Portal" none (.firstDay 100)], .send .steam, .back .steam,
    .receive [] (sampleAt 0) [], .wake .steam [.started (.steam "20") "Half-Life" none (.firstDay 109)],
    .turn .idle, .turn .backup, .signal, .notice .kwin [], .leave .notifier,
    .quit (.firstDay 110) [(.steam "10", sampleAt 9)] [], .reject .steam, .back .steam, .back .kwin,
    .done .backup, .leave .backup, .notice .steam [], .back .steam, .join, .join, .done .idle,
    .leave .idle, .join, .done .backup, .join, .join, .join, .join]

/-- The execution that goes this way and comes to rest. -/
def stopping : Execution Step :=
  idling next .rest (fun _ => rfl) stoppedWhilePlaying spawned (by decide +kernel)

theorem shutdown_completes_stopping :
    (stopping.state 8).shutdown = true ∧ GameKey.steam "10" ∈ (stopping.state 8).live.1.open_ ∧
      stopping.LeadsTo (fun s => s.shutdown = true) fun s =>
        s.AllEnded ∧ s.main = .returned ∧ s.live.1.open_ = ∅ ∧
          (Quiet s.live.1 → s.live.2.openSessions = []) := by
  have h_idle : ∀ l t, Step (path next .rest stoppedWhilePlaying spawned stoppedWhilePlaying.length)
      l t → (∀ i, ¬ l.Works i) ∧ (∀ j, ¬ l.Helps j) ∧ (∀ i events, l ≠ .notice i events) ∧
        l.isQuit = false ∧ l ≠ .join := by
    intro l t h_step
    refine AllEnded.idle ⟨⟨?_, ?_⟩, fun task => ?_⟩ ?_ h_step
    · decide +kernel
    · decide +kernel
    · rcases task with (_ | _) | (_ | _ | _) | _ <;> decide +kernel
    · decide +kernel
  have h_fair : FairTasks stopping := by
    refine ⟨fun i => idling_weaklyFair ?_, fun j => idling_weaklyFair ?_,
      fun i => idling_stronglyFair ?_, idling_weaklyFair ?_, idling_weaklyFair ?_⟩
    · rintro ⟨l, t, h_l, h_step⟩
      exact (h_idle l t h_step).1 i h_l
    · rintro ⟨l, t, h_l, h_step⟩
      exact (h_idle l t h_step).2.1 j h_l
    · rintro ⟨l, t, ⟨events, h_l⟩, h_step⟩
      exact (h_idle l t h_step).2.2.1 i events h_l
    · rintro ⟨l, t, h_l, h_step⟩
      exact absurd h_l (Bool.eq_false_iff.mp (h_idle l t h_step).2.2.2.1)
    · rintro ⟨l, t, h_l, h_step⟩
      exact (h_idle l t h_step).2.2.2.2 h_l
  have h_matches : Matches ({} : SessionManager) Database.empty := by
    refine ⟨fun key o h_o => ?_, fun sid aid h_row => absurd h_row List.not_mem_nil⟩
    rw [AList.lookup_empty] at h_o
    exact nomatch h_o
  exact ⟨by decide +kernel, by decide +kernel,
    shutdown_completes spawned_spawned h_matches h_fair⟩

end Pipeline

end Ludex
