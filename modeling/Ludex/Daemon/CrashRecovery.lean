import Ludex.Daemon.SessionSimulation

/-!
# Crashes and restarts

The daemon as a system that can die: a database, and a process that is running or not. It boots with
a recovery of the orphans, takes turns, and shuts down; it can die between any two transactions of
any of these, the recovery included. The single-instance lock keeps a second process away.

`crash_recovery_exactly_once` takes any run to a state without a process, and any number of boots
from there of which only the last completes. The recovery as a whole is exactly-once with respect to
the database the dead process left. What the boots that failed have done is in the invariant
`PartlyRecovered`.
-/

namespace Ludex

open Transact SessionManager Run

/-- The database, and the process while it is running. -/
structure System where
  db : Database
  process : Option SessionManager := none

namespace System

/-- What can happen to the daemon. -/
inductive Label where
  | boot (fates : List Fate)
  | turn (input : Input) (fates : List Fate)
  | shutdown (now : OffsetDateTime) (order : List (GameKey × Sample)) (fates : List Fate)
  /-- The process dies while it waits. -/
  | crash

/-- What a turn leaves: a process that goes on, or none. -/
def afterTurn : Outcome Database SessionManager Error Unit → System
  | .returned _ m d _ => ⟨d, some m⟩
  | .threw _ m d _ => ⟨d, some m⟩
  | .died d => ⟨d, none⟩

/-- What a boot leaves. The daemon exits when its recovery fails. -/
def afterBoot : Outcome Database SessionManager Error ℕ → System
  | .returned _ m d _ => ⟨d, some m⟩
  | .threw _ _ d _ => ⟨d, none⟩
  | .died d => ⟨d, none⟩

/-- What a shutdown leaves. -/
def afterShutdown : Outcome Database SessionManager Error Unit → System
  | .returned _ _ d _ => ⟨d, none⟩
  | .threw _ _ d _ => ⟨d, none⟩
  | .died d => ⟨d, none⟩

/-- One step of the daemon. -/
def next (s : System) : Label → Option System
  | .boot fates =>
    match s.process with
    | some _ => none
    | none => some (afterBoot (recoverOrphans {} s.db fates))
  | .turn input fates =>
    match s.process with
    | some m => if input.Visits m then some (afterTurn (SessionManager.turn input m s.db fates)) else none
    | none => none
  | .shutdown now order fates =>
    match s.process with
    | some m =>
      if (order.map Prod.fst).Perm m.open_.keys then
        some (afterShutdown (closeAllOpen .terminated now order m s.db fates))
      else none
    | none => none
  | .crash => some { s with process := none }

/-- A step of the daemon. -/
def Step (s : System) (l : Label) (t : System) : Prop := s.next l = some t

/-- What a step of the daemon does: it needs a process, or there must be none, and it leaves what its
program does. -/
inductive Does (s : System) : Label → System → Prop
  | boot {fates : List Fate} : s.process = none →
      Does s (.boot fates) (afterBoot (recoverOrphans {} s.db fates))
  | turn {m : SessionManager} {input : Input} {fates : List Fate} : s.process = some m →
      input.Visits m →
      Does s (.turn input fates) (afterTurn (SessionManager.turn input m s.db fates))
  | shutdown {m : SessionManager} {now : OffsetDateTime} {order : List (GameKey × Sample)}
      {fates : List Fate} : s.process = some m → (order.map Prod.fst).Perm m.open_.keys →
      Does s (.shutdown now order fates)
        (afterShutdown (closeAllOpen .terminated now order m s.db fates))
  | crash : Does s .crash { s with process := none }

/-- **A step of the daemon** does what its label says. -/
theorem Step.does {s t : System} {l : Label} (h : s.Step l t) : s.Does l t := by
  -- a step that is not possible is no step, so each case has its guard
  unfold System.Step System.next at h
  cases l with
  | boot fates =>
    cases h_process : s.process with
    | some m =>
      simp only [h_process] at h
      exact nomatch h
    | none =>
      simp only [h_process] at h
      obtain rfl := Option.some.inj h
      exact .boot h_process
  | turn input fates =>
    cases h_process : s.process with
    | none =>
      simp only [h_process] at h
      exact nomatch h
    | some m =>
      simp only [h_process] at h
      by_cases h_visits : input.Visits m
      · rw [if_pos h_visits] at h
        obtain rfl := Option.some.inj h
        exact .turn h_process h_visits
      · rw [if_neg h_visits] at h
        exact nomatch h
  | shutdown now order fates =>
    cases h_process : s.process with
    | none =>
      simp only [h_process] at h
      exact nomatch h
    | some m =>
      simp only [h_process] at h
      by_cases h_order : (order.map Prod.fst).Perm m.open_.keys
      · rw [if_pos h_order] at h
        obtain rfl := Option.some.inj h
        exact .shutdown h_process h_order
      · rw [if_neg h_order] at h
        exact nomatch h
  | crash =>
    obtain rfl := Option.some.inj h
    exact .crash

/-! What holds of what a program leaves holds of what the step leaves. -/

section Rules

variable {P : System → Prop} {m : SessionManager} {d : Database}

theorem afterTurn_of_wp {p : Handler Unit}
    (h : wp p (fun _ m' d' => P ⟨d', some m'⟩) (fun d' => P ⟨d', none⟩) m d) (fates : List Fate) :
    P (afterTurn (p m d fates)) := by
  cases h_run : p m d fates with
  | returned a m' d' rest => exact wp_returned h h_run
  | threw e m' d' rest => exact wp_threw h h_run
  | died d' => exact wp_died h h_run

/-- The daemon does not run on after a recovery that fails. -/
theorem afterBoot_of_wp {p : Handler ℕ}
    (h : wp p (fun r m' d' => P ⟨d', none⟩ ∧ ∀ n, r = .ok n → P ⟨d', some m'⟩)
      (fun d' => P ⟨d', none⟩) m d) (fates : List Fate) : P (afterBoot (p m d fates)) := by
  cases h_run : p m d fates with
  | returned n m' d' rest => exact (wp_returned h h_run).2 n rfl
  | threw e m' d' rest => exact (wp_threw h h_run).1
  | died d' => exact wp_died h h_run

theorem afterShutdown_of_wp {p : Handler Unit}
    (h : wp p (fun _ _ d' => P ⟨d', none⟩) (fun d' => P ⟨d', none⟩) m d) (fates : List Fate) :
    P (afterShutdown (p m d fates)) := by
  cases h_run : p m d fates with
  | returned a m' d' rest => exact wp_returned h h_run
  | threw e m' d' rest => exact wp_threw h h_run
  | died d' => exact wp_died h h_run

end Rules

/-- The label is a boot. -/
def Label.isBoot : Label → Bool
  | boot _ => true
  | _ => false

/-- The label is a turn. -/
def Label.isTurn : Label → Bool
  | turn _ _ => true
  | _ => false

/-! ### Boots and turns -/

theorem Label.eq_boot {l : Label} (h : l.isBoot = true) : ∃ fates, l = boot fates := by
  cases l with
  | boot fates => exact ⟨fates, rfl⟩
  | turn input fates => exact nomatch h
  | shutdown now order fates => exact nomatch h
  | crash => exact nomatch h

theorem Label.eq_turn {l : Label} (h : l.isTurn = true) : ∃ input fates, l = turn input fates := by
  cases l with
  | turn input fates => exact ⟨input, fates, rfl⟩
  | boot fates => exact nomatch h
  | shutdown now order fates => exact nomatch h
  | crash => exact nomatch h

/-- A boot starts a process with a completed recovery, or leaves more of the orphans recovered. -/
theorem Step.boot {d₀ : Database} {s t : System} {fates : List Fate} (h : s.Step (.boot fates) t)
    (h_partly : PartlyRecovered d₀ s.db) :
    s.process = none ∧
      ((∃ n m rest, recoverOrphans {} s.db fates = .returned n m t.db rest ∧ t.process = some m) ∨
        t.process = none ∧ PartlyRecovered d₀ t.db) := by
  have h_spec := recoverOrphans_spec h_partly {}
  cases h.does with
  | boot h_none =>
    refine ⟨h_none, ?_⟩
    cases h_run : recoverOrphans {} s.db fates with
    | returned n m d rest => exact .inl ⟨n, m, rest, rfl, rfl⟩
    | threw e m d rest => exact .inr ⟨rfl, (wp_threw h_spec h_run).1⟩
    | died d => exact .inr ⟨rfl, wp_died h_spec h_run⟩

/-- **Boots.** When the last of a row of boots starts a process, the recovery that completed worked
on what the others had left. -/
theorem boots_recover {d₀ : Database} {s : System} {boots : List (Label × System)}
    (hrun : IsRun System.Step s boots) (h_boots : ∀ x ∈ boots, x.1.isBoot = true)
    (h_dead : s.process = none) (h_partly : PartlyRecovered d₀ s.db) {m : SessionManager}
    (h_up : (final s boots).process = some m) :
    ∃ d n fates rest, PartlyRecovered d₀ d ∧
      recoverOrphans {} d fates = .returned n m (final s boots).db rest := by
  induction hrun with
  | nil s => exact nomatch h_dead.symm.trans h_up
  | @cons s t l boots h_step h_rest ih =>
    obtain ⟨fates, rfl⟩ := Label.eq_boot (h_boots (l, t) List.mem_cons_self)
    obtain ⟨-, ⟨n, m', rest, h_recover, h_process⟩ | ⟨h_process, h_left⟩⟩ := h_step.boot h_partly
    · cases h_rest with
      | nil =>
        obtain rfl := Option.some.inj (h_process.symm.trans h_up)
        exact ⟨s.db, n, fates, rest, h_partly, h_recover⟩
      | @cons _ u l' _ h_next _ =>
        -- a process is running, so there is no further boot
        obtain ⟨fates', rfl⟩ :=
          Label.eq_boot (h_boots (l', u) (List.mem_cons_of_mem _ List.mem_cons_self))
        obtain ⟨h_none, -⟩ := h_next.boot (.refl t.db)
        exact nomatch h_none.symm.trans h_process
    · -- this boot failed, and the next ones start from what it left
      exact ih (fun x hx => h_boots x (List.mem_cons_of_mem _ hx)) h_process h_left h_up

/-- A turn that the process survives is a turn of the manager. -/
theorem Step.turn {m m' : SessionManager} {s t : System} {input : Input} {fates : List Fate}
    (h : s.Step (.turn input fates) t) (h_up : s.process = some m) (h_up' : t.process = some m') :
    Live.Step (m, s.db) (input, fates) (m', t.db) := by
  cases h.does with
  | turn h_some h_visits =>
    obtain rfl := Option.some.inj (h_up.symm.trans h_some)
    unfold Live.Step Live.next
    rw [if_pos h_visits]
    cases h_run : SessionManager.turn input m s.db fates with
    | returned a m₁ d rest =>
      rw [h_run] at h_up'
      obtain rfl := Option.some.inj h_up'
      rfl
    | threw e m₁ d rest =>
      rw [h_run] at h_up'
      obtain rfl := Option.some.inj h_up'
      rfl
    | died d =>
      -- the process does not survive this one
      rw [h_run] at h_up'
      exact nomatch h_up'

/-- There are no turns without a process. -/
theorem turns_dead {s : System} {turns : List (Label × System)} (hrun : IsRun System.Step s turns)
    (h_turns : ∀ x ∈ turns, x.1.isTurn = true) (h_dead : s.process = none) :
    (final s turns).process = none := by
  cases hrun with
  | nil => exact h_dead
  | @cons _ t l _ h_step _ =>
    obtain ⟨input, fates, rfl⟩ := Label.eq_turn (h_turns (l, t) List.mem_cons_self)
    cases h_step.does with
    | turn h_some _ => exact nomatch h_dead.symm.trans h_some

/-- **Turns.** A row of turns that the process survives is a run of the manager. -/
theorem turns_run {m m' : SessionManager} {s : System} {turns : List (Label × System)}
    (hrun : IsRun System.Step s turns) (h_turns : ∀ x ∈ turns, x.1.isTurn = true)
    (h_up : s.process = some m) (h_up' : (final s turns).process = some m') :
    ∃ tr, IsRun Live.Step (m, s.db) tr ∧ final (m, s.db) tr = (m', (final s turns).db) := by
  induction hrun generalizing m with
  | nil s =>
    obtain rfl := Option.some.inj (h_up.symm.trans h_up')
    exact ⟨[], .nil _, rfl⟩
  | @cons s t l turns h_step h_rest ih =>
    have h_tail : ∀ x ∈ turns, x.1.isTurn = true :=
      fun x hx => h_turns x (List.mem_cons_of_mem _ hx)
    obtain ⟨input, fates, rfl⟩ := Label.eq_turn (h_turns (l, t) List.mem_cons_self)
    cases h_t : t.process with
    | none =>
      -- a turn that dies is the last one
      exact nomatch (turns_dead h_rest h_tail h_t).symm.trans h_up'
    | some m₁ =>
      obtain ⟨tr, h_tr, h_final⟩ := ih h_tail h_t h_up'
      exact ⟨_ :: tr, .cons (h_step.turn h_up h_t) h_tr, h_final⟩

end System

/-! ### Refusals of the new run -/

/-- Every game that a `Started` was refused for had been started in the same run. -/
def RefusesOwn (m : SessionManager) : Prop :=
  ∀ key aid, LogRecord.openSessionExists key aid ∈ m.log → ∃ at_, (key, at_) ∈ m.openings

theorem books_of_mem {d : Database} {starts : List (GameKey × OffsetDateTime)} {rows : List Session}
    (h : List.Forall₂ (Books d) starts rows) {row : Session} (h_row : row ∈ rows) :
    ∃ start ∈ starts, Books d start row := by
  induction h with
  | nil => exact nomatch h_row
  | @cons start _ starts _ h_books _ ih =>
    rcases List.mem_cons.mp h_row with rfl | h_row
    · exact ⟨start, List.mem_cons_self, h_books⟩
    · obtain ⟨start', h_start, h_books'⟩ := ih h_row
      exact ⟨start', List.mem_cons_of_mem _ h_start, h_books'⟩

/-- When all rows of earlier runs are closed, a move refuses only what this run has opened. -/
theorem Move.refusesOwn {on : Occasion} {base : List Session} {s t : Live} (h_move : Move on s t)
    (h_base : ∀ row ∈ base, row.isOpen = false) (h_booked : Booked base s.1 s.2)
    (h : RefusesOwn s.1) : RefusesOwn t.1 := by
  have h_openings : s.1.openings ⊆ t.1.openings := List.filterMap_subset _ h_move.log
  intro key aid h_mem
  rcases h_move.refusal h_mem with h_mem | ⟨-, h_key, sid, h_open⟩
  · obtain ⟨at_, h_at⟩ := h key aid h_mem
    exact ⟨at_, h_openings h_at⟩
  · obtain ⟨rows, h_rows, h_books⟩ := h_booked
    obtain ⟨row, h_row, h_row_open, -, rfl⟩ := Database.mem_openRows.mp h_open
    rw [h_rows] at h_row
    rcases List.mem_append.mp h_row with h_row | h_row
    · exact nomatch (h_base row h_row).symm.trans h_row_open
    · -- the open row is that of a start of this run, whose key its application has
      obtain ⟨⟨key', at_⟩, h_start, -, h_key'⟩ := books_of_mem h_books h_row
      obtain rfl := Database.keyRows_key h_key h_key'
      exact ⟨at_, h_openings h_start⟩

/-- What a recovered run keeps, whatever fails in it. -/
structure Sound (base : List Session) (s : Live) : Prop where
  booked : Booked base s.1 s.2
  refusesOwn : RefusesOwn s.1

theorem Moves.sound {on : Occasion} {base : List Session} {s t : Live} (h_moves : Moves on s t)
    (h_base : ∀ row ∈ base, row.isOpen = false) (h : Sound base s) : Sound base t := by
  induction h_moves with
  | refl => exact h
  | tail _ h_move ih =>
    exact ⟨h_move.booked h_base ih.booked, h_move.refusesOwn h_base ih.booked ih.refusesOwn⟩

/-! ### Recovery is exactly-once -/

/-- **Crash recovery is exactly-once.** Take any run of the daemon, crashes and earlier restarts
included, to a state without a process, and boots from there until one completes. No row is open
then; every session row that was open is closed at its last heartbeat with its last runtimes, and
every other is unchanged; and every orphan has been added to its application once. In the turns of
the new process the recovered rows stay as they are, and a `Started` is refused because of an open
row only when the new process has opened it; unless the database fails in one of the turns, there is
no such row. -/
theorem crash_recovery_exactly_once {s₀ : System} {before boots : List (System.Label × System)}
    (hrun : IsRun System.Step s₀ (before ++ boots)) (h_dead : (final s₀ before).process = none)
    (h_boots : ∀ x ∈ boots, x.1.isBoot = true) {m : SessionManager}
    (h_up : (final s₀ (before ++ boots)).process = some m) :
    ExactlyOnce (final s₀ before).db (final s₀ (before ++ boots)).db ∧
      ∀ turns m', IsRun System.Step (final s₀ (before ++ boots)) turns →
        (∀ x ∈ turns, x.1.isTurn = true) →
        (final (final s₀ (before ++ boots)) turns).process = some m' →
        (∃ rows, (final (final s₀ (before ++ boots)) turns).db.sessions =
          (final s₀ (before ++ boots)).db.sessions ++ rows) ∧
        RefusesOwn m' ∧
        (Quiet m' → ∀ key aid, LogRecord.openSessionExists key aid ∉ m'.log) := by
  rw [final_append] at h_up ⊢
  obtain ⟨-, h_rest⟩ := hrun.of_append
  obtain ⟨d, n, fates, rest, h_partly, h_recover⟩ :=
    System.boots_recover h_rest h_boots h_dead (.refl _) h_up
  obtain ⟨-, h_ok⟩ := wp_returned (recoverOrphans_spec h_partly {}) h_recover
  refine ⟨(h_ok n rfl).1, ?_⟩
  intro turns m' h_turns_run h_turns h_up'
  obtain ⟨tr, h_tr, h_final⟩ := System.turns_run h_turns_run h_turns h_up h_up'
  obtain ⟨h_start, h_base, -⟩ := recovered_inStep h_recover
  -- whatever fails, the recovered rows stay and refusals are of the run itself
  have h_sound : Sound (final (final s₀ before) boots).db.sessions (final _ tr) :=
    h_tr.final_invariant _ (fun _ _ _ h_step h => h_step.moves.sound h_base h)
      ⟨h_start.booked, fun key aid h_mem => absurd h_mem (h_start.no_refusal key aid)⟩
  rw [h_final] at h_sound
  obtain ⟨rows, h_rows, -⟩ := h_sound.booked
  refine ⟨⟨rows, h_rows⟩, h_sound.refusesOwn, fun h_quiet => ?_⟩
  -- and when nothing fails, map and open rows match, so there are none
  have h_run := inStep_run h_tr (by rw [h_final]; exact h_quiet) h_base h_start
  have h_end := (h_run _ (final_mem_states _ tr)).no_refusal
  rw [h_final] at h_end
  exact h_end

/-- What the idle tracker of a user who has not been away reads. -/
def awake (seconds : Fin (2 ^ 32)) : IdleReading := ⟨{}, .ofSeconds seconds⟩

/-- Two games are played, and one of them is stopped and started again. The process dies in a
heartbeat, when the row of one game has been written. -/
def playedUntilDeath : List System.Label :=
  [.boot [], .turn (startedSteam "10" 100 []).1 [], .turn (startedSteam "20" 130 []).1 [],
    .turn (stoppedSteam "20" 150 50 []).1 [], .turn (startedSteam "20" 160 []).1 [],
    .turn (.heartbeat (.firstDay 200) (.ofSeconds 100) 60
      [(.steam "10", awake 100), (.steam "20", awake 100)]) [.commits, .dies]]

/-- A boot whose recovery dies after its first orphan, one that cannot read the database, and one
that completes. -/
def threeBoots : List System.Label := [.boot [.commits, .commits, .dies], .boot [.fails], .boot []]

/-- The daemon before its first boot. -/
def System.fresh : System := { db := Database.empty }

def deathTrace : List (System.Label × System) := trace System.next .fresh playedUntilDeath

def bootTrace : List (System.Label × System) :=
  trace System.next (final .fresh deathTrace) threeBoots

theorem crash_recovery_exactly_once_threeBoots :
    ExactlyOnce (final .fresh deathTrace).db (final .fresh (deathTrace ++ bootTrace)).db ∧
      ∀ turns m', IsRun System.Step (final .fresh (deathTrace ++ bootTrace)) turns →
        (∀ x ∈ turns, x.1.isTurn = true) →
        (final (final .fresh (deathTrace ++ bootTrace)) turns).process = some m' →
        (∃ rows, (final (final .fresh (deathTrace ++ bootTrace)) turns).db.sessions =
          (final .fresh (deathTrace ++ bootTrace)).db.sessions ++ rows) ∧
        RefusesOwn m' ∧
        (Quiet m' → ∀ key aid, LogRecord.openSessionExists key aid ∉ m'.log) := by
  -- a lifetime that dies, and three boots of which the last one goes through
  have hrun : IsRun System.Step .fresh (deathTrace ++ bootTrace) :=
    (isRun_trace System.next _ playedUntilDeath).append (isRun_trace System.next _ threeBoots)
  -- the first process is dead, and the last one is up
  have h_dead : (final .fresh deathTrace).process = none :=
    Option.isNone_iff_eq_none.mp (by decide +kernel)
  obtain ⟨m, h_up⟩ : ∃ m, (final .fresh (deathTrace ++ bootTrace)).process = some m :=
    Option.isSome_iff_exists.mp (by decide +kernel)
  exact crash_recovery_exactly_once hrun h_dead (by decide +kernel) h_up

end Ludex
