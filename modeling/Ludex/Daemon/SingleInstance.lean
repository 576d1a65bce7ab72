import Ludex.Lib.NameService
import Ludex.Daemon.CrashRecovery
import Ludex.Daemon.Transactions

/-!
# One daemon at a time

Any number of daemon processes over one database. Each opens the database, asks the session bus for
the public name (`dbus::serve`), recovers the orphans, runs its session manager, closes everything
and gives the name up. They start whenever they like, die whenever they like, and have their turn
between any two transactions of each other. Other programs ask for the name as well.

`single_instance` says that what happens is what happens to the one daemon of `System`, whose turns
are atomic: at most one process is past `serve` at any time, and every run of the processes is a run
of `System` on the same database. What is proved of `System` therefore holds of the installation.

The invariant is `Owns`: who is past `serve` keeps the name. `Refines` relates the processes to the
one daemon. While a handler is under way, the daemon has not begun it (`Transact.Resumes`).
-/

namespace Ludex

open Transact SessionManager Run

/-! ### The name -/

/-- A connection to the session bus: that of a daemon process, or of another program. -/
inductive Client where
  | daemon (pid : ℕ)
  | other (id : ℕ)
deriving DecidableEq

namespace Dbus

def serviceName : String := "net.ludex.Tracker1"

/-- Why a daemon refuses to start. -/
def alreadyOwned : String :=
  "another ludex-daemon already owns " ++ serviceName ++ "; " ++
    "refusing to start a second instance. " ++
    "Run `pgrep -a ludex-daemon` to find the existing process."

/-- Register the public name, without waiting for it. -/
def serve (bus : NameService Client) (pid : ℕ) (names : bus.State) : Except String Unit × bus.State :=
  let (reply, names) := bus.request (.daemon pid) { doNotQueue := true } names
  match reply with
  | .primaryOwner | .alreadyOwner => (.ok (), names)
  | .exists_ | .inQueue => (.error alreadyOwned, names)

end Dbus

/-! ### The processes -/

/-- What a daemon process is working at. -/
inductive Job where
  | recovery
  | turn
  | closing
deriving DecidableEq

/-- How far a daemon process is. -/
inductive Phase where
  | absent
  /-- The database is open. -/
  | opened
  /-- The name is registered. -/
  | serving
  | working (job : Job) (r : Resumption Database SessionManager Error Unit) (m : SessionManager)
  /-- The manager waits for an event, a tick or the shutdown. -/
  | waiting (m : SessionManager)
  /-- The manager has finished. -/
  | stopped
  /-- The process is gone, and the bus has not noticed. -/
  | dead

/-- The process is past `serve`. -/
def Phase.pastServe : Phase → Bool
  | serving | working _ _ _ | waiting _ | stopped => true
  | absent | opened | dead => false

/-- The process has a session manager. -/
def Phase.managing : Phase → Bool
  | working _ _ _ | waiting _ => true
  | absent | opened | serving | stopped | dead => false

/-- What follows a job. The daemon exits when its recovery fails. -/
def Job.after : Job → Except Error Unit → SessionManager → Phase
  | recovery, .ok _, m => .waiting m
  | recovery, .error _, _ => .dead
  | turn, _, m => .waiting m
  | closing, _, _ => .stopped

/-- The database, the names of the bus, and the processes. -/
structure Installation (bus : NameService Client) where
  db : Database
  names : bus.State
  phase : ℕ → Phase := fun _ => .absent

namespace Installation

variable {bus : NameService Client}

/-- A process goes to its next phase. -/
def goTo (c : Installation bus) (pid : ℕ) (phase : Phase) : Installation bus :=
  { c with phase := Function.update c.phase pid phase }

/-- What can happen. -/
inductive Label where
  | launch (pid : ℕ)
  | serve (pid : ℕ)
  | recover (pid : ℕ)
  | take (pid : ℕ) (input : Input)
  | shutdown (pid : ℕ) (now : OffsetDateTime) (order : List (GameKey × Sample))
  /-- One transaction, or a step in memory. -/
  | work (pid : ℕ) (fails : Bool)
  | finish (pid : ℕ)
  | die (pid : ℕ)
  /-- The connection of a process that has stopped or died goes away. -/
  | disconnect (pid : ℕ)
  | request (id : ℕ) (flags : RequestNameFlags)
  | leave (id : ℕ)

/-- One step of one process, or of another program. -/
inductive Step : Installation bus → Label → Installation bus → Prop
  | launch {c : Installation bus} {pid : ℕ} : c.phase pid = .absent →
      Step c (.launch pid) (c.goTo pid .opened)
  | served {c : Installation bus} {pid : ℕ} {names : bus.State} : c.phase pid = .opened →
      Dbus.serve bus pid c.names = (.ok (), names) →
      Step c (.serve pid) ({ c with names := names }.goTo pid .serving)
  | refused {c : Installation bus} {pid : ℕ} {names : bus.State} {message : String} :
      c.phase pid = .opened → Dbus.serve bus pid c.names = (.error message, names) →
      Step c (.serve pid) ({ c with names := names }.goTo pid .dead)
  | recover {c : Installation bus} {pid : ℕ} {r : Resumption Database SessionManager Error Unit} :
      c.phase pid = .serving → r.run = coldStart →
      Step c (.recover pid) (c.goTo pid (.working .recovery r {}))
  | take {c : Installation bus} {pid : ℕ} {m : SessionManager} {input : Input}
      {r : Resumption Database SessionManager Error Unit} : c.phase pid = .waiting m →
      input.Visits m → r.run = turn input →
      Step c (.take pid input) (c.goTo pid (.working .turn r m))
  | shutdown {c : Installation bus} {pid : ℕ} {m : SessionManager} {now : OffsetDateTime}
      {order : List (GameKey × Sample)} {r : Resumption Database SessionManager Error Unit} :
      c.phase pid = .waiting m → (order.map Prod.fst).Perm m.open_.keys →
      r.run = closeAllOpen .terminated now order →
      Step c (.shutdown pid now order) (c.goTo pid (.working .closing r m))
  | work {c : Installation bus} {pid : ℕ} {job : Job} {m m' : SessionManager} {d : Database}
      {r r' : Resumption Database SessionManager Error Unit} {fails : Bool} :
      c.phase pid = .working job r m → r.next m c.db fails = some (r', m', d) →
      Step c (.work pid fails) ({ c with db := d }.goTo pid (.working job r' m'))
  | finish {c : Installation bus} {pid : ℕ} {job : Job} {m : SessionManager}
      {result : Except Error Unit} : c.phase pid = .working job (.done result) m →
      Step c (.finish pid) (c.goTo pid (job.after result m))
  | die {c : Installation bus} {pid : ℕ} : c.phase pid ≠ .absent →
      Step c (.die pid) (c.goTo pid .dead)
  | disconnect {c : Installation bus} {pid : ℕ} : c.phase pid = .stopped ∨ c.phase pid = .dead →
      Step c (.disconnect pid)
        ({ c with names := bus.disconnect (.daemon pid) c.names }.goTo pid .absent)
  | request {c : Installation bus} {id : ℕ} {flags : RequestNameFlags} :
      Step c (.request id flags) { c with names := (bus.request (.other id) flags c.names).2 }
  | leave {c : Installation bus} {id : ℕ} :
      Step c (.leave id) { c with names := bus.disconnect (.other id) c.names }

/-- Nobody has been started. -/
def Idle (c : Installation bus) : Prop := ∀ pid, c.phase pid = .absent

/-- At most one process is past `serve`. -/
def AtMostOne (c : Installation bus) : Prop :=
  ∀ pid pid', (c.phase pid).pastServe = true → (c.phase pid').pastServe = true → pid = pid'

/-! ### Who is past `serve` keeps the name -/

theorem serve_ok {pid : ℕ} {names names' : bus.State}
    (h : Dbus.serve bus pid names = (.ok (), names')) :
    (bus.request (.daemon pid) { doNotQueue := true } names).1.granted = true ∧
      names' = (bus.request (.daemon pid) { doNotQueue := true } names).2 := by
  unfold Dbus.serve at h
  cases h_reply : bus.request (.daemon pid) { doNotQueue := true } names with
  | mk reply names₁ =>
    rw [h_reply] at h
    cases reply with
    | primaryOwner => exact ⟨rfl, (Prod.mk.inj h).2.symm⟩
    | alreadyOwner => exact ⟨rfl, (Prod.mk.inj h).2.symm⟩
    | inQueue => exact nomatch (Prod.mk.inj h).1
    | exists_ => exact nomatch (Prod.mk.inj h).1

theorem serve_names {pid : ℕ} {names names' : bus.State} {r : Except String Unit}
    (h : Dbus.serve bus pid names = (r, names')) :
    names' = (bus.request (.daemon pid) { doNotQueue := true } names).2 := by
  unfold Dbus.serve at h
  cases h_reply : bus.request (.daemon pid) { doNotQueue := true } names with
  | mk reply names₁ =>
    rw [h_reply] at h
    cases reply <;> exact (Prod.mk.inj h).2.symm

/-- Every process that is past `serve` keeps the name. -/
def Owns (c : Installation bus) : Prop :=
  ∀ pid, (c.phase pid).pastServe = true → bus.Keeps c.names (.daemon pid)

theorem Idle.owns {c : Installation bus} (h : c.Idle) : c.Owns := by
  intro pid h_past
  rw [h pid] at h_past
  exact nomatch h_past

theorem Owns.atMostOne {c : Installation bus} (h : c.Owns) : c.AtMostOne := by
  intro pid pid' h_past h_past'
  exact Client.daemon.inj (bus.unique (h pid h_past) (h pid' h_past'))

@[simp] theorem goTo_phase_self (c : Installation bus) (pid : ℕ) (phase : Phase) :
    (c.goTo pid phase).phase pid = phase := Function.update_self ..

theorem goTo_phase_of_ne {c : Installation bus} {pid pid' : ℕ} {phase : Phase} (h : pid' ≠ pid) :
    (c.goTo pid phase).phase pid' = c.phase pid' := Function.update_of_ne h ..

/-- A step of one process, with names that leave every other owner alone. -/
theorem Owns.goTo {c : Installation bus} (h : c.Owns) {names : bus.State} {d : Database} {pid : ℕ}
    {phase : Phase}
    (h_others : ∀ pid', pid' ≠ pid → bus.Keeps c.names (.daemon pid') →
      bus.Keeps names (.daemon pid'))
    (h_own : phase.pastServe = true → bus.Keeps names (.daemon pid)) :
    ({ c with names := names, db := d }.goTo pid phase).Owns := by
  intro pid' h_past
  by_cases h_pid : pid' = pid
  · subst h_pid
    rw [goTo_phase_self] at h_past
    exact h_own h_past
  · rw [goTo_phase_of_ne h_pid] at h_past
    exact h_others pid' h_pid (h pid' h_past)

theorem daemon_ne {pid pid' : ℕ} (h : pid' ≠ pid) : Client.daemon pid ≠ Client.daemon pid' := by
  intro h_eq
  exact h (Client.daemon.inj h_eq).symm

/-- **Every step keeps the names with who is past `serve`.** -/
theorem Step.owns {c c' : Installation bus} {l : Label} (h : Step c l c') (h_owns : c.Owns) :
    c'.Owns := by
  cases h with
  | launch h_phase => exact h_owns.goTo (fun _ _ h_keeps => h_keeps) fun h_past => nomatch h_past
  -- the grant of the name is what makes the daemon that got past `serve` its owner
  | @served pid names h_phase h_serve =>
    obtain ⟨h_granted, rfl⟩ := serve_ok h_serve
    refine h_owns.goTo (fun pid' h_ne h_keeps => ?_) fun _ => bus.keeps_of_granted rfl h_granted
    exact (bus.request_other h_keeps (daemon_ne h_ne)).2
  | refused h_phase h_serve =>
    obtain rfl := serve_names h_serve
    -- a refused request moves no one else's name
    refine h_owns.goTo (fun pid' h_ne h_keeps => ?_) fun h_past => nomatch h_past
    exact (bus.request_other h_keeps (daemon_ne h_ne)).2
  | @recover pid r h_phase h_run =>
    -- past `serve` already, so the name was its own before
    exact h_owns.goTo (fun _ _ h_keeps => h_keeps) fun _ => h_owns pid (by rw [h_phase]; rfl)
  | @take pid m input r h_phase h_visits h_run =>
    exact h_owns.goTo (fun _ _ h_keeps => h_keeps) fun _ => h_owns pid (by rw [h_phase]; rfl)
  | @shutdown pid m now order r h_phase h_order h_run =>
    exact h_owns.goTo (fun _ _ h_keeps => h_keeps) fun _ => h_owns pid (by rw [h_phase]; rfl)
  | @work pid job m m' d r r' fails h_phase h_next =>
    exact h_owns.goTo (fun _ _ h_keeps => h_keeps) fun _ => h_owns pid (by rw [h_phase]; rfl)
  | @finish pid job m result h_phase =>
    exact h_owns.goTo (fun _ _ h_keeps => h_keeps) fun _ => h_owns pid (by rw [h_phase]; rfl)
  | die h_phase => exact h_owns.goTo (fun _ _ h_keeps => h_keeps) fun h_past => nomatch h_past
  | @disconnect pid h_phase =>
    -- the name is given up with the connection; the others keep theirs
    refine h_owns.goTo (fun pid' h_ne h_keeps => ?_) fun h_past => nomatch h_past
    exact bus.disconnect_other h_keeps (daemon_ne h_ne)
  | @request id flags =>
    intro pid h_past
    -- a client that is no daemon may queue for the name or replace, but not without leave
    have h_ne : Client.other id ≠ Client.daemon pid := fun h_eq => nomatch h_eq
    exact (bus.request_other (h_owns pid h_past) h_ne).2
  | @leave id =>
    intro pid h_past
    have h_ne : Client.other id ≠ Client.daemon pid := fun h_eq => nomatch h_eq
    exact bus.disconnect_other (h_owns pid h_past) h_ne

/-! ### The processes are the one daemon -/

end Installation

/-- What a job leaves of the one daemon. -/
def Job.left : Job → Outcome Database SessionManager Error Unit → System
  | recovery, .returned _ m d _ => ⟨d, some m⟩
  | recovery, .threw _ _ d _ => ⟨d, none⟩
  | turn, .returned _ m d _ => ⟨d, some m⟩
  | turn, .threw _ m d _ => ⟨d, some m⟩
  | closing, .returned _ _ d _ => ⟨d, none⟩
  | closing, .threw _ _ d _ => ⟨d, none⟩
  | _, .died d => ⟨d, none⟩

theorem Job.left_db (job : Job) (out : Outcome Database SessionManager Error Unit) :
    (job.left out).db = out.store := by
  cases job <;> cases out <;> rfl

/-- A job that the one daemon can begin: its program, the memory it starts in, and the step it is
when it is done in one go. -/
inductive Job.Begins (s : System) :
    Job → Handler Unit → SessionManager → (List Fate → System.Label) → Prop
  | recovery : s.process = none → Begins s recovery coldStart {} System.Label.boot
  | turn {m : SessionManager} {input : Input} : s.process = some m → input.Visits m →
      Begins s turn (SessionManager.turn input) m (System.Label.turn input)
  | closing {m : SessionManager} {now : OffsetDateTime} {order : List (GameKey × Sample)} :
      s.process = some m → (order.map Prod.fst).Perm m.open_.keys →
      Begins s closing (closeAllOpen .terminated now order) m (System.Label.shutdown now order)

/-- **A job in one go is a step of the one daemon.** -/
theorem Job.Begins.step {s : System} {job : Job} {p : Handler Unit} {m : SessionManager}
    {label : List Fate → System.Label} (h : Job.Begins s job p m label) (fates : List Fate) :
    s.Step (label fates) (job.left (p m s.db fates)) := by
  unfold System.Step System.next
  -- the three jobs a daemon works on are the three labels of the single-daemon system
  cases h with
  | recovery h_none =>
    simp only [h_none]
    congr 1
    show System.afterBoot (recoverOrphans {} s.db fates) =
      Job.recovery.left (Program.bind recoverOrphans (fun _ => Program.pure ()) {} s.db fates)
    unfold Program.bind
    cases recoverOrphans {} s.db fates <;> rfl
  | turn h_some h_visits =>
    simp only [h_some, if_pos h_visits]
    congr 1
    cases SessionManager.turn _ m s.db fates <;> rfl
  | closing h_some h_order =>
    simp only [h_some, if_pos h_order]
    congr 1
    cases closeAllOpen _ _ _ m s.db fates <;> rfl

/-- The one daemon, seen from a process that manages: while it works at a job, the one daemon has yet
to begin it. -/
def Phase.Matches (d : Database) (s : System) : Phase → Prop
  | working job r m => ∃ p m₀ label used, Job.Begins s job p m₀ label ∧ Resumes p m₀ s.db used r m d
  | waiting m => s = ⟨d, some m⟩
  | absent | opened | serving | stopped | dead => True

/-- A job that is done. -/
theorem Phase.Matches.finish {d : Database} {s : System} {job : Job} {result : Except Error Unit}
    {m : SessionManager} (h : (Phase.working job (.done result) m).Matches d s) :
    ∃ l t, s.Step l t ∧ (job.after result m = .waiting m ∧ t = ⟨d, some m⟩ ∨
      (job.after result m).managing = false ∧ t = ⟨d, none⟩) := by
  obtain ⟨p, m₀, label, used, h_begins, h_resumes⟩ := h
  refine ⟨label used, _, h_begins.step used, ?_⟩
  -- a job that returned leaves the daemon waiting or done; one that threw ends it, but for a turn
  cases result with
  | ok a =>
    rw [h_resumes.returned]
    cases job with
    | recovery => exact Or.inl ⟨rfl, rfl⟩
    | turn => exact Or.inl ⟨rfl, rfl⟩
    | closing => exact Or.inr ⟨rfl, rfl⟩
  | error e =>
    rw [h_resumes.threw]
    cases job with
    | recovery => exact Or.inr ⟨rfl, rfl⟩
    | turn => exact Or.inl ⟨rfl, rfl⟩
    | closing => exact Or.inr ⟨rfl, rfl⟩

/-- A process that is killed, in a job or between two. -/
theorem Phase.Matches.killed {d : Database} {s : System} {phase : Phase} (h : phase.Matches d s)
    (h_managing : phase.managing = true) :
    ∃ tr, IsRun System.Step s tr ∧ final s tr = ⟨d, none⟩ := by
  cases phase with
  | working job r m =>
    obtain ⟨p, m₀, label, used, h_begins, h_resumes⟩ := h
    have h_db : (job.left (p m₀ s.db (used ++ [.dies]))).db = d := by
      rw [job.left_db, h_resumes.killed]
    -- the death ends the job, or comes right after it
    refine ⟨[(label (used ++ [.dies]), _), (.crash, ⟨d, none⟩)],
      .cons (h_begins.step _) (.cons ?_ (.nil _)), rfl⟩
    show some _ = some _
    rw [h_db]
  | waiting m =>
    obtain rfl : s = ⟨d, some m⟩ := h
    exact ⟨[(.crash, ⟨d, none⟩)], .cons rfl (.nil _), rfl⟩
  | absent => exact nomatch h_managing
  | opened => exact nomatch h_managing
  | serving => exact nomatch h_managing
  | stopped => exact nomatch h_managing
  | dead => exact nomatch h_managing

namespace Installation

variable {bus : NameService Client}

/-- The processes are in the state of the one daemon. -/
structure Refines (c : Installation bus) (s : System) : Prop where
  managing : ∀ pid, (c.phase pid).managing = true → (c.phase pid).Matches c.db s
  nobody : (∀ pid, (c.phase pid).managing = false) → s = ⟨c.db, none⟩

theorem pastServe_of_managing {phase : Phase} (h : phase.managing = true) :
    phase.pastServe = true := by
  cases phase with
  | working job r m => rfl
  | waiting m => rfl
  | absent => exact nomatch h
  | opened => exact nomatch h
  | serving => exact nomatch h
  | stopped => exact nomatch h
  | dead => exact nomatch h

theorem Idle.refines {c : Installation bus} (h : c.Idle) : c.Refines ⟨c.db, none⟩ where
  managing := by
    intro pid h_managing
    rw [h pid] at h_managing
    exact nomatch h_managing
  nobody := fun _ => rfl

section Refines

variable {c : Installation bus} {s : System} {pid : ℕ} {phase : Phase} {names : bus.State}
  {d : Database}

/-- A process that has no manager before or after its step. -/
theorem Refines.aside (h : c.Refines s) (h_before : (c.phase pid).managing = false)
    (h_after : phase.managing = false) :
    ({ c with names := names }.goTo pid phase).Refines s where
  -- a daemon that manages is another one than the one that stepped
  managing := by
    intro pid' h_managing
    by_cases h_pid : pid' = pid
    · subst h_pid
      rw [goTo_phase_self, h_after] at h_managing
      exact nomatch h_managing
    · rw [goTo_phase_of_ne h_pid] at h_managing ⊢
      exact h.managing pid' h_managing
  -- and if nobody manages now, nobody did before
  nobody := by
    intro h_nobody
    refine h.nobody fun pid' => ?_
    by_cases h_pid : pid' = pid
    · rw [h_pid]
      exact h_before
    · have h_same := h_nobody pid'
      rwa [goTo_phase_of_ne h_pid] at h_same

/-- The process that has the manager, after a step to a phase in which it still has. -/
theorem AtMostOne.refines_managing (h_one : ({ c with db := d }.goTo pid phase).AtMostOne)
    (h_managing : phase.managing = true) (h_matches : phase.Matches d s) :
    ({ c with db := d }.goTo pid phase).Refines s where
  -- two daemons past `serve` would both own the name, so the one that manages is this one
  managing := by
    intro pid' h_managing'
    have h_pid : pid' = pid := by
      refine h_one pid' pid (pastServe_of_managing h_managing') ?_
      rw [goTo_phase_self]
      exact pastServe_of_managing h_managing
    subst h_pid
    rw [goTo_phase_self]
    exact h_matches
  nobody := by
    intro h_nobody
    have h_none := h_nobody pid
    rw [goTo_phase_self, h_managing] at h_none
    exact nomatch h_none

/-- The process that had the manager, after a step in which it gives it up. -/
theorem AtMostOne.refines_nobody (h_one : c.AtMostOne) (h_before : (c.phase pid).managing = true)
    (h_after : phase.managing = false) : (c.goTo pid phase).Refines ⟨c.db, none⟩ where
  managing := by
    intro pid' h_managing
    by_cases h_pid : pid' = pid
    · subst h_pid
      rw [goTo_phase_self, h_after] at h_managing
      exact nomatch h_managing
    · rw [goTo_phase_of_ne h_pid] at h_managing
      exact absurd (h_one pid' pid (pastServe_of_managing h_managing)
        (pastServe_of_managing h_before)) h_pid
  nobody := fun _ => rfl

end Refines

/-- **One step of the processes is a run of the one daemon.** -/
theorem Step.refines {c c' : Installation bus} {l : Label} (h : Step c l c') (h_owns : c.Owns)
    {s : System} (h_refines : c.Refines s) :
    ∃ tr, IsRun System.Step s tr ∧ c'.Refines (final s tr) := by
  have h_one : c'.AtMostOne := (h.owns h_owns).atMostOne
  cases h with
  | launch h_phase => exact ⟨[], .nil s, h_refines.aside (by rw [h_phase]; rfl) rfl⟩
  | served h_phase h_serve => exact ⟨[], .nil s, h_refines.aside (by rw [h_phase]; rfl) rfl⟩
  | refused h_phase h_serve => exact ⟨[], .nil s, h_refines.aside (by rw [h_phase]; rfl) rfl⟩
  | @recover pid r h_phase h_run =>
    -- the process is past `serve`, so nobody else has a manager
    have h_nobody : ∀ pid', (c.phase pid').managing = false := by
      intro pid'
      by_contra h_managing
      rw [Bool.not_eq_false] at h_managing
      have h_pid := h_owns.atMostOne pid' pid (pastServe_of_managing h_managing)
        (by rw [h_phase]; rfl)
      rw [h_pid, h_phase] at h_managing
      exact nomatch h_managing
    obtain rfl := h_refines.nobody h_nobody
    exact ⟨[], .nil _, h_one.refines_managing rfl
      ⟨_, _, _, [], .recovery rfl, .start h_run {} c.db⟩⟩
  | @take pid m input r h_phase h_visits h_run =>
    have h_matches := h_refines.managing pid (by rw [h_phase]; rfl)
    rw [h_phase] at h_matches
    obtain rfl : s = ⟨c.db, some m⟩ := h_matches
    exact ⟨[], .nil _, h_one.refines_managing rfl
      ⟨_, _, _, [], .turn rfl h_visits, .start h_run m c.db⟩⟩
  | @shutdown pid m now order r h_phase h_order h_run =>
    have h_matches := h_refines.managing pid (by rw [h_phase]; rfl)
    rw [h_phase] at h_matches
    obtain rfl : s = ⟨c.db, some m⟩ := h_matches
    exact ⟨[], .nil _, h_one.refines_managing rfl
      ⟨_, _, _, [], .closing rfl h_order, .start h_run m c.db⟩⟩
  | @work pid job m m' d r r' fails h_phase h_next =>
    have h_matches := h_refines.managing pid (by rw [h_phase]; rfl)
    rw [h_phase] at h_matches
    obtain ⟨p, m₀, label, used, h_begins, h_resumes⟩ := h_matches
    obtain ⟨used', h_resumes'⟩ := h_resumes.next h_next
    exact ⟨[], .nil s, h_one.refines_managing rfl ⟨p, m₀, label, used', h_begins, h_resumes'⟩⟩
  | @finish pid job m result h_phase =>
    have h_before : (c.phase pid).managing = true := by rw [h_phase]; rfl
    have h_matches := h_refines.managing pid h_before
    rw [h_phase] at h_matches
    obtain ⟨l, t, h_step, ⟨h_after, rfl⟩ | ⟨h_after, rfl⟩⟩ := h_matches.finish
    · refine ⟨[(l, _)], .cons h_step (.nil _), h_one.refines_managing ?_ ?_⟩
      · rw [h_after]
        rfl
      · rw [h_after]
        rfl
    · exact ⟨[(l, _)], .cons h_step (.nil _), h_owns.atMostOne.refines_nobody h_before h_after⟩
  | @die pid h_phase =>
    cases h_managing : (c.phase pid).managing with
    | false => exact ⟨[], .nil s, h_refines.aside h_managing rfl⟩
    | true =>
      obtain ⟨tr, h_tr, h_final⟩ := (h_refines.managing pid h_managing).killed h_managing
      refine ⟨tr, h_tr, ?_⟩
      rw [h_final]
      exact h_owns.atMostOne.refines_nobody h_managing rfl
  | @disconnect pid h_phase =>
    refine ⟨[], .nil s, h_refines.aside ?_ rfl⟩
    rcases h_phase with h_phase | h_phase
    · rw [h_phase]
      rfl
    · rw [h_phase]
      rfl
  | request => exact ⟨[], .nil s, ⟨h_refines.managing, h_refines.nobody⟩⟩
  | leave => exact ⟨[], .nil s, ⟨h_refines.managing, h_refines.nobody⟩⟩

/-- **A single instance.** However many daemons are started over a database, whenever they have
their turn and die, and whatever other programs do with the name: in no state are two of them past
`serve`, and what they do to the database and to their memory is a run of the one daemon, in which
every recovery, every turn and every shutdown is one step. -/
theorem single_instance {c₀ : Installation bus} (h_idle : c₀.Idle)
    {tr : List (Label × Installation bus)} (hrun : IsRun Step c₀ tr) :
    (∀ c ∈ states c₀ tr, c.AtMostOne) ∧
      ∃ tr', IsRun System.Step ⟨c₀.db, none⟩ tr' ∧
        (final c₀ tr).Refines (final ⟨c₀.db, none⟩ tr') := by
  refine ⟨fun c hc => ?_, ?_⟩
  · -- safety is the invariant that whoever got past `serve` owns the name
    exact (hrun.invariant Owns (fun _ _ _ h h_owns => h.owns h_owns) h_idle.owns c hc).atMostOne
  · -- refinement: each step is some steps of the system with one daemon, by induction on the run
    have h_all : ∀ {c : Installation bus} {tr : List (Label × Installation bus)},
        IsRun Step c tr → c.Owns → ∀ s, c.Refines s →
          ∃ tr', IsRun System.Step s tr' ∧ (final c tr).Refines (final s tr') := by
      intro c tr h
      induction h with
      | nil c => exact fun _ s h_refines => ⟨[], .nil s, h_refines⟩
      | cons h_step _ ih =>
        intro h_owns s h_refines
        obtain ⟨tr₁, h_tr₁, h_refines₁⟩ := h_step.refines h_owns h_refines
        obtain ⟨tr₂, h_tr₂, h_refines₂⟩ := ih (h_step.owns h_owns) _ h_refines₁
        exact ⟨tr₁ ++ tr₂, h_tr₁.append h_tr₂, by rw [final_append]; exact h_refines₂⟩
    exact h_all hrun h_idle.owns _ h_idle.refines

/-- A first daemon is started, and a second one while it recovers. -/
def twoDaemons : List Label :=
  [.launch 1, .serve 1, .launch 2, .recover 1, .serve 2, .request 7 { replaceExisting := true },
    .disconnect 2]

/-- Nothing has been recorded, and nobody is connected. -/
def fresh : Installation (.queued : NameService Client) where
  db := Database.empty
  names := ([] : List (Client × RequestNameFlags))

theorem single_instance_twoDaemons :
    ∃ tr, IsRun Step fresh tr ∧ tr.map Prod.fst = twoDaemons ∧
      (∀ c ∈ states fresh tr, c.AtMostOne) ∧
        ∃ tr', IsRun System.Step ⟨fresh.db, none⟩ tr' ∧
          (final fresh tr).Refines (final ⟨fresh.db, none⟩ tr') := by
  -- the second daemon is refused while the first recovers, and a stranger asks for the name
  obtain ⟨r, h_run, -⟩ := hasResumption_coldStart
  have h_idle : fresh.Idle := fun _ => rfl
  have hrun : IsRun Step fresh _ :=
    .cons (Step.launch rfl : Step _ (.launch 1) _) <|
    .cons (Step.served rfl rfl : Step _ (.serve 1) _) <|
    .cons (Step.launch rfl : Step _ (.launch 2) _) <|
    .cons (Step.recover rfl h_run : Step _ (.recover 1) _) <|
    .cons (Step.refused rfl rfl : Step _ (.serve 2) _) <|
    .cons (Step.request : Step _ (.request 7 { replaceExisting := true }) _) <|
    .cons (Step.disconnect (Or.inr rfl) : Step _ (.disconnect 2) _) <| .nil _
  exact ⟨_, hrun, rfl, single_instance h_idle hrun⟩

end Installation

end Ludex
