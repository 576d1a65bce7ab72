import Ludex.Lib.Resumption
import Ludex.Core.RepoRun
import Ludex.Daemon.SessionManager

/-!
# The handlers, one transaction at a time

Every handler of the session manager has a resumption, whose transactions are calls of the
repository: between any two of them another process, or another task of the same one, can work on
the database.
-/

namespace Ludex

open Transact SessionManager

/-- The cold start: the recovery, whose count is not used. -/
def coldStart : Handler Unit := do
  let _ ← recoverOrphans
  return ()

/-- The call closes a session. -/
def Op.isClose : Op → Bool
  | closeAndRollup _ _ _ _ => true
  | create _ | begin _ _ | heartbeat _ _ | deleteSessionsAndRecompute _ | mergeInto _ _ => false

/-- A repository call, or nothing. Whether it may close a session is a parameter. -/
def RepoCall (closes : Bool) (d d' : Database) : Prop :=
  d' = d ∨ ∃ op : Op, (op.isClose = true → closes = true) ∧ op.run d = .ok d'

theorem RepoCall.refl {closes : Bool} (d : Database) : RepoCall closes d d := Or.inl rfl

theorem RepoCall.weaken {closes : Bool} {d d' : Database} (h : RepoCall closes d d') :
    RepoCall true d d' :=
  h.imp_right fun ⟨op, _, h_run⟩ => ⟨op, fun _ => rfl, h_run⟩

section HasResumption

variable {closes : Bool}

theorem hasResumption_read {α : Type} (f : Database → α) :
    HasResumption (RepoCall closes) (read f) := by
  unfold SessionManager.read SessionManager.transact
  refine hasResumption_transact RepoCall.refl fun d a d' h => ?_
  obtain ⟨-, rfl⟩ := Prod.mk.inj (Except.ok.inj h)
  exact .refl d

/-- A transaction that is a repository call. -/
theorem hasResumption_call {α : Type} {op : Database → Except Error (α × Database)} (call : Op)
    (h_closes : call.isClose = true → closes = true)
    (h : ∀ d, call.run d = (op d).map Prod.snd) :
    HasResumption (RepoCall closes) (transact op) := by
  refine hasResumption_transact RepoCall.refl fun d a d' h_op => ?_
  refine Or.inr ⟨call, h_closes, ?_⟩
  rw [h, h_op]
  rfl

theorem hasResumption_write {op : Database → Except Error Database} (call : Op)
    (h_closes : call.isClose = true → closes = true) (h : ∀ d, call.run d = op d) :
    HasResumption (RepoCall closes) (write op) := by
  refine hasResumption_call call h_closes fun d => ?_
  rw [h]
  cases op d <;> rfl

theorem hasResumption_note (record : LogRecord) :
    HasResumption (RepoCall closes) (note record) := hasResumption_modify _

theorem hasResumption_closeAndRollup (sid aid : ℤ) (snapshot : RuntimeSnapshot)
    (reason : ExitReason) :
    HasResumption (RepoCall true)
      (write fun d => SessionRepo.closeAndRollup d sid aid snapshot reason) :=
  hasResumption_write (.closeAndRollup sid aid snapshot reason) (fun _ => rfl) fun _ => rfl

theorem hasResumption_recoverOrphans : HasResumption (RepoCall true) recoverOrphans := by
  refine hasResumption_bind (hasResumption_read _) fun orphans => ?_
  refine hasResumption_bind (hasResumption_forM (fun orphan => ?_) orphans) fun _ => ?_
  · exact hasResumption_closeAndRollup _ _ _ _
  · by_cases h_count : orphans.length > 0
    · rw [if_pos h_count]
      exact hasResumption_bind (hasResumption_note _) fun _ => hasResumption_pure _
    · rw [if_neg h_count]
      exact hasResumption_bind (hasResumption_pure _) fun _ => hasResumption_pure _

theorem hasResumption_coldStart : HasResumption (RepoCall true) coldStart :=
  hasResumption_bind hasResumption_recoverOrphans fun _ => hasResumption_pure ()

theorem hasResumption_findOrCreateApplication (key : GameKey) (displayName : String)
    (executablePath : Option PathBuf) (now : OffsetDateTime) :
    HasResumption (RepoCall closes) (findOrCreateApplication key displayName executablePath now) := by
  refine hasResumption_bind (hasResumption_read _) fun found => ?_
  cases found with
  | some app => exact hasResumption_pure app
  | none =>
    refine hasResumption_bind (hasResumption_call (.create _) nofun fun _ => rfl) fun app => ?_
    exact hasResumption_bind (hasResumption_modify _) fun _ => hasResumption_pure app

theorem hasResumption_openSession (key : GameKey) (at_ : OffsetDateTime) (sample : Sample)
    (app : Application) : HasResumption (RepoCall closes) (openSession key at_ sample app) := by
  refine hasResumption_bind (hasResumption_attempt ?_) fun begun => ?_
  · exact hasResumption_call (.begin app.id at_) nofun fun _ => rfl
  · match begun with
    | .ok session =>
      refine hasResumption_bind (hasResumption_note _) fun _ => ?_
      exact hasResumption_bind (hasResumption_modify _) fun _ => hasResumption_modify _
    | .error (.openSessionExists aid) => exact hasResumption_note _
    | .error (.invariant message) => exact hasResumption_throw _
    | .error (.sql e) => exact hasResumption_throw _

theorem hasResumption_closeSession (o : OpenSession) (endedAt : OffsetDateTime)
    (reason : ExitReason) (sample : Sample) :
    HasResumption (RepoCall true) (closeSession o endedAt reason sample) := by
  refine hasResumption_bind (hasResumption_closeAndRollup _ _ _ _) fun _ => ?_
  exact hasResumption_bind (hasResumption_note _) fun _ => hasResumption_modify _

theorem hasResumption_handleStarted (key : GameKey) (displayName : String)
    (executablePath : Option PathBuf) (at_ : OffsetDateTime) (blocklist : List GameKey)
    (sample : Sample) : HasResumption (RepoCall closes)
      (handleStarted key displayName executablePath at_ blocklist sample) := by
  refine hasResumption_bind hasResumption_get fun m => ?_
  by_cases h_blocked : key ∈ blocklist
  · rw [if_pos h_blocked]
    exact hasResumption_note _
  · rw [if_neg h_blocked]
    by_cases h_open : key ∈ m.open_
    · rw [if_pos h_open]
      exact hasResumption_note _
    · rw [if_neg h_open]
      refine hasResumption_bind (hasResumption_findOrCreateApplication _ _ _ _) fun app => ?_
      exact hasResumption_openSession _ _ _ _

theorem hasResumption_handleStopped (key : GameKey) (at_ : OffsetDateTime) (sample : Sample) :
    HasResumption (RepoCall true) (handleStopped key at_ sample) := by
  refine hasResumption_bind hasResumption_get fun m => ?_
  cases m.open_.lookup key with
  | none => exact hasResumption_note _
  | some o =>
    exact hasResumption_bind (hasResumption_modify _) fun _ => hasResumption_closeSession _ _ _ _

theorem hasResumption_heartbeat (at_ : OffsetDateTime) (now : Instant) (idleGrace : ℕ)
    (order : List (GameKey × IdleReading)) :
    HasResumption (RepoCall closes) (heartbeatOpenSessions at_ now idleGrace order) := by
  refine hasResumption_bind hasResumption_get fun m => hasResumption_forM (fun x => ?_) _
  exact hasResumption_write (.heartbeat _ _) nofun fun _ => rfl

theorem hasResumption_logged {handler : Handler Unit} (h : HasResumption (RepoCall closes) handler)
    (record : Error → LogRecord) : HasResumption (RepoCall closes) (logged handler record) := by
  refine hasResumption_bind (hasResumption_attempt h) fun result => ?_
  cases result with
  | ok _ => exact hasResumption_pure ()
  | error e => exact hasResumption_note _

/-- The turn is for a `Stopped`. -/
def SessionManager.Input.isStopped : Input → Bool
  | event (.stopped _ _) _ _ => true
  | event (.started _ _ _ _) _ _ => false
  | heartbeat _ _ _ _ => false

/-- **A turn is made of repository calls**, and only a `Stopped` closes a session. -/
theorem hasResumption_turn (input : Input) :
    HasResumption (RepoCall input.isStopped) (turn input) := by
  cases input with
  | event event blocklist sample =>
    cases event with
    | started key displayName executablePath at_ =>
      exact hasResumption_logged (hasResumption_handleStarted _ _ _ _ blocklist sample) _
    | stopped key at_ => exact hasResumption_logged (hasResumption_handleStopped key at_ sample) _
  | heartbeat at_ now idleGrace order =>
    exact hasResumption_logged (hasResumption_heartbeat at_ now idleGrace order) _

theorem hasResumption_closeAllOpen (reason : ExitReason) (now : OffsetDateTime)
    (order : List (GameKey × Sample)) :
    HasResumption (RepoCall true) (closeAllOpen reason now order) := by
  refine hasResumption_bind hasResumption_get fun m => ?_
  refine hasResumption_bind (hasResumption_modify _) fun _ => hasResumption_forM (fun x => ?_) _
  refine hasResumption_bind (hasResumption_attempt (hasResumption_closeSession _ _ _ _)) fun r => ?_
  cases r with
  | ok _ => exact hasResumption_pure ()
  | error e => exact hasResumption_note _

end HasResumption

end Ludex
