import Ludex.Daemon.Gate

/-!
# State transitions of the foreground source

The pure logic of `kwin/transition.rs`: given what is tracked and what is foreground now, which
session events fire. Between "the tracked game lost the foreground" and "emit Stop" lies a grace
window, whose timer the runner holds; a transition only says what to do with it.
-/

namespace Ludex

namespace Kwin

/-! ### States, events and outcomes -/

/-- The foreground window the source tracks. -/
structure AcceptedForeground where
  pid : ℕ
  /-- The key `Started` was emitted under. -/
  key : GameKey
  executablePath : PathBuf
deriving DecidableEq, Repr

/-- Metadata collected alongside the gate decision. -/
structure ForegroundMeta where
  pid : ℕ
  resourceClass : String
  caption : String
deriving DecidableEq, Repr

/-- What the source is tracking. -/
inductive FgState where
  | notTracked
  | tracked (af : AcceptedForeground)
  | trackedBackgrounded (af : AcceptedForeground)
deriving DecidableEq, Repr

/-- The currently tracked foreground, if any. -/
def FgState.current : FgState → Option AcceptedForeground
  | notTracked => none
  | tracked af => some af
  | trackedBackgrounded af => some af

/-- What the runner does with its grace timer. -/
inductive TimerOp where
  | noChange
  | start
  | cancel
deriving DecidableEq, Repr

/-- An event for the source to emit. -/
inductive TransitionEvent where
  | start (key : GameKey) (executablePath : PathBuf) (displayName : String)
  | stop (key : GameKey)
deriving DecidableEq, Repr

/-- The computed result of a state transition. -/
structure Outcome where
  events : List TransitionEvent
  state : FgState
  timer : TimerOp
deriving DecidableEq, Repr

/-- Nothing happens. -/
def Outcome.noop (state : FgState) : Outcome := ⟨[], state, .noChange⟩

/-! ### Keys and names -/

/-- The key of an accepted process: the launcher's identifier where the process is attributed to
one, and the executable path otherwise. -/
def nativeKey (accepted : AcceptedProcess) : GameKey :=
  match accepted.attribution with
  | some (.heroic appName) => GameKey.heroic appName
  | some (.lutris uuid) => GameKey.lutris uuid
  | none => GameKey.native accepted.executablePath.lossy

/-- The name shown for a game: the window's resource class, else its caption, else the identifier
of the key. -/
def displayNameFrom (windowMeta : ForegroundMeta) (fallbackKey : GameKey) : String :=
  if !Text.trimIsEmpty windowMeta.resourceClass then windowMeta.resourceClass
  else if !Text.trimIsEmpty windowMeta.caption then windowMeta.caption
  else fallbackKey.launcherId

/-! ### The three transition functions -/

/-- Handle the activation of a foreground window. -/
def nextAction (state : FgState) (windowMeta : ForegroundMeta) (decision : GateDecision)
    (pauseWhenBackgrounded : Bool) : Outcome :=
  if state.current.any fun af => af.pid = windowMeta.pid then
    match state with
    | .trackedBackgrounded af => ⟨[], .tracked af, .cancel⟩
    | _ => .noop state
  else
    match decision with
    | .accept accepted =>
      let newAf : AcceptedForeground :=
        ⟨windowMeta.pid, nativeKey accepted, accepted.executablePath⟩
      let startEvent : TransitionEvent :=
        .start newAf.key accepted.executablePath (displayNameFrom windowMeta newAf.key)
      match state with
      | .notTracked => ⟨[startEvent], .tracked newAf, .noChange⟩
      | .tracked prev => ⟨[.stop prev.key, startEvent], .tracked newAf, .noChange⟩
      | .trackedBackgrounded prev => ⟨[.stop prev.key, startEvent], .tracked newAf, .cancel⟩
    | .reject _ =>
      match state with
      | .notTracked => .noop .notTracked
      | .tracked af =>
        if pauseWhenBackgrounded then ⟨[], .trackedBackgrounded af, .start⟩
        else .noop (.tracked af)
      | .trackedBackgrounded af => .noop (.trackedBackgrounded af)

/-- The grace timer fires. -/
def onGraceTimeout (state : FgState) (pauseWhenBackgrounded : Bool) : Outcome :=
  match state with
  | .trackedBackgrounded af =>
    if pauseWhenBackgrounded then ⟨[.stop af.key], .notTracked, .noChange⟩
    else ⟨[], .tracked af, .noChange⟩
  | _ => .noop state

/-- A watched process exits. -/
def onTrackedExit (state : FgState) (exitedPid : ℕ) : Outcome :=
  match state.current with
  | some af =>
    if af.pid = exitedPid then ⟨[.stop af.key], .notTracked, .cancel⟩ else .noop state
  | none => .noop state

/-! ### Session boundaries -/

/-- A session boundary: an event without the data it carries for the session manager. -/
inductive Mark where
  | start (key : GameKey)
  | stop (key : GameKey)
deriving DecidableEq, Repr

/-- The boundary an event stands for. -/
def TransitionEvent.mark : TransitionEvent → Mark
  | start key _ _ => .start key
  | stop key => .stop key

end Kwin

end Ludex
