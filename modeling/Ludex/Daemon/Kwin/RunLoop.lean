import Ludex.Lib.Run
import Ludex.Daemon.Kwin.Transition

/-!
# The run loop of the foreground source

The loop of `kwin/source.rs`: it holds the state and the grace timer, and each turn takes one
branch of its `select!`, an exit notice, the grace timer or an activation. Which branch a turn may
take is left open here, except that the timer can only fire when it is armed and due; the settings
are read anew in every turn.

Two results. What the source emits is a well-bracketed word of session boundaries
(`foreground_well_bracketed`), and the timer is armed exactly while the tracked game is in the
background, with the deadline set when it went there (`grace_timer_invariant`). Both go through
`react_moves`, the list of what one turn can do when state and timer are in step (`Loop.Synced`).
-/

namespace Ludex

namespace Kwin

/-- A window activation forwarded from the compositor. -/
structure Activation where
  pid : ℕ
  isFullscreen : Bool
  resourceClass : String
  caption : String
deriving DecidableEq, Repr

/-- The settings the source reads. Durations are in nanoseconds. -/
structure Config where
  altTabGrace : ℕ
  pauseWhenBackgrounded : Bool
deriving DecidableEq, Repr

/-- What the loop holds between two turns: the state, and the deadline of the grace timer while it
is armed. -/
structure Loop where
  state : FgState := .notTracked
  graceTimer : Option ℕ := none
deriving DecidableEq, Repr

/-- The branch a turn takes. The gate's decision on an activation comes with it. -/
inductive Branch where
  | exited (pid : ℕ)
  | graceTimer
  | activation (activation : Activation) (decision : GateDecision)
deriving DecidableEq, Repr

/-- A turn: its branch, the time at which its outcome is applied, and the settings it reads. -/
structure Input where
  branch : Branch
  now : ℕ
  config : Config
deriving DecidableEq, Repr

/-- What a turn does: the events it sends, the processes it starts to watch, and what the loop
holds after it. -/
structure Reaction where
  events : List TransitionEvent := []
  watched : List ℕ := []
  next : Loop
deriving DecidableEq, Repr

/-- Send the events, watch a started process, and apply the timer operation. A timer started at
`now` sleeps for the grace read at that moment. -/
def applyOutcome (outcome : Outcome) (graceTimer : Option ℕ) (now : ℕ) (config : Config) :
    Reaction where
  events := outcome.events
  watched := outcome.events.filterMap fun
    | .start _ _ _ => outcome.state.current.map AcceptedForeground.pid
    | .stop _ => none
  next :=
    { state := outcome.state
      graceTimer :=
        match outcome.timer with
        | .noChange => graceTimer
        | .start => some (now + config.altTabGrace)
        | .cancel => none }

/-- Drive one activation through the transition function. The daemon's own windows are ignored. -/
def handleActivation (selfPid : ℕ) (s : Loop) (activation : Activation) (decision : GateDecision)
    (now : ℕ) (config : Config) : Reaction :=
  if activation.pid = selfPid then { next := s }
  else
    applyOutcome
      (nextAction s.state ⟨activation.pid, activation.resourceClass, activation.caption⟩ decision
        config.pauseWhenBackgrounded)
      s.graceTimer now config

/-- One turn of the loop. A timer that fired is dropped before its outcome is applied. -/
def react (selfPid : ℕ) (s : Loop) (i : Input) : Reaction :=
  match i.branch with
  | .exited pid => applyOutcome (onTrackedExit s.state pid) s.graceTimer i.now i.config
  | .graceTimer =>
    applyOutcome (onGraceTimeout s.state i.config.pauseWhenBackgrounded) none i.now i.config
  | .activation activation decision =>
    handleActivation selfPid s activation decision i.now i.config

/-- A turn can take the timer branch only when the timer is armed and due. -/
def Enabled (s : Loop) (i : Input) : Prop :=
  i.branch = .graceTimer → ∃ deadline ∈ s.graceTimer, deadline ≤ i.now

instance (s : Loop) (i : Input) : Decidable (Enabled s i) :=
  inferInstanceAs (Decidable (_ → _))

/-- Take a turn, if it can be taken. -/
def next (selfPid : ℕ) (s : Loop) (i : Input) : Option Loop :=
  if Enabled s i then some (react selfPid s i).next else none

/-- A turn as a step. -/
def Step (selfPid : ℕ) (s : Loop) (i : Input) (t : Loop) : Prop := next selfPid s i = some t

theorem Step.enabled {selfPid : ℕ} {s t : Loop} {i : Input} (h : Step selfPid s i t) :
    Enabled s i ∧ t = (react selfPid s i).next := by
  unfold Step next at h
  by_cases h_enabled : Enabled s i
  · rw [if_pos h_enabled] at h
    exact ⟨h_enabled, (Option.some.inj h).symm⟩
  · rw [if_neg h_enabled] at h
    exact nomatch h

/-- The boundaries emitted in a run. -/
def emitted (selfPid : ℕ) (s : Loop) (tr : List (Input × Loop)) : List Mark :=
  (Run.steps s tr).flatMap fun x => (react selfPid x.1 x.2.1).events.map TransitionEvent.mark

/-- What is emitted on shutdown: a Stop for what is still tracked. -/
def shutdownMarks (s : Loop) : List Mark :=
  (s.state.current.map fun af => Mark.stop af.key).toList

/-- A game in the foreground, the desktop over it, the game again, the desktop for longer than the
grace of 30 (rejected once more on the way, after the setting changed), and another game. -/
def altTabs : List Input :=
  let game (pid : ℕ) (exe : String) : Branch :=
    .activation ⟨pid, true, "game", ""⟩ (.accept ⟨⟨exe⟩, {}, none⟩)
  let desktop : Branch := .activation ⟨9, false, "plasmashell", ""⟩ (.reject .blocklisted)
  [⟨game 7 "/opt/a", 0, ⟨30, true⟩⟩, ⟨desktop, 10, ⟨30, true⟩⟩, ⟨game 7 "/opt/a", 20, ⟨30, true⟩⟩,
    ⟨desktop, 40, ⟨30, true⟩⟩, ⟨desktop, 50, ⟨90, true⟩⟩, ⟨.graceTimer, 70, ⟨90, true⟩⟩,
    ⟨game 8 "/opt/b", 80, ⟨90, true⟩⟩]

/-! ### What one turn can do -/

/-- The timer is armed exactly while the tracked game is in the background. -/
def Loop.Synced (s : Loop) : Prop :=
  s.graceTimer.isSome = true ↔ ∃ af, s.state = .trackedBackgrounded af

/-- An activation that does not concern a game in the background: the daemon's own, or that of
another process which is not a game. -/
def Unrelated (selfPid : ℕ) (af : AcceptedForeground) (activation : Activation)
    (decision : GateDecision) : Prop :=
  activation.pid = selfPid ∨ activation.pid ≠ af.pid ∧ ∃ reason, decision = .reject reason

/-- What a turn can do. -/
inductive Moves (selfPid : ℕ) (s : Loop) (i : Input) : Reaction → Prop
  /-- Nothing. With a game in the background, an activation does nothing only if it does not
  concern it. -/
  | stay :
      (∀ af activation decision, s.state = .trackedBackgrounded af →
        i.branch = .activation activation decision → Unrelated selfPid af activation decision) →
      Moves selfPid s i { next := s }
  /-- A new game is tracked; the one tracked before, if any, is stopped. -/
  | switch {r : Reaction} (activation : Activation) (accepted : AcceptedProcess)
      (af : AcceptedForeground) :
      i.branch = .activation activation (.accept accepted) → activation.pid ≠ selfPid →
      af = ⟨activation.pid, nativeKey accepted, accepted.executablePath⟩ →
      r.events.map TransitionEvent.mark = shutdownMarks s ++ [.start af.key] →
      r.watched = [af.pid] → r.next = ⟨.tracked af, none⟩ → Moves selfPid s i r
  /-- The tracked game goes to the background. -/
  | background (af : AcceptedForeground) : s.state = .tracked af →
      Moves selfPid s i
        { next := ⟨.trackedBackgrounded af, some (i.now + i.config.altTabGrace)⟩ }
  /-- The game comes back from the background. -/
  | resume (af : AcceptedForeground) : s.state = .trackedBackgrounded af →
      Moves selfPid s i { next := ⟨.tracked af, none⟩ }
  /-- The tracked game is stopped. -/
  | stop (af : AcceptedForeground) : s.state.current = some af →
      Moves selfPid s i { events := [.stop af.key], next := ⟨.notTracked, none⟩ }

theorem Loop.Synced.eq_none {s : Loop} (h : s.Synced) (hs : ∀ af, s.state ≠ .trackedBackgrounded af) :
    s.graceTimer = none := by
  cases h_timer : s.graceTimer with
  | none => rfl
  | some deadline =>
    obtain ⟨af, h_state⟩ := h.mp (by rw [h_timer]; rfl)
    exact absurd h_state (hs af)

theorem onTrackedExit_moves (selfPid : ℕ) (s : Loop) (i : Input) (pid : ℕ)
    (h_branch : i.branch = .exited pid) :
    Moves selfPid s i (applyOutcome (onTrackedExit s.state pid) s.graceTimer i.now i.config) := by
  have h_stay : Moves selfPid s i { next := s } := by
    apply Moves.stay
    intro af activation decision _ h_activation
    exact nomatch h_branch.symm.trans h_activation
  unfold onTrackedExit
  cases h_current : s.state.current with
  | none => exact h_stay
  | some af =>
    by_cases h_pid : af.pid = pid
    · simp only [h_pid, if_true]
      exact .stop af h_current
    · -- a stale notice
      simp only [h_pid, if_false]
      exact h_stay

theorem onGraceTimeout_moves (selfPid : ℕ) {s : Loop} {af : AcceptedForeground}
    (h : s.state = .trackedBackgrounded af) (i : Input) :
    Moves selfPid s i (applyOutcome (onGraceTimeout s.state i.config.pauseWhenBackgrounded) none
      i.now i.config) := by
  rw [h]
  unfold onGraceTimeout
  cases i.config.pauseWhenBackgrounded with
  | true => exact .stop af (by rw [h]; rfl)
  | false => exact .resume af h

theorem nextAction_moves {selfPid : ℕ} {s : Loop} (h : s.Synced) {i : Input}
    {activation : Activation} {decision : GateDecision}
    (h_branch : i.branch = .activation activation decision) (h_self : activation.pid ≠ selfPid) :
    Moves selfPid s i
      (applyOutcome
        (nextAction s.state ⟨activation.pid, activation.resourceClass, activation.caption⟩ decision
          i.config.pauseWhenBackgrounded)
        s.graceTimer i.now i.config) := by
  obtain ⟨state, timer⟩ := s
  unfold nextAction
  -- the three states of the foreground; the timer runs in the last one only
  cases state with
  | notTracked =>
    have h_timer : timer = none := h.eq_none (by simp)
    subst h_timer
    cases decision with
    | accept accepted => exact .switch activation accepted _ h_branch h_self rfl rfl rfl rfl
    | reject reason =>
      apply Moves.stay
      intro af _ _ h_state
      exact nomatch h_state
  | tracked af =>
    have h_timer : timer = none := h.eq_none (by simp)
    subst h_timer
    have h_stay : Moves selfPid ⟨.tracked af, none⟩ i { next := ⟨.tracked af, none⟩ } := by
      apply Moves.stay
      intro af' _ _ h_state
      exact nomatch h_state
    by_cases h_pid : af.pid = activation.pid
    · -- the tracked game again
      simp only [FgState.current, Option.any_some, h_pid, decide_true, if_true]
      exact h_stay
    · simp only [FgState.current, Option.any_some, h_pid, decide_false, Bool.false_eq_true, if_false]
      cases decision with
      | accept accepted => exact .switch activation accepted _ h_branch h_self rfl rfl rfl rfl
      | reject reason =>
        cases i.config.pauseWhenBackgrounded with
        | true => exact .background af rfl
        | false => exact h_stay
  | trackedBackgrounded af =>
    by_cases h_pid : af.pid = activation.pid
    · simp only [FgState.current, Option.any_some, h_pid, decide_true, if_true]
      exact .resume af rfl
    · simp only [FgState.current, Option.any_some, h_pid, decide_false, Bool.false_eq_true, if_false]
      cases decision with
      | accept accepted => exact .switch activation accepted _ h_branch h_self rfl rfl rfl rfl
      | reject reason =>
        -- the timer keeps running
        apply Moves.stay
        intro af' activation' decision' h_state h_activation
        obtain rfl : af = af' := FgState.trackedBackgrounded.inj h_state
        obtain ⟨rfl, rfl⟩ := Branch.activation.inj (h_branch.symm.trans h_activation)
        exact .inr ⟨fun h_eq => h_pid h_eq.symm, reason, rfl⟩

/-- **Inversion of a turn.** -/
theorem react_moves {selfPid : ℕ} {s : Loop} {i : Input} (h : s.Synced) (h_enabled : Enabled s i) :
    Moves selfPid s i (react selfPid s i) := by
  unfold react
  cases h_branch : i.branch with
  | exited pid => exact onTrackedExit_moves selfPid s i pid h_branch
  | graceTimer =>
    -- the timer is armed, so a game is in the background
    obtain ⟨deadline, h_timer, -⟩ := h_enabled h_branch
    obtain ⟨af, h_state⟩ := h.mp (by rw [Option.mem_def.mp h_timer]; rfl)
    exact onGraceTimeout_moves selfPid h_state i
  | activation activation decision =>
    change Moves selfPid s i (handleActivation selfPid s activation decision i.now i.config)
    unfold handleActivation
    by_cases h_self : activation.pid = selfPid
    · -- a window of the daemon itself
      rw [if_pos h_self]
      apply Moves.stay
      intro af activation' decision' _ h_activation
      obtain ⟨rfl, rfl⟩ := Branch.activation.inj (h_branch.symm.trans h_activation)
      exact .inl h_self
    · rw [if_neg h_self]
      exact nextAction_moves h h_branch h_self

/-- A turn keeps state and timer in step. -/
theorem Loop.Synced.step {selfPid : ℕ} {s t : Loop} {i : Input} (h : s.Synced)
    (h_step : Step selfPid s i t) : t.Synced := by
  obtain ⟨h_enabled, rfl⟩ := h_step.enabled
  -- only a switch, a pause, a resume and a stop change the state; each sets the deadline with it
  cases h_r : react selfPid s i with
  | mk events watched next =>
    have h_moves : Moves selfPid s i (react selfPid s i) := react_moves h h_enabled
    rw [h_r] at h_moves
    cases h_moves with
    | stay _ => exact h
    -- the timer is armed exactly in the backgrounded state
    | switch activation accepted af h_branch h_self h_af h_marks h_watched h_next =>
      obtain rfl : next = _ := h_next
      simp [Loop.Synced]
    | background af h_state => simp [Loop.Synced]
    | resume af h_state => simp [Loop.Synced]
    | stop af h_current => simp [Loop.Synced]

theorem synced_initial : Loop.Synced {} := by
  simp [Loop.Synced]

/-! ### Session boundaries -/

/-- The boundaries of sessions that open and close one after the other. -/
def brackets (keys : List GameKey) : List Mark := keys.flatMap fun key => [.start key, .stop key]

/-- The key of the session a state keeps open. -/
def openKey (s : Loop) : List GameKey :=
  match s.state with
  | .notTracked => []
  | .tracked af => [af.key]
  | .trackedBackgrounded af => [af.key]

theorem openKey_eq (s : Loop) :
    openKey s = (s.state.current.map AcceptedForeground.key).toList := by
  unfold openKey
  cases s.state with
  | notTracked => rfl
  | tracked af => rfl
  | trackedBackgrounded af => rfl

theorem shutdownMarks_eq (s : Loop) : shutdownMarks s = (openKey s).map .stop := by
  unfold shutdownMarks
  rw [openKey_eq]
  cases s.state.current with
  | none => rfl
  | some af => rfl

@[simp] theorem brackets_nil : brackets [] = [] := rfl

theorem brackets_append (keys₁ keys₂ : List GameKey) :
    brackets (keys₁ ++ keys₂) = brackets keys₁ ++ brackets keys₂ :=
  List.flatMap_append

/-- A Start that is stopped on the spot is one more session. -/
theorem starts_append_stops (s : Loop) :
    (openKey s).map Mark.start ++ (openKey s).map Mark.stop = brackets (openKey s) := by
  rw [openKey_eq]
  cases s.state.current with
  | none => rfl
  | some af => rfl

/-- One turn, put after the Start that is still open, yields the sessions it closes and the Start
that is open after it. -/
theorem react_brackets {selfPid : ℕ} {s : Loop} {i : Input} (h : s.Synced)
    (h_enabled : Enabled s i) :
    ∃ keys, (openKey s).map Mark.start ++
      (react selfPid s i).events.map TransitionEvent.mark =
        brackets keys ++ (openKey (react selfPid s i).next).map Mark.start := by
  have h_moves : Moves selfPid s i (react selfPid s i) := react_moves h h_enabled
  generalize react selfPid s i = r at h_moves
  cases h_moves with
  | stay _ =>
    refine ⟨[], ?_⟩
    simp only [List.map_nil, List.append_nil, brackets_nil, List.nil_append]
  | switch activation accepted af h_branch h_self h_af h_marks h_watched h_next =>
    -- the Stop of what was tracked closes the open Start, and the new Start stays open
    refine ⟨openKey s, ?_⟩
    rw [h_marks, h_next, shutdownMarks_eq, ← List.append_assoc, starts_append_stops]
    rfl
  | background af h_state =>
    refine ⟨[], ?_⟩
    simp only [openKey, h_state, List.map_nil, List.append_nil, brackets_nil, List.nil_append]
  | resume af h_state =>
    refine ⟨[], ?_⟩
    simp only [openKey, h_state, List.map_nil, List.append_nil, brackets_nil, List.nil_append]
  | stop af h_current =>
    refine ⟨[af.key], ?_⟩
    rw [openKey_eq, h_current]
    rfl

theorem emitted_cons (selfPid : ℕ) (s t : Loop) (i : Input) (tr : List (Input × Loop)) :
    emitted selfPid s ((i, t) :: tr) =
      (react selfPid s i).events.map TransitionEvent.mark ++ emitted selfPid t tr :=
  rfl

/-- The same over a run, from any state in step. -/
theorem emitted_brackets {selfPid : ℕ} {s : Loop} {tr : List (Input × Loop)}
    (hrun : Run.IsRun (Step selfPid) s tr) (h : s.Synced) :
    ∃ keys, (openKey s).map Mark.start ++ emitted selfPid s tr =
      brackets keys ++ (openKey (Run.final s tr)).map Mark.start := by
  -- induction on the run, carrying the invariant the timer needs
  induction hrun with
  | nil s => exact ⟨[], List.append_nil _⟩
  | @cons s t i tr h_step _ ih =>
    have h_t : t.Synced := h.step h_step
    obtain ⟨h_enabled, rfl⟩ := h_step.enabled
    -- the reaction closes the bracket it opened or leaves one open for the rest
    obtain ⟨keys₁, h_turn⟩ : ∃ keys, (openKey s).map Mark.start ++
        (react selfPid s i).events.map TransitionEvent.mark =
          brackets keys ++ (openKey (react selfPid s i).next).map Mark.start :=
      react_brackets h h_enabled
    obtain ⟨keys₂, h_rest⟩ := ih h_t
    -- both parts of the run are brackets, and the key between them matches
    refine ⟨keys₁ ++ keys₂, ?_⟩
    rw [emitted_cons, ← List.append_assoc, h_turn, List.append_assoc, h_rest, brackets_append,
      List.append_assoc]
    rfl

/-- With the Stop sent on shutdown every session of a run is closed. -/
theorem emitted_shutdown_brackets {selfPid : ℕ} {tr : List (Input × Loop)}
    (hrun : Run.IsRun (Step selfPid) {} tr) :
    ∃ keys, emitted selfPid {} tr = brackets keys ++ (openKey (Run.final {} tr)).map Mark.start ∧
      emitted selfPid {} tr ++ shutdownMarks (Run.final {} tr) =
        brackets (keys ++ openKey (Run.final {} tr)) := by
  obtain ⟨keys, h_emitted⟩ := emitted_brackets hrun synced_initial
  have h_marks : emitted selfPid {} tr =
      brackets keys ++ (openKey (Run.final {} tr)).map Mark.start := h_emitted
  refine ⟨keys, h_marks, ?_⟩
  rw [h_marks, shutdownMarks_eq, List.append_assoc, starts_append_stops, brackets_append]

/-- **The foreground source emits a well-bracketed stream.** After any run the boundaries are those
of a row of sessions that opened and closed one after the other, followed by the Start of the
session the state keeps open, if it keeps one. With the Stop sent on shutdown all of them are
closed, the open one last. -/
theorem foreground_well_bracketed {selfPid : ℕ} {tr : List (Input × Loop)}
    (hrun : Run.IsRun (Step selfPid) {} tr) :
    ∃ keys,
      emitted selfPid {} tr = brackets keys ++ (openKey (Run.final {} tr)).map Mark.start ∧
      emitted selfPid {} tr ++ shutdownMarks (Run.final {} tr) =
        brackets (keys ++ openKey (Run.final {} tr)) :=
  emitted_shutdown_brackets hrun

theorem foreground_well_bracketed_altTabs :
    ∃ keys,
      emitted 1 {} (Run.trace (next 1) {} altTabs) =
        brackets keys ++ (openKey (Run.final {} (Run.trace (next 1) {} altTabs))).map Mark.start ∧
      emitted 1 {} (Run.trace (next 1) {} altTabs) ++
          shutdownMarks (Run.final {} (Run.trace (next 1) {} altTabs)) =
        brackets (keys ++ openKey (Run.final {} (Run.trace (next 1) {} altTabs))) :=
  foreground_well_bracketed (Run.isRun_trace (next 1) {} altTabs)

/-! ### The grace timer -/

/-- The run moved `af` to the background at some turn, which set this deadline, and nothing has
changed since. -/
def BackgroundedSince (s : Loop) (tr : List (Input × Loop)) (af : AcceptedForeground)
    (deadline : ℕ) : Prop :=
  ∃ before i t after, tr = before ++ (i, t) :: after ∧
    (Run.final s before).state = .tracked af ∧
    deadline = i.now + i.config.altTabGrace ∧
    ∀ u ∈ Run.states t after, u = ⟨.trackedBackgrounded af, some deadline⟩

theorem BackgroundedSince.cons {s t : Loop} {i : Input} {tr : List (Input × Loop)}
    {af : AcceptedForeground} {deadline : ℕ} (h : BackgroundedSince t tr af deadline) :
    BackgroundedSince s ((i, t) :: tr) af deadline := by
  obtain ⟨before, j, u, after, rfl, h_state, h_deadline, h_after⟩ := h
  exact ⟨(i, t) :: before, j, u, after, rfl, h_state, h_deadline, h_after⟩

theorem BackgroundedSince.final {s : Loop} {tr : List (Input × Loop)} {af : AcceptedForeground}
    {deadline : ℕ} (h : BackgroundedSince s tr af deadline) :
    Run.final s tr = ⟨.trackedBackgrounded af, some deadline⟩ := by
  obtain ⟨before, i, t, after, rfl, -, -, h_after⟩ := h
  rw [Run.final_append]
  exact h_after _ (Run.final_mem_states t after)

/-- What a turn says when it leads to a backgrounded game: nothing happened, or it went to the
background in this turn. -/
theorem react_backgrounded {selfPid : ℕ} {s : Loop} {i : Input} {af : AcceptedForeground}
    {deadline : ℕ} (h : s.Synced) (h_enabled : Enabled s i)
    (h_next : (react selfPid s i).next = ⟨.trackedBackgrounded af, some deadline⟩) :
    s = ⟨.trackedBackgrounded af, some deadline⟩ ∨
      s.state = .tracked af ∧ deadline = i.now + i.config.altTabGrace := by
  have h_moves : Moves selfPid s i (react selfPid s i) := react_moves h h_enabled
  generalize react selfPid s i = r at h_moves h_next
  -- what the loop did tells which of the two states it came from
  cases h_moves with
  | stay _ => exact .inl h_next
  | switch activation accepted af' h_branch h_self h_af h_marks h_watched h_switch =>
    rw [h_switch] at h_next
    exact nomatch h_next
  -- it was tracked, and the deadline was set in this very turn
  | background af' h_state =>
    injection h_next with h_af h_deadline
    injection h_af with h_af
    injection h_deadline with h_deadline
    subst h_af
    exact .inr ⟨h_state, h_deadline.symm⟩
  | resume af' h_state => exact nomatch h_next
  | stop af' h_current => exact nomatch h_next

/-- In a run that ends with an armed timer, either nothing changed at all or the game went to the
background on the way. -/
theorem armed_backgroundedSince {selfPid : ℕ} {s : Loop} {tr : List (Input × Loop)} {deadline : ℕ}
    (hrun : Run.IsRun (Step selfPid) s tr) (h : s.Synced)
    (h_armed : (Run.final s tr).graceTimer = some deadline) :
    ∃ af, (∀ u ∈ Run.states s tr, u = ⟨.trackedBackgrounded af, some deadline⟩) ∨
      BackgroundedSince s tr af deadline := by
  induction hrun with
  | nil s =>
    obtain ⟨af, h_state⟩ := h.mp (by rw [show s.graceTimer = some deadline from h_armed]; rfl)
    refine ⟨af, .inl fun u hu => ?_⟩
    rw [List.mem_singleton.mp hu]
    obtain ⟨state, timer⟩ := s
    obtain rfl : state = _ := h_state
    obtain rfl : timer = _ := h_armed
    rfl
  | @cons s t i tr h_step _ ih =>
    obtain ⟨af, h_same | h_since⟩ := ih (h.step h_step) h_armed
    · -- nothing changed after this turn: it is the one that moved the game, or it did nothing
      obtain ⟨h_enabled, rfl⟩ := h_step.enabled
      refine ⟨af, ?_⟩
      obtain h_s | ⟨h_state, h_deadline⟩ :=
        react_backgrounded h h_enabled (h_same _ List.mem_cons_self)
      · left
        intro u hu
        rcases List.mem_cons.mp hu with rfl | hu
        · exact h_s
        · exact h_same u hu
      · exact .inr ⟨[], i, _, tr, rfl, h_state, h_deadline, h_same⟩
    · exact ⟨af, .inr h_since.cons⟩

/-- What a firing timer emits: the Stop of the backgrounded game, if pausing is still on. -/
theorem graceTimer_events {selfPid : ℕ} {s : Loop} {i : Input} {af : AcceptedForeground}
    (h_branch : i.branch = .graceTimer) (h_state : s.state = .trackedBackgrounded af) :
    (react selfPid s i).events =
      if i.config.pauseWhenBackgrounded then [.stop af.key] else [] := by
  unfold react
  rw [h_branch, h_state]
  change (onGraceTimeout (.trackedBackgrounded af) i.config.pauseWhenBackgrounded).events = _
  unfold onGraceTimeout
  cases i.config.pauseWhenBackgrounded with
  | true => rfl
  | false => rfl

/-- **The grace-timer invariant.** After any run the timer is armed exactly while the tracked game
is in the background; when it is armed, its deadline was set in the turn that moved the game there,
from the time and the grace of that turn; and a timer turn emits at most the Stop of that game, and
not before the deadline. -/
theorem grace_timer_invariant {selfPid : ℕ} {tr : List (Input × Loop)}
    (hrun : Run.IsRun (Step selfPid) {} tr) :
    ((Run.final {} tr).graceTimer.isSome = true ↔
      ∃ af, (Run.final {} tr).state = .trackedBackgrounded af) ∧
    (∀ deadline, (Run.final {} tr).graceTimer = some deadline →
      ∃ af, BackgroundedSince {} tr af deadline) ∧
    ∀ i t, i.branch = .graceTimer → Step selfPid (Run.final {} tr) i t →
      ∃ af deadline, BackgroundedSince {} tr af deadline ∧ deadline ≤ i.now ∧
        ∀ event ∈ (react selfPid (Run.final {} tr) i).events, event = .stop af.key := by
  have h_synced : (Run.final {} tr).Synced :=
    hrun.final_invariant Loop.Synced (fun _ _ _ h_step h => h.step h_step) synced_initial
  have h_since : ∀ deadline, (Run.final {} tr).graceTimer = some deadline →
      ∃ af, BackgroundedSince {} tr af deadline := by
    intro deadline h_armed
    obtain ⟨af, h_same | h_since⟩ := armed_backgroundedSince hrun synced_initial h_armed
    · -- the loop does not start with an armed timer
      exact nomatch h_same {} List.mem_cons_self
    · exact ⟨af, h_since⟩
  refine ⟨h_synced, h_since, ?_⟩
  intro i t h_branch h_step
  obtain ⟨deadline, h_armed, h_due⟩ := h_step.enabled.1 h_branch
  obtain ⟨af, h_af⟩ := h_since deadline h_armed
  refine ⟨af, deadline, h_af, h_due, ?_⟩
  intro event h_event
  rw [graceTimer_events h_branch (by rw [h_af.final])] at h_event
  by_cases h_pause : i.config.pauseWhenBackgrounded = true
  · rw [if_pos h_pause] at h_event
    exact List.mem_singleton.mp h_event
  · rw [if_neg h_pause] at h_event
    exact absurd h_event List.not_mem_nil

theorem grace_timer_invariant_altTabs :
    ((Run.final {} (Run.trace (next 1) {} (altTabs.take 5))).graceTimer.isSome = true ↔
      ∃ af, (Run.final {} (Run.trace (next 1) {} (altTabs.take 5))).state =
        .trackedBackgrounded af) ∧
    (∀ deadline, (Run.final {} (Run.trace (next 1) {} (altTabs.take 5))).graceTimer =
        some deadline →
      ∃ af, BackgroundedSince {} (Run.trace (next 1) {} (altTabs.take 5)) af deadline) ∧
    ∀ i t, i.branch = .graceTimer →
      Step 1 (Run.final {} (Run.trace (next 1) {} (altTabs.take 5))) i t →
      ∃ af deadline, BackgroundedSince {} (Run.trace (next 1) {} (altTabs.take 5)) af deadline ∧
        deadline ≤ i.now ∧
        ∀ event ∈ (react 1 (Run.final {} (Run.trace (next 1) {} (altTabs.take 5))) i).events,
          event = .stop af.key :=
  grace_timer_invariant (Run.isRun_trace (next 1) {} (altTabs.take 5))

end Kwin

end Ludex
