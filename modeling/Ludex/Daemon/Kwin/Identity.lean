import Ludex.Daemon.Kwin.RunLoop

/-!
# One game, many processes

The transition function compares the process in the foreground with the tracked one by pid, while a
session belongs to a game key. A launcher starts several processes for one game, and all of them have
its key: `nativeKey_eq_iff` says which processes share one (`SameGame`).

`Unsplit` is what a transition owes a game: it never closes a session and opens another one of the
same key, and a process of the tracked game continues its session. `unsplit_iff` says when a
transition keeps that, in every state the run loop reaches: unless another process of the game whose
activation started the session is accepted. That activation is found in the run (`StartedBy`), by the
step lemma `react_current`.
-/

namespace Ludex

namespace Kwin

/-! ### Processes of one game -/

/-- Two processes are of the same game: both attributed to one Heroic app name, both to one Lutris
uuid, or neither attributed and of the same executable. -/
def SameGame (a b : AcceptedProcess) : Prop :=
  match a.attribution, b.attribution with
  | some (.heroic appName), some (.heroic appName') => appName = appName'
  | some (.lutris uuid), some (.lutris uuid') => uuid = uuid'
  | none, none => a.executablePath = b.executablePath
  | _, _ => False

/-- **The key identifies the game.** -/
theorem nativeKey_eq_iff (a b : AcceptedProcess) : nativeKey a = nativeKey b ↔ SameGame a b := by
  obtain ⟨pathA, _, attributionA⟩ := a
  obtain ⟨pathB, _, attributionB⟩ := b
  obtain ⟨pathA⟩ := pathA
  obtain ⟨pathB⟩ := pathB
  -- the launcher type tells the three kinds of key apart
  rcases attributionA with _ | (appA | uuidA)
  · rcases attributionB with _ | (appB | uuidB)
    · simp [nativeKey, SameGame, GameKey.native]
    · simp [nativeKey, SameGame, GameKey.native, GameKey.heroic]
    · simp [nativeKey, SameGame, GameKey.native, GameKey.lutris]
  · rcases attributionB with _ | (appB | uuidB)
    · simp [nativeKey, SameGame, GameKey.native, GameKey.heroic]
    · simp [nativeKey, SameGame, GameKey.heroic]
    · simp [nativeKey, SameGame, GameKey.heroic, GameKey.lutris]
  · rcases attributionB with _ | (appB | uuidB)
    · simp [nativeKey, SameGame, GameKey.native, GameKey.lutris]
    · simp [nativeKey, SameGame, GameKey.heroic, GameKey.lutris]
    · simp [nativeKey, SameGame, GameKey.lutris]

/-! ### One transition -/

/-- A transition does not split a game: no Stop is followed by a Start of its key, and a process of
the tracked game continues the session. -/
structure Unsplit (state : FgState) (windowMeta : ForegroundMeta) (decision : GateDecision)
    (pauseWhenBackgrounded : Bool) : Prop where
  noSplit : ∀ key, ¬ [Mark.stop key, Mark.start key] <:+:
    (nextAction state windowMeta decision pauseWhenBackgrounded).events.map TransitionEvent.mark
  continues : ∀ af accepted, state.current = some af → decision = .accept accepted →
    nativeKey accepted = af.key →
    (nextAction state windowMeta decision pauseWhenBackgrounded).events = [] ∧
      ∃ af', (nextAction state windowMeta decision pauseWhenBackgrounded).state = .tracked af' ∧
        af'.pid = windowMeta.pid ∧ af'.key = af.key

section Transition

variable {state : FgState} {windowMeta : ForegroundMeta} {decision : GateDecision}
  {pauseWhenBackgrounded : Bool} {af : AcceptedForeground}

/-- The tracked process is activated. -/
theorem nextAction_same (decision : GateDecision) (pauseWhenBackgrounded : Bool)
    (h_current : state.current = some af) (h_pid : af.pid = windowMeta.pid) :
    (nextAction state windowMeta decision pauseWhenBackgrounded).events = [] ∧
      (nextAction state windowMeta decision pauseWhenBackgrounded).state = .tracked af := by
  -- the window belongs to the process that is tracked, so the gate is not asked at all
  have h_any : state.current.any (fun af => af.pid = windowMeta.pid) = true := by
    rw [h_current]
    exact decide_eq_true h_pid
  unfold nextAction
  rw [if_pos h_any]
  -- with no process tracked there is none to be the same
  cases state with
  | notTracked => exact nomatch h_current
  | tracked af' =>
    obtain rfl : af' = af := Option.some.inj h_current
    exact ⟨rfl, rfl⟩
  | trackedBackgrounded af' =>
    obtain rfl : af' = af := Option.some.inj h_current
    exact ⟨rfl, rfl⟩

/-- Another process is accepted: it is taken for another game. -/
theorem nextAction_other (pauseWhenBackgrounded : Bool) (h_current : state.current = some af)
    (h_pid : af.pid ≠ windowMeta.pid) (accepted : AcceptedProcess) :
    (nextAction state windowMeta (.accept accepted) pauseWhenBackgrounded).events.map
        TransitionEvent.mark =
      [.stop af.key, .start (nativeKey accepted)] := by
  -- the window belongs to another process, and the gate decides
  have h_any : ¬ state.current.any (fun af => af.pid = windowMeta.pid) = true := by
    rw [h_current]
    exact fun h_same => h_pid (of_decide_eq_true h_same)
  unfold nextAction
  rw [if_neg h_any]
  -- whatever was tracked is stopped before the new one starts
  cases state with
  | notTracked => exact nomatch h_current
  | tracked af' =>
    obtain rfl : af' = af := Option.some.inj h_current
    rfl
  | trackedBackgrounded af' =>
    obtain rfl : af' = af := Option.some.inj h_current
    rfl

/-- A transition that sends a Stop and a Start accepts another process than the tracked one. -/
theorem nextAction_stop_start {key key' : GameKey}
    (h : [Mark.stop key, Mark.start key'] <:+:
      (nextAction state windowMeta decision pauseWhenBackgrounded).events.map TransitionEvent.mark) :
    ∃ af accepted, state.current = some af ∧ decision = .accept accepted ∧
      af.pid ≠ windowMeta.pid ∧ key = af.key ∧ key' = nativeKey accepted := by
  cases h_current : state.current with
  | none =>
    -- nothing is stopped
    obtain rfl : state = .notTracked := by
      cases state with
      | notTracked => rfl
      | tracked af => exact nomatch h_current
      | trackedBackgrounded af => exact nomatch h_current
    have h_mem : Mark.stop key ∈ (nextAction .notTracked windowMeta decision
        pauseWhenBackgrounded).events.map TransitionEvent.mark :=
      h.subset List.mem_cons_self
    cases decision with
    | accept accepted => exact nomatch List.mem_singleton.mp h_mem
    | reject reason => exact absurd h_mem List.not_mem_nil
  | some af =>
    by_cases h_pid : af.pid = windowMeta.pid
    · rw [(nextAction_same _ _ h_current h_pid).1] at h
      exact absurd (List.infix_nil.mp h) (List.cons_ne_nil _ _)
    · cases decision with
      | accept accepted =>
        rw [nextAction_other _ h_current h_pid accepted] at h
        have h_eq := h.eq_of_length rfl
        simp only [List.cons.injEq, Mark.stop.injEq, Mark.start.injEq, and_true] at h_eq
        exact ⟨af, accepted, rfl, rfl, h_pid, h_eq⟩
      | reject reason =>
        -- a rejection sends nothing
        have h_none : (nextAction state windowMeta (.reject reason) pauseWhenBackgrounded).events =
            [] := by
          unfold nextAction
          split
          · cases state with
            | notTracked => rfl
            | tracked af => rfl
            | trackedBackgrounded af => rfl
          · cases state with
            | notTracked => rfl
            | tracked af => cases pauseWhenBackgrounded <;> rfl
            | trackedBackgrounded af => rfl
        rw [h_none] at h
        exact absurd (List.infix_nil.mp h) (List.cons_ne_nil _ _)

/-- **A transition splits a game exactly when another process of it is accepted.** -/
theorem unsplit_iff_key : Unsplit state windowMeta decision pauseWhenBackgrounded ↔
    ∀ af accepted, state.current = some af → decision = .accept accepted →
      nativeKey accepted = af.key → af.pid = windowMeta.pid := by
  -- the process is split exactly when a start follows its own stop
  refine ⟨?_, ?_⟩
  · -- a start of the same key would be the other process, which has another id
    rintro ⟨-, h_continues⟩ af accepted h_current rfl h_key
    by_contra h_pid
    have h_marks := nextAction_other pauseWhenBackgrounded h_current h_pid accepted
    rw [(h_continues af accepted h_current rfl h_key).1] at h_marks
    exact absurd h_marks (List.cons_ne_nil _ _).symm
  · intro h
    refine ⟨fun key h_split => ?_, fun af accepted h_current h_accept h_key => ?_⟩
    · -- the stop and the start are of one process: the key says so
      obtain ⟨af, accepted, h_current, h_accept, h_pid, rfl, h_key⟩ := nextAction_stop_start h_split
      exact h_pid (h af accepted h_current h_accept h_key.symm)
    · have h_pid := h af accepted h_current h_accept h_key
      obtain ⟨h_events, h_state⟩ :=
        nextAction_same decision pauseWhenBackgrounded h_current h_pid
      exact ⟨h_events, af, h_state, h_pid, rfl⟩

end Transition

/-! ### The activation a session was started by -/

/-- An activation of the run started to track `af`, which has been tracked since. -/
def StartedBy (tr : List (Input × Loop)) (af : AcceptedForeground) (first : AcceptedProcess) :
    Prop :=
  ∃ before i t after activation, tr = before ++ (i, t) :: after ∧
    i.branch = .activation activation (.accept first) ∧
    af = ⟨activation.pid, nativeKey first, first.executablePath⟩ ∧
    ∀ u ∈ Run.states t after, u.state.current = some af

theorem StartedBy.key {tr : List (Input × Loop)} {af : AcceptedForeground}
    {first : AcceptedProcess} (h : StartedBy tr af first) : af.key = nativeKey first := by
  obtain ⟨before, i, t, after, activation, -, -, rfl, -⟩ := h
  rfl

theorem StartedBy.cons {t : Loop} {i : Input} {tr : List (Input × Loop)}
    {af : AcceptedForeground} {first : AcceptedProcess} (h : StartedBy tr af first) :
    StartedBy ((i, t) :: tr) af first := by
  obtain ⟨before, j, u, after, activation, rfl, h_rest⟩ := h
  exact ⟨(i, t) :: before, j, u, after, activation, rfl, h_rest⟩

/-- What is tracked after a turn was tracked before, or is the process the turn accepted. -/
theorem react_current {selfPid : ℕ} {s : Loop} {i : Input} {af : AcceptedForeground}
    (h : s.Synced) (h_enabled : Enabled s i)
    (h_current : (react selfPid s i).next.state.current = some af) :
    s.state.current = some af ∨
      ∃ activation first, i.branch = .activation activation (.accept first) ∧
        af = ⟨activation.pid, nativeKey first, first.executablePath⟩ := by
  have h_moves : Moves selfPid s i (react selfPid s i) := react_moves h h_enabled
  generalize react selfPid s i = r at h_moves h_current
  -- only a switch brings in a process that was not tracked before
  cases h_moves with
  | stay _ => exact .inl h_current
  | switch activation accepted af' h_branch h_self h_af h_marks h_watched h_next =>
    rw [h_next] at h_current
    obtain rfl : af' = af := Option.some.inj h_current
    exact .inr ⟨activation, accepted, h_branch, h_af⟩
  | background af' h_state =>
    left
    rw [h_state]
    exact h_current
  | resume af' h_state =>
    left
    rw [h_state]
    exact h_current
  | stop af' h_state => exact nomatch h_current

/-- In a run that ends with a tracked process, it was tracked throughout, or an activation of the run
started it. -/
theorem tracked_startedBy {selfPid : ℕ} {s : Loop} {tr : List (Input × Loop)}
    {af : AcceptedForeground} (hrun : Run.IsRun (Step selfPid) s tr) (h : s.Synced)
    (h_current : (Run.final s tr).state.current = some af) :
    (∀ u ∈ Run.states s tr, u.state.current = some af) ∨ ∃ first, StartedBy tr af first := by
  induction hrun with
  | nil s =>
    left
    intro u hu
    rw [List.mem_singleton.mp hu]
    exact h_current
  | @cons s t i tr h_step _ ih =>
    obtain h_same | ⟨first, h_started⟩ := ih (h.step h_step) h_current
    · -- tracked after this turn: from before, or by it
      obtain ⟨h_enabled, rfl⟩ := h_step.enabled
      obtain h_before | ⟨activation, first, h_branch, h_af⟩ :=
        react_current h h_enabled (h_same _ List.mem_cons_self)
      · left
        intro u hu
        rcases List.mem_cons.mp hu with rfl | hu
        · exact h_before
        · exact h_same u hu
      · exact .inr ⟨first, [], i, _, tr, activation, rfl, h_branch, h_af, h_same⟩
    · exact .inr ⟨first, h_started.cons⟩

/-- **When a game is not split.** In every state the loop reaches, for every activation and every
decision of the gate: a transition never sends a Stop followed by a Start of the same key, and lets a
process of the tracked game continue its session, if and only if it does not accept another process
of the game that started the session. -/
theorem unsplit_iff {selfPid : ℕ} {tr : List (Input × Loop)}
    (hrun : Run.IsRun (Step selfPid) {} tr) (windowMeta : ForegroundMeta) (decision : GateDecision)
    (pauseWhenBackgrounded : Bool) :
    Unsplit (Run.final {} tr).state windowMeta decision pauseWhenBackgrounded ↔
      ∀ af first accepted, (Run.final {} tr).state.current = some af → StartedBy tr af first →
        decision = .accept accepted → SameGame accepted first → af.pid = windowMeta.pid := by
  rw [unsplit_iff_key]
  refine ⟨fun h af first accepted h_current h_started h_accept h_same => ?_,
    fun h af accepted h_current h_accept h_key => ?_⟩
  · apply h af accepted h_current h_accept
    rw [h_started.key]
    exact (nativeKey_eq_iff accepted first).mpr h_same
  · obtain h_same | ⟨first, h_started⟩ := tracked_startedBy hrun synced_initial h_current
    · -- the loop starts with nothing tracked
      exact nomatch h_same {} List.mem_cons_self
    · rw [h_started.key] at h_key
      exact h af first accepted h_current h_started h_accept
        ((nativeKey_eq_iff accepted first).mp h_key)

/-- Pid 7 of a Heroic game is tracked. -/
def heroicTracked : List Input :=
  [⟨.activation ⟨7, true, "game", ""⟩ (.accept ⟨⟨"/usr/bin/wine64-preloader"⟩, {},
    some (.heroic "Sugar")⟩), 0, ⟨30, true⟩⟩]

/-- A switch to another game under the same preloader splits nothing. -/
theorem unsplit_iff_otherGame :
    Unsplit (Run.final {} (Run.trace (next 1) {} heroicTracked)).state ⟨8, "other", ""⟩
      (.accept ⟨⟨"/usr/bin/wine64-preloader"⟩, {}, some (.heroic "Salt")⟩) true := by
  refine (unsplit_iff (Run.isRun_trace (next 1) {} heroicTracked) ⟨8, "other", ""⟩ _ true).mpr ?_
  intro af first accepted h_current h_started h_accept h_same
  obtain rfl := Option.some.inj h_current
  obtain rfl := GateDecision.accept.inj h_accept
  have h_key := (nativeKey_eq_iff _ first).mpr h_same
  rw [← h_started.key] at h_key
  exact absurd h_key (by decide)

/-- A second process of the tracked game splits it: its session is stopped and another one of the
same key started. -/
theorem secondProcess_splits :
    ∃ tr, Run.IsRun (Step 1) {} tr ∧
      ∃ windowMeta decision pauseWhenBackgrounded,
        ¬ Unsplit (Run.final {} tr).state windowMeta decision pauseWhenBackgrounded := by
  refine ⟨Run.trace (next 1) {} heroicTracked, Run.isRun_trace (next 1) {} heroicTracked,
    ⟨8, "game", ""⟩, .accept ⟨⟨"/usr/bin/wine64-preloader"⟩, {}, some (.heroic "Sugar")⟩, true, ?_⟩
  rintro ⟨h_noSplit, -⟩
  exact h_noSplit (.heroic "Sugar") (by decide)

end Kwin

end Ludex
