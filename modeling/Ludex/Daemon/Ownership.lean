import Ludex.Daemon.Gate
import Ludex.Daemon.Steam.ColdStart

/-!
# One process, one source

Whose a process is, is decided twice: by the gate on the environment of the window, and by the cold
start of the Steam source on the environments of all processes. The two do not ask the same question.
The gate lets a Lutris or Heroic variable override an appid, and reads the appid as a number; the
scan does neither.

`not_doublyTracked_iff` is the exact condition under which no window is accepted by the gate while
its appid is started by the scan of the same snapshot. `doublyTracked_heroic` is a window for which
it fails: Heroic's, started through Proton with the appid of an installed game.
-/

namespace Ludex

open Steam

/-- The environment carries an appid. -/
def Carries (env : Environ) (appid : String) : Prop :=
  ∃ key ∈ appidVars, (env.lookup key).map trim = some appid

/-- The gate accepts a window, and the cold start on the same snapshot starts the appid that the
environment decided on carries. -/
def DoublyTracked (config : GateConfig) (proc : ProcSnapshot) (libraries : List (List DirEntry))
    (now : List GameEvent → OffsetDateTime) (input : GateInput) : Prop :=
  ∃ accepted env appid, Gate.decide config proc input = .accept accepted ∧
    Gate.decidingEnviron config proc input.pid = some env ∧ Carries env appid ∧
    Started (coldStartScan proc (.receiving now)
      (libraries.map fun entries => some (entries.map some)) {}).1.sent appid

/-- What the gate asks of a window besides whose it is. -/
structure LooksLikeGame (config : GateConfig) (proc : ProcSnapshot) (input : GateInput) : Prop where
  exe : ∃ exe, proc.read input.pid Process.exe = some exe ∧
    isBlocklisted exe config.blocklist = false
  libs : Gate.hasGamescopeAncestor proc input.pid = true ∨
    ∃ libs, proc.read input.pid Process.maps = some libs ∧ libs.any = true
  onScreen : (input.windowIsFullscreen || Gate.hasGamescopeAncestor proc input.pid) = true ∨
    config.gpuMemoryThresholdBytes ≤
      (proc.read input.pid Process.fdinfo).elim 0 GpuSummary.memoryBytes

/-! ### What the gate accepts -/

/-- Inputs with a readable executable are accepted when they pass the checks one by one. -/
theorem decideFromInputs_accepts_iff {config : GateConfig} {exe : Option ExeLink}
    {environ : Option Environ} {libs : Option GraphicsLibraries} {gpu : Option GpuSummary}
    {fullscreen gamescope : Bool} :
    (∃ accepted, decideFromInputs exe environ libs gpu fullscreen gamescope config =
        .accept accepted) ↔
      (∃ exePath, exe = some exePath ∧ isBlocklisted exePath config.blocklist = false) ∧
        (environ.any fun env => steamOwned env config) = false ∧
        (gamescope = true ∨ ∃ l, libs = some l ∧ l.any = true) ∧
        ((fullscreen || gamescope) = true ∨
          config.gpuMemoryThresholdBytes ≤ gpu.elim 0 GpuSummary.memoryBytes) := by
  unfold decideFromInputs
  -- the checks are made in this order, and each has one side on which the decision is a rejection
  cases exe with
  | none => simp
  | some exePath =>
    cases h_blocked : isBlocklisted exePath config.blocklist with
    | true => simp [h_blocked]
    | false =>
      cases h_steam : environ.any fun env => steamOwned env config with
      | true => simp [h_blocked]
      | false =>
        cases gamescope with
        | true => simp [h_blocked]
        | false =>
          cases libs with
          | none => simp [h_blocked]
          | some l =>
            cases h_any : l.any with
            | false => simp [h_blocked, h_any]
            | true =>
              cases fullscreen with
              | true => simp [h_blocked, h_any]
              | false =>
                by_cases h_low : gpu.elim 0 GpuSummary.memoryBytes < config.gpuMemoryThresholdBytes
                · simp [h_blocked, h_any, h_low]
                · simp [h_blocked, h_any, h_low, Nat.le_of_not_lt h_low]

/-- **The gate accepts** what looks like a game, unless the environment belongs to Steam. -/
theorem decide_accepts_iff {config : GateConfig} {proc : ProcSnapshot} {input : GateInput} :
    (∃ accepted, Gate.decide config proc input = .accept accepted) ↔
      LooksLikeGame config proc input ∧
        ∀ env, Gate.decidingEnviron config proc input.pid = some env →
          steamOwned env config = false := by
  rw [Gate.decide_eq_read, decideFromInputs_accepts_iff]
  have h_steam : ((Gate.decidingEnviron config proc input.pid).any fun env =>
      steamOwned env config) = false ↔
      ∀ env, Gate.decidingEnviron config proc input.pid = some env →
        steamOwned env config = false := by
    cases Gate.decidingEnviron config proc input.pid with
    | none => simp
    | some env => simp
  -- the memory that is not read under a shortcut is not asked for
  have h_screen : ∀ (shortcut : Bool) (gpu : Option GpuSummary),
      (shortcut = true ∨ config.gpuMemoryThresholdBytes ≤
          (if shortcut = true then none else gpu).elim 0 GpuSummary.memoryBytes) ↔
        (shortcut = true ∨
          config.gpuMemoryThresholdBytes ≤ gpu.elim 0 GpuSummary.memoryBytes) := by
    intro shortcut gpu
    cases shortcut with
    | true => exact iff_of_true (Or.inl rfl) (Or.inl rfl)
    | false => exact Iff.rfl
  rw [h_steam, h_screen]
  refine ⟨?_, ?_⟩
  · rintro ⟨h_exe, h_env, h_libs, h_onScreen⟩
    exact ⟨⟨h_exe, h_libs, h_onScreen⟩, h_env⟩
  · rintro ⟨⟨h_exe, h_libs, h_onScreen⟩, h_env⟩
    exact ⟨h_exe, h_env, h_libs, h_onScreen⟩

/-- A process is attributed to Steam by a variable that holds a nonzero appid. -/
theorem attributedToSteam_iff {env : Environ} {config : GateConfig} :
    attributedToSteam env config = true ↔
      ∃ key ∈ config.launcherEnvVars, ∃ value appid, env.lookup key = some value ∧
        Text.parseUnsigned 64 (trim value).toList = some appid ∧ appid ≠ 0 := by
  unfold attributedToSteam
  simp only [List.any_eq_true, Option.any_eq_true, Option.bind_eq_some_iff, decide_eq_true_eq]
  refine exists_congr fun key => and_congr_right fun _ => ?_
  refine ⟨?_, ?_⟩
  · rintro ⟨appid, ⟨value, h_value, h_parse⟩, h_nonzero⟩
    exact ⟨value, appid, h_value, h_parse, h_nonzero⟩
  · rintro ⟨value, appid, h_value, h_parse, h_nonzero⟩
    exact ⟨appid, ⟨value, h_value, h_parse⟩, h_nonzero⟩

/-- A launcher overrides by the presence of its variable. -/
theorem foregroundAttributed_iff {env : Environ} {config : GateConfig} :
    foregroundAttributed env config = true ↔
      ∃ key ∈ config.foregroundSourceLauncherEnvVars, key ∈ env := by
  unfold foregroundAttributed
  simp only [List.any_eq_true, List.contains_iff_mem, AList.mem_keys]
  exact exists_congr fun key => and_comm

/-- An environment belongs to Steam when no launcher overrides, and it has a nonzero appid. -/
theorem steamOwned_iff {env : Environ} {config : GateConfig} :
    steamOwned env config = true ↔
      (∀ key ∈ env.keys, key ∉ config.foregroundSourceLauncherEnvVars) ∧
        ∃ key ∈ config.launcherEnvVars, ∃ value appid, env.lookup key = some value ∧
          Text.parseUnsigned 64 (trim value).toList = some appid ∧ appid ≠ 0 := by
  unfold steamOwned foregroundAttributed
  rw [Bool.and_eq_true, attributedToSteam_iff]
  simp only [Bool.not_eq_true', List.any_eq_false, List.contains_iff_mem]

/-! ### Ownership -/

/-- The scan starts the games it finds. -/
theorem started_coldStartScan {proc : ProcSnapshot} {libraries : List (List DirEntry)}
    {now : List GameEvent → OffsetDateTime} {appid : String} :
    Started (coldStartScan proc (.receiving now)
        (libraries.map fun entries => some (entries.map some)) {}).1.sent appid ↔
      Found (liveSteamAppids proc) libraries.flatten appid := by
  obtain ⟨s, h_scan, h_consistent, h_running⟩ := coldStartScan_started proc now libraries
  rw [h_scan, h_consistent appid, h_running]

/-- **One process, one source.** No window is tracked by both sources if and only if one that looks
like a game, and carries an appid which is installed and reported running, has no variable of another
launcher and an appid that is a nonzero `u64`. -/
theorem not_doublyTracked_iff (config : GateConfig) (proc : ProcSnapshot)
    (libraries : List (List DirEntry)) (now : List GameEvent → OffsetDateTime)
    (input : GateInput) :
    ¬ DoublyTracked config proc libraries now input ↔
      (LooksLikeGame config proc input →
        ∀ env, Gate.decidingEnviron config proc input.pid = some env →
          ∀ appid, Carries env appid → Found (liveSteamAppids proc) libraries.flatten appid →
            (∀ key ∈ env.keys, key ∉ config.foregroundSourceLauncherEnvVars) ∧
              ∃ key ∈ config.launcherEnvVars, ∃ value appid, env.lookup key = some value ∧
                Text.parseUnsigned 64 (trim value).toList = some appid ∧ appid ≠ 0) := by
  simp only [← steamOwned_iff]
  refine ⟨?_, ?_⟩
  · -- a game the log knows and the gate accepts would be tracked twice
    intro h_not h_game env h_env appid h_carries h_found
    by_contra h_other
    obtain ⟨accepted, h_accept⟩ := decide_accepts_iff.mpr
      ⟨h_game, fun env' h_env' => by
        obtain rfl := Option.some.inj (h_env.symm.trans h_env')
        exact Bool.eq_false_iff.mpr h_other⟩
    exact h_not ⟨accepted, env, appid, h_accept, h_env, h_carries,
      started_coldStartScan.mpr h_found⟩
  · -- and if each of these is left to Steam, the gate has accepted none
    rintro h_settled ⟨accepted, env, appid, h_accept, h_env, h_carries, h_started⟩
    obtain ⟨h_game, h_other⟩ := decide_accepts_iff.mp ⟨accepted, h_accept⟩
    have h_owned := h_settled h_game env h_env appid h_carries
      (started_coldStartScan.mp h_started)
    rw [h_other env h_env] at h_owned
    exact Bool.false_ne_true h_owned

/-! ### A window of Heroic's -/

/-- A game that Heroic runs through Proton. -/
def heroicGame : Process where
  exe := some ⟨⟨"/opt/proton/wine64-preloader"⟩, some "wine64-preloader"⟩
  environ := some (AList.insert "HEROIC_APP_NAME" "Quail"
    (AList.insert "STEAM_COMPAT_APP_ID" "440" ∅))
  maps := some { vulkan := true }

/-- The game is the only process that can be read. -/
def heroicProc : ProcSnapshot where
  processes := AList.insert 4242 heroicGame ∅
  depth := id
  parent_above := by
    intro pid process parent h_lookup h_parent
    by_cases h_pid : pid = 4242
    · rw [h_pid, AList.lookup_insert] at h_lookup
      obtain rfl := Option.some.inj h_lookup
      exact nomatch h_parent
    · rw [AList.lookup_insert_ne h_pid, AList.lookup_empty] at h_lookup
      exact nomatch h_lookup

/-- The window is accepted under Heroic's key, and the scan starts the game of Steam's. -/
theorem doublyTracked_heroic :
    DoublyTracked .default heroicProc [[manifest440]] (fun _ => .firstDay 0) ⟨4242, true⟩ := by
  refine ⟨⟨⟨"/opt/proton/wine64-preloader"⟩, { vulkan := true }, some (.heroic "Quail")⟩,
    AList.insert "HEROIC_APP_NAME" "Quail" (AList.insert "STEAM_COMPAT_APP_ID" "440" ∅), "440",
    ?_, ?_, ?_, ?_⟩
  · decide +kernel
  · rfl
  · exact ⟨"STEAM_COMPAT_APP_ID", by decide, by decide +kernel⟩
  · refine started_coldStartScan.mpr ⟨manifest440, ?_, ⟨some 4, some "Team Fortress 2"⟩, ?_, ?_⟩
    · exact List.mem_cons_self
    · rfl
    · decide +kernel

end Ludex
