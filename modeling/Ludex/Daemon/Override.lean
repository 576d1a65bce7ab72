import Ludex.Daemon.Kwin.Transition
import Ludex.Daemon.Ownership

/-!
# The launcher override

A Lutris or Heroic variable overrides the attribution of a process to Steam by its presence, while
the identifier of the launcher is taken from its trimmed value. The two rules differ on a variable
that is present and blank: the process is accepted, and tracked under the path of its executable.

`usableOverride_iff` says exactly when an accepted process that Steam owns has an identifier of its
launcher. It rests on three lemmas: when the gate accepts (`decideFromInputs_accepts_iff`), what
attribution it hands on (`decideFromInputs_attribution`), and when there is one
(`extractLauncherAttribution_iff`).
-/

namespace Ludex

/-- A configuration with the default variable sets. -/
def GateConfig.withDefaultVars (blocklist : List String) (gpuMemoryThresholdBytes : ℕ) :
    GateConfig :=
  { GateConfig.default with
    blocklist := blocklist
    gpuMemoryThresholdBytes := gpuMemoryThresholdBytes }

/-- What the pure decision is made on. -/
structure GateReadings where
  exe : Option ExeLink
  environ : Option Environ
  libs : Option GraphicsLibraries
  gpu : Option GpuSummary
  windowIsFullscreen : Bool
  gamescopeAncestry : Bool

namespace GateReadings

def decision (x : GateReadings) (config : GateConfig) : GateDecision :=
  decideFromInputs x.exe x.environ x.libs x.gpu x.windowIsFullscreen x.gamescopeAncestry config

/-- An accepted process that its environment attributes to Steam has an attribution to Heroic or
Lutris, and is not tracked under an executable path. -/
def UsableOverride (x : GateReadings) (config : GateConfig) : Prop :=
  ∀ accepted env, x.decision config = .accept accepted → x.environ = some env →
    attributedToSteam env config = true →
    (∃ attribution, accepted.attribution = some attribution) ∧
      ∀ path, Kwin.nativeKey accepted ≠ .native path

/-- The checks of the gate besides that of the launcher. -/
structure PassesOtherChecks (x : GateReadings) (config : GateConfig) : Prop where
  exe : ∃ exePath, x.exe = some exePath ∧ isBlocklisted exePath config.blocklist = false
  libs : x.gamescopeAncestry = true ∨ ∃ libs, x.libs = some libs ∧ libs.any = true
  onScreen : (x.windowIsFullscreen || x.gamescopeAncestry) = true ∨
    config.gpuMemoryThresholdBytes ≤ x.gpu.elim 0 GpuSummary.memoryBytes

/-- The variable is more than blanks. -/
def HasId (env : Environ) (key : String) : Prop :=
  ∃ value, env.lookup key = some value ∧ trim value ≠ ""

/-- If the process passes the other checks, and Steam owns it by a nonzero appid but for the
variables of the launchers that are present, then one of these has a value. -/
def NotAllBlank (x : GateReadings) (config : GateConfig) : Prop :=
  x.PassesOtherChecks config → ∀ env, x.environ = some env →
    (∃ key ∈ config.launcherEnvVars, ∃ value appid, env.lookup key = some value ∧
      Text.parseUnsigned 64 (trim value).toList = some appid ∧ appid ≠ 0) →
    (∃ key ∈ config.foregroundSourceLauncherEnvVars, key ∈ env) →
    ∃ key ∈ config.foregroundSourceLauncherEnvVars, HasId env key

end GateReadings

/-! ### Attributions -/

/-- The gate hands on the attribution of the environment. -/
theorem decideFromInputs_attribution {exe : Option ExeLink} {environ : Option Environ}
    {libs : Option GraphicsLibraries} {gpu : Option GpuSummary} {fullscreen gamescope : Bool}
    {config : GateConfig} {accepted : AcceptedProcess}
    (h : decideFromInputs exe environ libs gpu fullscreen gamescope config = .accept accepted) :
    accepted.attribution = environ.bind extractLauncherAttribution := by
  unfold decideFromInputs at h
  -- every branch but the last is a rejection
  split at h
  · exact nomatch h
  split at h
  · exact nomatch h
  split at h
  · exact nomatch h
  split at h
  · exact nomatch h
  split at h
  · exact nomatch h
  split at h
  · exact nomatch h
  rw [← GateDecision.accept.inj h]

theorem attributionId_isSome_iff {env : Environ} {key : String} :
    (∃ name, attributionId env key = some name) ↔ GateReadings.HasId env key := by
  unfold attributionId GateReadings.HasId
  simp only [Option.filter_eq_some_iff, Option.map_eq_some_iff, decide_eq_true_eq]
  refine ⟨?_, ?_⟩
  · rintro ⟨_, ⟨value, h_value, rfl⟩, h_id⟩
    exact ⟨value, h_value, h_id⟩
  · rintro ⟨value, h_value, h_id⟩
    exact ⟨trim value, ⟨value, h_value, rfl⟩, h_id⟩

/-- **An environment has an attribution** when one of the variables has a value. -/
theorem extractLauncherAttribution_iff {env : Environ} :
    (∃ attribution, extractLauncherAttribution env = some attribution) ↔
      ∃ key ∈ defaultForegroundSourceLauncherEnvVars, GateReadings.HasId env key := by
  simp only [← attributionId_isSome_iff]
  unfold extractLauncherAttribution
  -- Heroic comes first, and Lutris when Heroic's variable is blank or missing
  cases h_heroic : attributionId env "HEROIC_APP_NAME" with
  | some name =>
    refine iff_of_true ⟨.heroic name, rfl⟩ ⟨"HEROIC_APP_NAME", ?_, name, h_heroic⟩
    exact List.mem_cons_of_mem _ List.mem_cons_self
  | none =>
    cases h_lutris : attributionId env "LUTRIS_GAME_UUID" with
    | some uuid =>
      exact iff_of_true ⟨.lutris uuid, rfl⟩
        ⟨"LUTRIS_GAME_UUID", List.mem_cons_self, uuid, h_lutris⟩
    | none =>
      refine iff_of_false (fun ⟨_, h_none⟩ => nomatch h_none) ?_
      rintro ⟨key, h_key, name, h_name⟩
      rcases List.mem_cons.mp h_key with rfl | h_key
      · exact nomatch h_lutris.symm.trans h_name
      · obtain rfl := List.mem_singleton.mp h_key
        exact nomatch h_heroic.symm.trans h_name

/-- A process with an attribution is keyed by it. -/
theorem nativeKey_ne_native_iff {accepted : AcceptedProcess} :
    (∀ path, Kwin.nativeKey accepted ≠ .native path) ↔
      ∃ attribution, accepted.attribution = some attribution := by
  unfold Kwin.nativeKey
  cases accepted.attribution with
  | none =>
    refine iff_of_false (fun h => h _ rfl) ?_
    exact fun ⟨_, h_none⟩ => nomatch h_none
  | some attribution =>
    refine iff_of_true (fun path h_key => ?_) ⟨attribution, rfl⟩
    cases attribution with
    | heroic appName => exact nomatch congrArg GameKey.launcherType h_key
    | lutris uuid => exact nomatch congrArg GameKey.launcherType h_key

/-! ### The override -/

/-- **When the launcher override has a usable id.** For every environment, the default variable sets
and all other inputs: an accepted process that Steam owns carries a Heroic or Lutris attribution, and
is not tracked under an executable path, if and only if the variables by which it overrides are not
all blank. -/
theorem usableOverride_iff (blocklist : List String) (gpuMemoryThresholdBytes : ℕ)
    (x : GateReadings) :
    x.UsableOverride (.withDefaultVars blocklist gpuMemoryThresholdBytes) ↔
      x.NotAllBlank (.withDefaultVars blocklist gpuMemoryThresholdBytes) := by
  refine ⟨fun h h_checks env h_env h_steam h_present => ?_,
    fun h accepted env h_accept h_env h_steam => ?_⟩
  · -- the variable that is present lets the process pass
    have h_owned : (x.environ.any fun env =>
        steamOwned env (.withDefaultVars blocklist gpuMemoryThresholdBytes)) = false := by
      rw [h_env, Option.any_some]
      unfold steamOwned
      rw [foregroundAttributed_iff.mpr h_present]
      rfl
    obtain ⟨accepted, h_accept⟩ := decideFromInputs_accepts_iff.mpr
      ⟨h_checks.exe, h_owned, h_checks.libs, h_checks.onScreen⟩
    obtain ⟨⟨attribution, h_attribution⟩, -⟩ := h accepted env h_accept h_env
      (attributedToSteam_iff.mpr h_steam)
    rw [decideFromInputs_attribution h_accept, h_env] at h_attribution
    exact extractLauncherAttribution_iff.mp ⟨attribution, h_attribution⟩
  · obtain ⟨h_exe, h_owned, h_libs, h_onScreen⟩ :=
      decideFromInputs_accepts_iff.mp ⟨accepted, h_accept⟩
    -- it is not rejected as Steam's, so a variable overrides
    have h_present : foregroundAttributed env
        (.withDefaultVars blocklist gpuMemoryThresholdBytes) = true := by
      rw [h_env, Option.any_some] at h_owned
      unfold steamOwned at h_owned
      rwa [h_steam, Bool.and_true, Bool.not_eq_false'] at h_owned
    have h_id := h ⟨h_exe, h_libs, h_onScreen⟩ env h_env (attributedToSteam_iff.mp h_steam)
      (foregroundAttributed_iff.mp h_present)
    obtain ⟨attribution, h_extract⟩ := extractLauncherAttribution_iff.mpr h_id
    have h_attribution : ∃ attribution, accepted.attribution = some attribution := by
      rw [decideFromInputs_attribution h_accept, h_env]
      exact ⟨attribution, h_extract⟩
    exact ⟨h_attribution, nativeKey_ne_native_iff.mpr h_attribution⟩

/-- A fullscreen game of Steam's with a blank Heroic variable. -/
def blankHeroic : GateReadings where
  exe := some ⟨⟨"/games/portal2"⟩, some "portal2"⟩
  environ := some (AList.insert "HEROIC_APP_NAME" " " (AList.insert "SteamAppId" "620" ∅))
  libs := some { vulkan := true }
  gpu := none
  windowIsFullscreen := true
  gamescopeAncestry := false

/-- It is accepted, and tracked under its path. -/
theorem blankHeroic_native :
    ∃ accepted env, blankHeroic.decision .default = .accept accepted ∧
      blankHeroic.environ = some env ∧ attributedToSteam env .default = true ∧
      accepted.attribution = none ∧ Kwin.nativeKey accepted = .native "/games/portal2" := by
  refine ⟨⟨⟨"/games/portal2"⟩, { vulkan := true }, none⟩, _, ?_, rfl, ?_, rfl, rfl⟩
  · decide +kernel
  · decide +kernel

/-- So the override of a blank variable has no usable id. -/
theorem blankHeroic_not_usable :
    ¬ blankHeroic.UsableOverride (.withDefaultVars defaultBlocklist (50 * 1024 * 1024)) := by
  intro h
  obtain ⟨accepted, env, h_accept, h_env, h_steam, -, h_key⟩ := blankHeroic_native
  exact (h accepted env h_accept h_env h_steam).2 "/games/portal2" h_key

end Ludex
