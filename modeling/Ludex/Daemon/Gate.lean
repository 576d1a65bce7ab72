import Ludex.Daemon.Proc

/-!
# The gate

The decision of `gate.rs` whether a foreground process is tracked as a game, twice as in the source:
`decideFromInputs` on inputs that have all been read, and `Gate.decide`, which reads `/proc` in
short-circuit order and hands over only what it has read. `decide_eq_decideFromInputs` says that the
order makes no difference: on every snapshot the wrapper decides what the pure function decides on
the inputs read eagerly.
-/

namespace Ludex

/-- The launcher that produced an accepted process, with the launcher's own identifier. -/
inductive LauncherAttribution where
  | heroic (appName : String)
  | lutris (uuid : String)
deriving DecidableEq, Repr

/-- Information about a process the gate accepted. -/
structure AcceptedProcess where
  executablePath : PathBuf
  graphicsLibraries : GraphicsLibraries
  attribution : Option LauncherAttribution
deriving DecidableEq, Repr

/-- Why the gate rejected a process. -/
inductive RejectionReason where
  | exeUnreadable
  | blocklisted
  | attributedToLauncher
  | mapsUnreadable
  | noGraphicsLibrary
  | notFullscreenAndLowGpu
deriving DecidableEq, Repr

/-- Outcome of a gate decision. -/
inductive GateDecision where
  | accept (process : AcceptedProcess)
  | reject (reason : RejectionReason)
deriving DecidableEq, Repr

/-- Knobs of the gate. The sets are lists whose order does not matter. -/
structure GateConfig where
  /-- File names of executables that are never games. -/
  blocklist : List String
  gpuMemoryThresholdBytes : ℕ
  /-- Variables that mark a process of a launcher with a source of its own. -/
  launcherEnvVars : List String
  /-- Variables that mark a process of a launcher without one. -/
  foregroundSourceLauncherEnvVars : List String

def defaultLauncherEnvVars : List String := ["SteamAppId", "STEAM_COMPAT_APP_ID"]

def defaultForegroundSourceLauncherEnvVars : List String := ["LUTRIS_GAME_UUID", "HEROIC_APP_NAME"]

def defaultBlocklist : List String :=
  ["kwin_wayland", "kwin_x11", "plasmashell", "kded5", "kded6", "krunner", "kactivitymanagerd",
    "kwalletd5", "kwalletd6", "ksmserver", "systemsettings", "systemsettings5",
    "polkit-kde-authentication-agent-1", "Xwayland", "Xorg", "gnome-shell", "mutter",
    "gdm-x-session", "ludex-daemon", "ludex"]

def GateConfig.default : GateConfig where
  blocklist := defaultBlocklist
  gpuMemoryThresholdBytes := 50 * 1024 * 1024
  launcherEnvVars := defaultLauncherEnvVars
  foregroundSourceLauncherEnvVars := defaultForegroundSourceLauncherEnvVars

/-- The candidate. -/
structure GateInput where
  pid : ℕ
  windowIsFullscreen : Bool

/-! ### The pure decision -/

def gamescopeComms : List String := ["gamescope", "gamescope-wl"]

def isBlocklisted (exe : ExeLink) (blocklist : List String) : Bool :=
  match exe.fileName with
  | none => false
  | some name => blocklist.contains name

/-- A real Steam app: a launcher variable carries a nonzero appid. -/
def attributedToSteam (env : Environ) (config : GateConfig) : Bool :=
  config.launcherEnvVars.any fun key =>
    ((env.lookup key).bind fun v => Text.parseUnsigned 64 (trim v).toList).any fun appid => appid ≠ 0

/-- A launcher without a source of its own overrides the attribution to Steam. -/
def foregroundAttributed (env : Environ) (config : GateConfig) : Bool :=
  env.keys.any config.foregroundSourceLauncherEnvVars.contains

/-- The environment carries any launcher variable. -/
def hasLauncherAttribution (env : Environ) (config : GateConfig) : Bool :=
  env.keys.any fun k =>
    config.launcherEnvVars.contains k || config.foregroundSourceLauncherEnvVars.contains k

/-- The identifier under a variable, unless it is blank. -/
def attributionId (env : Environ) (key : String) : Option String :=
  ((env.lookup key).map trim).filter fun v => v ≠ ""

def extractLauncherAttribution (env : Environ) : Option LauncherAttribution :=
  match attributionId env "HEROIC_APP_NAME" with
  | some name => some (.heroic name)
  | none =>
    match attributionId env "LUTRIS_GAME_UUID" with
    | some uuid => some (.lutris uuid)
    | none => none

/-- The environment that carries the attribution: the own one, or the first of the ancestors' that
has any. -/
def resolveAttributionEnviron (own : Environ) (ancestors : List Environ) (config : GateConfig) :
    Environ :=
  if hasLauncherAttribution own config then own
  else (ancestors.find? fun env => hasLauncherAttribution env config).getD own

/-- The environment belongs to a game of Steam's. -/
def steamOwned (env : Environ) (config : GateConfig) : Bool :=
  !foregroundAttributed env config && attributedToSteam env config

/-- The decision on inputs that have been read. -/
def decideFromInputs (exe : Option ExeLink) (environ : Option Environ)
    (libs : Option GraphicsLibraries) (gpu : Option GpuSummary) (windowIsFullscreen : Bool)
    (gamescopeAncestry : Bool) (config : GateConfig) : GateDecision :=
  match exe with
  | none => .reject .exeUnreadable
  | some exePath =>
    if isBlocklisted exePath config.blocklist then .reject .blocklisted
    else if environ.any fun env => steamOwned env config then .reject .attributedToLauncher
    else
      match (if gamescopeAncestry then some (libs.getD {}) else libs) with
      | none => .reject .mapsUnreadable
      | some libs =>
        if !libs.any && !gamescopeAncestry then .reject .noGraphicsLibrary
        else if !(windowIsFullscreen || gamescopeAncestry) &&
            gpu.elim 0 GpuSummary.memoryBytes < config.gpuMemoryThresholdBytes then
          .reject .notFullscreenAndLowGpu
        else
          .accept
            { executablePath := exePath.path
              graphicsLibraries := libs
              attribution := environ.bind extractLauncherAttribution }

/-! ### Reading `/proc` -/

namespace Gate

variable (config : GateConfig) (proc : ProcSnapshot)

/-- An ancestor is the nested compositor. -/
def hasGamescopeAncestor (pid : ℕ) : Bool :=
  (proc.ancestors pid).any fun p =>
    (proc.read p Process.comm).any fun c => gamescopeComms.contains c

/-- The environments of the ancestors that can be read, up to the first with an attribution. -/
def readAncestors : List ℕ → List Environ
  | [] => []
  | anc :: rest =>
    match proc.read anc Process.environ with
    | none => readAncestors rest
    | some env =>
      if hasLauncherAttribution env config then [env] else env :: readAncestors rest

/-- The environment the decision is made on. -/
def decidingEnviron (pid : ℕ) : Option Environ :=
  match proc.read pid Process.environ with
  | none => none
  | some own =>
    if hasLauncherAttribution own config then some own
    else some (resolveAttributionEnviron own (readAncestors config proc (proc.ancestors pid)) config)

/-- Read what is needed, and decide. -/
def decide (input : GateInput) : GateDecision :=
  match proc.read input.pid Process.exe with
  | none => .reject .exeUnreadable
  | some exePath =>
    if isBlocklisted exePath config.blocklist then .reject .blocklisted
    else
      -- cheap checks come before the reads that cost more
      let env := decidingEnviron config proc input.pid
      if env.any fun env => steamOwned env config then .reject .attributedToLauncher
      else
        let gamescopeAncestry := hasGamescopeAncestor proc input.pid
        let libs := proc.read input.pid Process.maps
        let gpu :=
          if input.windowIsFullscreen || gamescopeAncestry then none
          else proc.read input.pid Process.fdinfo
        decideFromInputs (some exePath) env libs gpu input.windowIsFullscreen gamescopeAncestry
          config

/-- The environment that carries the attribution, with every ancestor read. -/
def eagerEnviron (pid : ℕ) : Option Environ :=
  (proc.read pid Process.environ).map fun own =>
    resolveAttributionEnviron own
      ((proc.ancestors pid).filterMap fun anc => proc.read anc Process.environ) config

/-! ### The order of the reads -/

variable {config proc}

/-- Reading on after the first attributed ancestor finds the same one. -/
theorem find?_readAncestors (pids : List ℕ) :
    (readAncestors config proc pids).find? (fun env => hasLauncherAttribution env config) =
      (pids.filterMap fun anc => proc.read anc Process.environ).find?
        fun env => hasLauncherAttribution env config := by
  induction pids with
  | nil => rfl
  | cons anc rest ih =>
    rw [readAncestors]
    cases h_read : proc.read anc Process.environ with
    | none =>
      rw [List.filterMap_cons_none (f := fun anc => proc.read anc Process.environ) h_read]
      exact ih
    | some env =>
      rw [List.filterMap_cons_some (f := fun anc => proc.read anc Process.environ) h_read]
      by_cases h_attributed : hasLauncherAttribution env config = true
      · -- the reading stops here, and so does the search
        show (if hasLauncherAttribution env config then [env] else _).find? _ = _
        simp only [h_attributed, if_true, List.find?_cons]
      · show (if hasLauncherAttribution env config then [env] else _).find? _ = _
        simp only [h_attributed, if_false, Bool.false_eq_true, List.find?_cons, ih]

/-- **The environment decided on** is the one with every ancestor read. -/
theorem decidingEnviron_eq (pid : ℕ) :
    decidingEnviron config proc pid = eagerEnviron config proc pid := by
  unfold decidingEnviron eagerEnviron
  cases proc.read pid Process.environ with
  | none => rfl
  -- the own environment decides if it names a launcher, and the ancestors are read otherwise
  | some own =>
    unfold resolveAttributionEnviron
    by_cases h_own : hasLauncherAttribution own config = true
    · simp only [h_own, if_true, Option.map_some]
    · simp only [h_own, if_false, Bool.false_eq_true, Option.map_some, find?_readAncestors]

/-- The memory footprint is not looked at under the fullscreen and gamescope shortcuts. -/
theorem decideFromInputs_gpu (exe : Option ExeLink) (environ : Option Environ)
    (libs : Option GraphicsLibraries) (gpu gpu' : Option GpuSummary) {fullscreen gamescope : Bool}
    (h : (fullscreen || gamescope) = true) :
    decideFromInputs exe environ libs gpu fullscreen gamescope config =
      decideFromInputs exe environ libs gpu' fullscreen gamescope config := by
  unfold decideFromInputs
  rw [h]
  rfl

/-- The checks the wrapper makes before it hands over are those the pure function makes first. -/
theorem decide_eq_read (input : GateInput) :
    decide config proc input =
      decideFromInputs (proc.read input.pid Process.exe) (decidingEnviron config proc input.pid)
        (proc.read input.pid Process.maps)
        (if input.windowIsFullscreen || hasGamescopeAncestor proc input.pid then none
          else proc.read input.pid Process.fdinfo)
        input.windowIsFullscreen (hasGamescopeAncestor proc input.pid) config := by
  unfold decide
  cases proc.read input.pid Process.exe with
  | none => rfl
  | some exePath =>
    -- what is read later cannot change a decision taken before
    by_cases h_blocked : isBlocklisted exePath config.blocklist = true
    · unfold decideFromInputs
      simp only [h_blocked, if_true]
    by_cases h_steam : ((decidingEnviron config proc input.pid).any fun env =>
        steamOwned env config) = true
    · unfold decideFromInputs
      simp only [h_blocked, h_steam, if_true, if_false, Bool.false_eq_true]
    · simp only [h_blocked, h_steam, if_false, Bool.false_eq_true]

/-- **The gate decides what the pure function decides** on the inputs read eagerly. -/
theorem decide_eq_decideFromInputs (config : GateConfig) (proc : ProcSnapshot)
    (input : GateInput) :
    decide config proc input =
      decideFromInputs (proc.read input.pid Process.exe) (eagerEnviron config proc input.pid)
        (proc.read input.pid Process.maps) (proc.read input.pid Process.fdinfo)
        input.windowIsFullscreen (hasGamescopeAncestor proc input.pid) config := by
  rw [decide_eq_read, decidingEnviron_eq]
  -- the GPU is asked only if neither the window nor an ancestor has decided
  by_cases h_shortcut : (input.windowIsFullscreen || hasGamescopeAncestor proc input.pid) = true
  · rw [if_pos h_shortcut]
    exact decideFromInputs_gpu _ _ _ _ _ h_shortcut
  · rw [if_neg h_shortcut]

end Gate

end Ludex
