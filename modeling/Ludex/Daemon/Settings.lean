import Ludex.Lib.Registers
import Ludex.Lib.TwoWrites
import Ludex.Core.SettingsRepo
import Ludex.Core.Snapshots
import Ludex.Daemon.Blocklist
import Ludex.Daemon.Gate
import Ludex.Daemon.IdleTracker

/-!
# Settings over D-Bus

The six settings of `dbus.rs`. A setter stores a row and then writes the part of the shared
configuration that the daemon runs under (`Setter`); a getter reads the row; and a daemon that starts
loads its configuration from all rows (`resolveTrackerConfig`). The row and the configuration are
written one after the other, and the bus dispatches calls concurrently, so the halves of two calls of
one setter may cross.

Each setting is a register of the table and one of the configuration (`stored`, `live`), and the
calls are calls that write two stores, the same to both (`protocol`). So once all of them have returned
the two agree if and only if the last write of the one is the last write of the other
(`config_agrees_iff`).
-/

namespace Ludex

open Registers TwoWrites
open Calendar (nanosPerSecond)

/-! ### The configuration -/

/-- Tunables of the backup scheduler. The interval is in nanoseconds. -/
structure BackupConfig where
  interval : ℕ
  retention : ℕ

/-- Every tunable setting of the daemon. Durations are in nanoseconds. -/
structure TrackerConfig where
  gate : GateConfig
  altTabGrace : ℕ
  pauseWhenBackgrounded : Bool
  idleGrace : ℕ
  backup : BackupConfig

namespace Settings

/-- `Duration::from_secs` -/
def fromSecs (secs : UInt64) : ℕ := secs.toNat * nanosPerSecond

/-- `u64::saturating_mul` -/
def saturatingMul (a b : UInt64) : UInt64 :=
  if a.toNat * b.toNat < 2 ^ 64 then a * b else UInt64.ofNat (2 ^ 64 - 1)

/-- `usize::try_from(n).unwrap_or(usize::MAX)` -/
def usizeOf (n : UInt64) : ℕ := min n.toNat Backup.usizeMax

/-- `MIN_INTERVAL_SECONDS` -/
def minIntervalSeconds : UInt64 := 60 * 60

/-! ### Loading -/

section Loading

-- `failure key` is the storage error that the read of the key meets, if any
variable (failure : String → Option Error) (table : SettingsTable)

/-- A setting that cannot be read is its fallback. -/
def loadParsed {α : Type} (get : SettingsTable → String → α → Except Error α) (key : String)
    (fallback : α) : α :=
  match failure key with
  | some _ => fallback
  | none =>
    match get table key fallback with
    | .ok v => v
    | .error _ => fallback

def loadU64 (key : String) (fallback : UInt64) : UInt64 :=
  loadParsed failure table SettingsRepo.getU64 key fallback

def loadBool (key : String) (fallback : Bool) : Bool :=
  loadParsed failure table SettingsRepo.getBool key fallback

/-- The configuration that a daemon starts with. -/
def resolveTrackerConfig : TrackerConfig where
  gate :=
    { GateConfig.default with
      gpuMemoryThresholdBytes :=
        (loadU64 failure table SettingsRepo.gpuMemoryThresholdBytes
          SettingsRepo.defaultGpuMemoryThresholdBytes).toNat }
  altTabGrace :=
    fromSecs (loadU64 failure table SettingsRepo.altTabGraceSeconds
      SettingsRepo.defaultAltTabGraceSeconds)
  pauseWhenBackgrounded :=
    loadBool failure table SettingsRepo.pauseWhenBackgrounded
      SettingsRepo.defaultPauseWhenBackgrounded
  idleGrace :=
    fromSecs (loadU64 failure table SettingsRepo.idleGraceSeconds
      SettingsRepo.defaultIdleGraceSeconds)
  backup :=
    { interval :=
        fromSecs (saturatingMul (loadU64 failure table SettingsRepo.backupIntervalHours
          SettingsRepo.defaultBackupIntervalHours) 3600)
      retention :=
        usizeOf (loadU64 failure table SettingsRepo.backupRetentionCount
          SettingsRepo.defaultBackupRetentionCount) }

end Loading

/-! ### Getters -/

section Getters

variable (table : SettingsTable)

def getGpuMemoryThresholdBytes : Except Error UInt64 :=
  SettingsRepo.getU64 table SettingsRepo.gpuMemoryThresholdBytes
    SettingsRepo.defaultGpuMemoryThresholdBytes

def getAltTabGraceSeconds : Except Error UInt64 :=
  SettingsRepo.getU64 table SettingsRepo.altTabGraceSeconds SettingsRepo.defaultAltTabGraceSeconds

def getPauseWhenBackgrounded : Except Error Bool :=
  SettingsRepo.getBool table SettingsRepo.pauseWhenBackgrounded
    SettingsRepo.defaultPauseWhenBackgrounded

def getIdleGraceSeconds : Except Error UInt64 :=
  SettingsRepo.getU64 table SettingsRepo.idleGraceSeconds SettingsRepo.defaultIdleGraceSeconds

def getBackupIntervalHours : Except Error UInt64 :=
  SettingsRepo.getU64 table SettingsRepo.backupIntervalHours SettingsRepo.defaultBackupIntervalHours

def getBackupRetentionCount : Except Error UInt64 :=
  SettingsRepo.getU64 table SettingsRepo.backupRetentionCount
    SettingsRepo.defaultBackupRetentionCount

end Getters

/-! ### Setters -/

/-- The two writes of a setter. -/
structure Setter where
  writeTable : SettingsTable → Except Error SettingsTable
  writeConfig : TrackerConfig → TrackerConfig

def setGpuMemoryThresholdBytes (bytes : UInt64) : Setter where
  writeTable table := SettingsRepo.setU64 table SettingsRepo.gpuMemoryThresholdBytes bytes
  writeConfig config := { config with gate.gpuMemoryThresholdBytes := bytes.toNat }

def setAltTabGraceSeconds (seconds : UInt64) : Setter where
  writeTable table := SettingsRepo.setU64 table SettingsRepo.altTabGraceSeconds seconds
  writeConfig config := { config with altTabGrace := fromSecs seconds }

def setPauseWhenBackgrounded (pause : Bool) : Setter where
  writeTable table := SettingsRepo.setBool table SettingsRepo.pauseWhenBackgrounded pause
  writeConfig config := { config with pauseWhenBackgrounded := pause }

def setIdleGraceSeconds (seconds : UInt64) : Setter where
  writeTable table := SettingsRepo.setU64 table SettingsRepo.idleGraceSeconds seconds
  writeConfig config := { config with idleGrace := fromSecs seconds }

/-- The interval has a floor, in whole hours. -/
def setBackupIntervalHours (hours : UInt64) : Setter :=
  let floorHours := minIntervalSeconds / 3600
  let hours := max hours floorHours
  { writeTable := fun table => SettingsRepo.setU64 table SettingsRepo.backupIntervalHours hours
    writeConfig := fun config =>
      { config with backup.interval := fromSecs (saturatingMul hours 3600) } }

/-- One snapshot at least is kept. -/
def setBackupRetentionCount (count : UInt64) : Setter :=
  let count := max count 1
  { writeTable := fun table => SettingsRepo.setU64 table SettingsRepo.backupRetentionCount count
    writeConfig := fun config => { config with backup.retention := usizeOf count } }

/-- A call of one of the setters. -/
inductive Method where
  | setGpuMemoryThresholdBytes (bytes : UInt64)
  | setAltTabGraceSeconds (seconds : UInt64)
  | setPauseWhenBackgrounded (pause : Bool)
  | setIdleGraceSeconds (seconds : UInt64)
  | setBackupIntervalHours (hours : UInt64)
  | setBackupRetentionCount (count : UInt64)
deriving DecidableEq

def Method.setter : Method → Setter
  | setGpuMemoryThresholdBytes bytes => Settings.setGpuMemoryThresholdBytes bytes
  | setAltTabGraceSeconds seconds => Settings.setAltTabGraceSeconds seconds
  | setPauseWhenBackgrounded pause => Settings.setPauseWhenBackgrounded pause
  | setIdleGraceSeconds seconds => Settings.setIdleGraceSeconds seconds
  | setBackupIntervalHours hours => Settings.setBackupIntervalHours hours
  | setBackupRetentionCount count => Settings.setBackupRetentionCount count

/-! ### Registers -/

/-- The settings. -/
inductive Setting where
  | gpuMemoryThresholdBytes
  | altTabGraceSeconds
  | pauseWhenBackgrounded
  | idleGraceSeconds
  | backupIntervalHours
  | backupRetentionCount
deriving DecidableEq

/-- The key of the row. -/
def Setting.key : Setting → String
  | gpuMemoryThresholdBytes => SettingsRepo.gpuMemoryThresholdBytes
  | altTabGraceSeconds => SettingsRepo.altTabGraceSeconds
  | pauseWhenBackgrounded => SettingsRepo.pauseWhenBackgrounded
  | idleGraceSeconds => SettingsRepo.idleGraceSeconds
  | backupIntervalHours => SettingsRepo.backupIntervalHours
  | backupRetentionCount => SettingsRepo.backupRetentionCount

/-- What a setting is in the configuration. -/
inductive Field where
  | number (n : ℕ)
  | flag (b : Bool)
deriving DecidableEq

/-- What a setting is in the configuration. -/
def field (config : TrackerConfig) : Setting → Field
  | .gpuMemoryThresholdBytes => .number config.gate.gpuMemoryThresholdBytes
  | .altTabGraceSeconds => .number config.altTabGrace
  | .pauseWhenBackgrounded => .flag config.pauseWhenBackgrounded
  | .idleGraceSeconds => .number config.idleGrace
  | .backupIntervalHours => .number config.backup.interval
  | .backupRetentionCount => .number config.backup.retention

/-- What a value of a setting comes to in the configuration. -/
def Setting.ofU64 : Setting → UInt64 → Field
  | gpuMemoryThresholdBytes, n => .number n.toNat
  | altTabGraceSeconds, n | idleGraceSeconds, n => .number (fromSecs n)
  | backupIntervalHours, n => .number (fromSecs (saturatingMul n 3600))
  | backupRetentionCount, n => .number (usizeOf n)
  | pauseWhenBackgrounded, n => .flag (n ≠ 0)

/-- What the text of a row comes to in the configuration. -/
def Setting.parse : Setting → String → Option Field
  | pauseWhenBackgrounded, s => (SettingsRepo.parseBool s).map .flag
  | setting, s => (SettingsRepo.parseU64 s).map setting.ofU64

/-- What the setting is without a row. -/
def Setting.fallback : Setting → Field
  | gpuMemoryThresholdBytes => ofU64 gpuMemoryThresholdBytes SettingsRepo.defaultGpuMemoryThresholdBytes
  | altTabGraceSeconds => ofU64 altTabGraceSeconds SettingsRepo.defaultAltTabGraceSeconds
  | pauseWhenBackgrounded => .flag SettingsRepo.defaultPauseWhenBackgrounded
  | idleGraceSeconds => ofU64 idleGraceSeconds SettingsRepo.defaultIdleGraceSeconds
  | backupIntervalHours => ofU64 backupIntervalHours SettingsRepo.defaultBackupIntervalHours
  | backupRetentionCount => ofU64 backupRetentionCount SettingsRepo.defaultBackupRetentionCount

/-- The setting as it is stored, if it can be read. -/
def stored (table : SettingsTable) (setting : Setting) : Option Field :=
  (SettingsRepo.getRaw table setting.key).elim (some setting.fallback) setting.parse

/-- The setting as it is in force. -/
def live (config : TrackerConfig) (setting : Setting) : Option Field := some (field config setting)

/-- The getter of a setting returns what is in force. -/
def InForce (table : SettingsTable) (config : TrackerConfig) : Setting → Prop
  | .gpuMemoryThresholdBytes => ∃ n, getGpuMemoryThresholdBytes table = .ok n ∧
    config.gate.gpuMemoryThresholdBytes = n.toNat
  | .altTabGraceSeconds => ∃ n, getAltTabGraceSeconds table = .ok n ∧ config.altTabGrace = fromSecs n
  | .pauseWhenBackgrounded => ∃ b, getPauseWhenBackgrounded table = .ok b ∧
    config.pauseWhenBackgrounded = b
  | .idleGraceSeconds => ∃ n, getIdleGraceSeconds table = .ok n ∧ config.idleGrace = fromSecs n
  | .backupIntervalHours => ∃ n, getBackupIntervalHours table = .ok n ∧
    config.backup.interval = fromSecs (saturatingMul n 3600)
  | .backupRetentionCount => ∃ n, getBackupRetentionCount table = .ok n ∧
    config.backup.retention = usizeOf n

/-- A value, seen as a field. -/
theorem elim_map_eq_some_iff {α : Type} (raw : Option String) (fallback : α) (parse : String → Option α)
    (g : α → Field) (f : Field) :
    raw.elim (some (g fallback)) (fun s => (parse s).map g) = some f ↔
      ∃ v, raw.elim (some fallback) parse = some v ∧ f = g v := by
  cases raw with
  | none => exact ⟨fun h => ⟨fallback, rfl, (Option.some.inj h).symm⟩,
      fun ⟨_, h_v, h_f⟩ => by rw [h_f, ← Option.some.inj h_v]; rfl⟩
  | some s =>
    refine Option.map_eq_some_iff.trans (exists_congr fun v => and_congr_right fun _ => ?_)
    exact eq_comm

/-- **A getter returns what is in force** exactly if the row and the configuration agree. -/
theorem inForce_iff (table : SettingsTable) (config : TrackerConfig) (setting : Setting) :
    InForce table config setting ↔ stored table setting = live config setting := by
  -- the five numbers go through the same text, so their case is proved once
  have h_u64 : ∀ (key : String) (fallback : UInt64) (setting : Setting) (f : Field),
      (∃ n, SettingsRepo.getU64 table key fallback = .ok n ∧ f = setting.ofU64 n) ↔
        (SettingsRepo.getRaw table key).elim (some (setting.ofU64 fallback))
          (fun s => (SettingsRepo.parseU64 s).map setting.ofU64) = some f := by
    intro key fallback setting f
    rw [elim_map_eq_some_iff]
    exact exists_congr fun n => and_congr_left fun _ => SettingsRepo.getParsed_eq_ok_iff
  have h_number : ∀ a b, Field.number a = .number b ↔ a = b := by simp
  -- the flag has a text of its own
  cases setting with
  | pauseWhenBackgrounded =>
    refine Iff.trans ?_ (elim_map_eq_some_iff _ _ SettingsRepo.parseBool .flag _).symm
    refine exists_congr fun b => and_congr SettingsRepo.getParsed_eq_ok_iff ?_
    exact ⟨fun h => congrArg Field.flag h, fun h => Field.flag.inj h⟩
  | gpuMemoryThresholdBytes =>
    refine Iff.trans ?_ (h_u64 SettingsRepo.gpuMemoryThresholdBytes SettingsRepo.defaultGpuMemoryThresholdBytes
      .gpuMemoryThresholdBytes (field config .gpuMemoryThresholdBytes))
    exact exists_congr fun n => and_congr_right fun _ => (h_number _ _).symm
  | altTabGraceSeconds =>
    refine Iff.trans ?_ (h_u64 SettingsRepo.altTabGraceSeconds SettingsRepo.defaultAltTabGraceSeconds
      .altTabGraceSeconds (field config .altTabGraceSeconds))
    exact exists_congr fun n => and_congr_right fun _ => (h_number _ _).symm
  | idleGraceSeconds =>
    refine Iff.trans ?_ (h_u64 SettingsRepo.idleGraceSeconds SettingsRepo.defaultIdleGraceSeconds
      .idleGraceSeconds (field config .idleGraceSeconds))
    exact exists_congr fun n => and_congr_right fun _ => (h_number _ _).symm
  | backupIntervalHours =>
    refine Iff.trans ?_ (h_u64 SettingsRepo.backupIntervalHours SettingsRepo.defaultBackupIntervalHours
      .backupIntervalHours (field config .backupIntervalHours))
    exact exists_congr fun n => and_congr_right fun _ => (h_number _ _).symm
  | backupRetentionCount =>
    refine Iff.trans ?_ (h_u64 SettingsRepo.backupRetentionCount SettingsRepo.defaultBackupRetentionCount
      .backupRetentionCount (field config .backupRetentionCount))
    exact exists_congr fun n => and_congr_right fun _ => (h_number _ _).symm

/-! ### What is loaded -/

section Loaded

variable (failure : String → Option Error) (table : SettingsTable)

/-- What a setting is loaded as: its fallback, where it cannot be read. -/
def loaded (setting : Setting) : Field :=
  match failure setting.key with
  | some _ => setting.fallback
  | none => (stored table setting).getD setting.fallback

/-- What is loaded, seen as a field. -/
theorem loadParsed_eq {α : Type} (parse : String → Option α) (message key : String) (fallback : α)
    (g : α → Field) :
    g (loadParsed failure table (SettingsRepo.getParsed parse message) key fallback) =
      match failure key with
      | some _ => g fallback
      | none => ((SettingsRepo.getRaw table key).elim (some (g fallback))
          fun s => (parse s).map g).getD (g fallback) := by
  unfold loadParsed
  -- a failing read falls back to the default, as does a text that does not parse
  cases failure key with
  | some e => rfl
  | none =>
    unfold SettingsRepo.getParsed
    cases SettingsRepo.getRaw table key with
    | none => rfl
    | some s =>
      show _ = ((parse s).map g).getD (g fallback)
      cases h : parse s with
      | none =>
        simp only [h]
        rfl
      | some n =>
        simp only [h]
        rfl

/-- **The configuration** has every setting as it is loaded. -/
theorem field_resolveTrackerConfig (setting : Setting) :
    field (resolveTrackerConfig failure table) setting = loaded failure table setting := by
  cases setting with
  | pauseWhenBackgrounded => exact loadParsed_eq failure table SettingsRepo.parseBool _ _ _ .flag
  | gpuMemoryThresholdBytes =>
    exact loadParsed_eq failure table SettingsRepo.parseU64 _ _ _ (Setting.ofU64 .gpuMemoryThresholdBytes)
  | altTabGraceSeconds =>
    exact loadParsed_eq failure table SettingsRepo.parseU64 _ _ _ (Setting.ofU64 .altTabGraceSeconds)
  | idleGraceSeconds =>
    exact loadParsed_eq failure table SettingsRepo.parseU64 _ _ _ (Setting.ofU64 .idleGraceSeconds)
  | backupIntervalHours =>
    exact loadParsed_eq failure table SettingsRepo.parseU64 _ _ _ (Setting.ofU64 .backupIntervalHours)
  | backupRetentionCount =>
    exact loadParsed_eq failure table SettingsRepo.parseU64 _ _ _ (Setting.ofU64 .backupRetentionCount)

end Loaded

/-! ### What a setter writes -/

/-- The setting that a method is about. -/
def Method.setting : Method → Setting
  | setGpuMemoryThresholdBytes _ => .gpuMemoryThresholdBytes
  | setAltTabGraceSeconds _ => .altTabGraceSeconds
  | setPauseWhenBackgrounded _ => .pauseWhenBackgrounded
  | setIdleGraceSeconds _ => .idleGraceSeconds
  | setBackupIntervalHours _ => .backupIntervalHours
  | setBackupRetentionCount _ => .backupRetentionCount

/-- What it sets that to. -/
def Method.field : Method → Field
  | setGpuMemoryThresholdBytes bytes => Setting.ofU64 .gpuMemoryThresholdBytes bytes
  | setAltTabGraceSeconds seconds => Setting.ofU64 .altTabGraceSeconds seconds
  | setPauseWhenBackgrounded pause => .flag pause
  | setIdleGraceSeconds seconds => Setting.ofU64 .idleGraceSeconds seconds
  | setBackupIntervalHours hours => Setting.ofU64 .backupIntervalHours (max hours 1)
  | setBackupRetentionCount count => Setting.ofU64 .backupRetentionCount (max count 1)

/-- The write of a method, to either register. -/
def Method.write (m : Method) : Setting × Option Field := (m.setting, some m.field)

theorem Setting.key_injective : Function.Injective Setting.key := by
  intro a b h
  cases a <;> cases b <;> first | rfl | exact absurd h (by decide)

/-- A row that is written is read as what was written, and every other setting as before. -/
theorem stored_insert (setting : Setting) {text : String} {f : Field}
    (h : setting.parse text = some f) (table : SettingsTable) :
    stored (table.insert setting.key text) = put (stored table) (setting, some f) := by
  funext setting'
  unfold stored put
  rw [SettingsRepo.getRaw_insert]
  by_cases h_setting : setting' = setting
  · subst h_setting
    rw [if_pos rfl, Function.update_self]
    exact h
  · rw [if_neg (Setting.key_injective.ne h_setting), Function.update_of_ne h_setting]

/-- **A setter stores** its setting. -/
theorem Method.writeTable_ok (m : Method) (table : SettingsTable) :
    ∃ after, m.setter.writeTable table = .ok after ∧ stored after = put (stored table) m.write := by
  -- a number is stored as its text, which reads back as the same number
  have h_u64 : ∀ (setting : Setting) (n : UInt64),
      (SettingsRepo.parseU64 (SettingsRepo.textU64 n)).map setting.ofU64 = some (setting.ofU64 n) := by
    intro setting n
    rw [SettingsRepo.parseU64_textU64]
    rfl
  have h_table : ∀ key n, SettingsRepo.setU64 table key n =
      .ok (table.insert key (SettingsRepo.textU64 n)) :=
    fun key n => SettingsRepo.setRaw_of_ne (SettingsRepo.textU64_ne_empty n) table key
  cases m with
  | setPauseWhenBackgrounded pause =>
    refine ⟨_, SettingsRepo.setRaw_of_ne (SettingsRepo.textBool_ne_empty pause) _ _,
      stored_insert .pauseWhenBackgrounded ?_ table⟩
    show (SettingsRepo.parseBool (SettingsRepo.textBool pause)).map Field.flag = _
    -- the flag is stored as `true` or `false`, which is read back
    rw [SettingsRepo.parseBool_textBool]
    rfl
  | setGpuMemoryThresholdBytes _ =>
    exact ⟨_, h_table _ _, stored_insert .gpuMemoryThresholdBytes (h_u64 _ _) table⟩
  | setAltTabGraceSeconds _ =>
    exact ⟨_, h_table _ _, stored_insert .altTabGraceSeconds (h_u64 _ _) table⟩
  | setIdleGraceSeconds _ =>
    exact ⟨_, h_table _ _, stored_insert .idleGraceSeconds (h_u64 _ _) table⟩
  | setBackupIntervalHours _ =>
    exact ⟨_, h_table _ _, stored_insert .backupIntervalHours (h_u64 _ _) table⟩
  | setBackupRetentionCount _ =>
    exact ⟨_, h_table _ _, stored_insert .backupRetentionCount (h_u64 _ _) table⟩

/-- **A setter puts in force** its setting. -/
theorem Method.live_writeConfig (m : Method) (config : TrackerConfig) :
    live (m.setter.writeConfig config) = put (live config) m.write := by
  funext setting
  unfold put
  cases m <;> cases setting <;> rfl

/-- Everything else in the configuration is as compiled in. -/
def Static (config : TrackerConfig) : Prop :=
  config.gate =
    { GateConfig.default with gpuMemoryThresholdBytes := config.gate.gpuMemoryThresholdBytes }

theorem Method.static_writeConfig (m : Method) {config : TrackerConfig} (h : Static config) :
    Static (m.setter.writeConfig config) := by
  cases m with
  | setGpuMemoryThresholdBytes bytes =>
    show ({ config.gate with gpuMemoryThresholdBytes := bytes.toNat } : GateConfig) = _
    rw [h]
    rfl
  | _ => exact h

/-- A configuration is determined by its settings. -/
theorem eq_of_live_eq {config config' : TrackerConfig} (h : Static config) (h' : Static config')
    (h_live : live config = live config') : config = config' := by
  have h_field : ∀ setting, field config setting = field config' setting :=
    fun setting => Option.some.inj (congrFun h_live setting)
  obtain ⟨gate, altTabGrace, pause, idleGrace, interval, retention⟩ := config
  obtain ⟨gate', altTabGrace', pause', idleGrace', interval', retention'⟩ := config'
  obtain rfl := Field.number.inj (h_field .altTabGraceSeconds)
  obtain rfl := Field.flag.inj (h_field .pauseWhenBackgrounded)
  obtain rfl := Field.number.inj (h_field .idleGraceSeconds)
  obtain rfl : interval = interval' := Field.number.inj (h_field .backupIntervalHours)
  obtain rfl : retention = retention' := Field.number.inj (h_field .backupRetentionCount)
  -- of the gate's part only the threshold is a setting
  have h_gate : gate = gate' := by
    rw [show gate = _ from h, show gate' = _ from h']
    exact congrArg (fun n => { GateConfig.default with gpuMemoryThresholdBytes := n })
      (Field.number.inj (h_field .gpuMemoryThresholdBytes))
  rw [h_gate]

/-! ### Calls -/

/-- How far a call has come. -/
inductive CallState where
  | storing
  /-- The row has been written, the configuration has not. -/
  | applying
  | returned (reply : Except Tracker.FdoError Unit)
deriving DecidableEq

structure Call where
  method : Method
  state : CallState := .storing
deriving DecidableEq

/-- The table and the configuration, and the writes an observer has noted. -/
structure Stores where
  table : SettingsTable
  config : TrackerConfig
  tableWrites : List (Setting × Option Field) := []
  configWrites : List (Setting × Option Field) := []

/-- A call takes its next step: which one, and the storage error its statement meets, if any. -/
structure Turn where
  call : ℕ
  failure : Option Error := none

def Call.reply (c : Call) (reply : Except Tracker.FdoError Unit) : Call :=
  { c with state := .returned reply }

/-- The next step of a call. -/
def Call.step (failure : Option Error) (s : Stores) (c : Call) : Stores × Call :=
  match c.state with
  | .storing =>
    match failure with
    -- the configuration is left alone as well
    | some e => (s, c.reply (.error (.storage e)))
    | none =>
      match c.method.setter.writeTable s.table with
      | .error e => (s, c.reply (.error (.storage e)))
      | .ok table =>
        ({ s with table := table, tableWrites := s.tableWrites ++ [c.method.write] },
          { c with state := .applying })
  -- other calls may have written the row, or the configuration, in between
  | .applying =>
    ({ s with
        config := c.method.setter.writeConfig s.config
        configWrites := s.configWrites ++ [c.method.write] },
      c.reply (.ok ()))
  | .returned _ => (s, c)

/-- How far a call is with its two writes. -/
def Call.progress (c : Call) : Progress (Setting × Option Field) :=
  match c.state with
  | .storing => .pending
  | .applying => .owing c.method.write
  | .returned _ => .returned

def Call.Returned (c : Call) : Prop := c.progress = .returned

/-- The settings as they are stored and in force, and the writes of both. -/
def Stores.view (s : Stores) : View (Setting → Option Field) (Setting × Option Field) :=
  ⟨stored s.table, live s.config, s.tableWrites, s.configWrites⟩

/-- What one step of a call does: nothing to the stores, or one of the two writes. -/
theorem Call.moves (failure : Option Error) (s : Stores) (c : Call) :
    HalfStep put s.view c.progress (c.step failure s).1.view (c.step failure s).2.progress := by
  obtain ⟨method, state⟩ := c
  cases state with
  | storing =>
    -- the store is written first, and the running config follows
    unfold Call.step
    cases failure with
    | some e => exact .nothing rfl
    | none =>
      obtain ⟨table, h_write, h_stored⟩ := method.writeTable_ok s.table
      have h_move : HalfStep put s.view .pending _ _ := .first s.view method.write
      rw [show s.view.first = stored s.table from rfl, ← h_stored] at h_move
      simp only [h_write]
      exact h_move
  | applying =>
    have h_move : HalfStep put s.view _ _ .returned := .second s.view method.write
    rw [show s.view.second = live s.config from rfl, ← method.live_writeConfig] at h_move
    exact h_move
  | returned reply => exact .nothing rfl

/-- The calls, as calls that write two stores. -/
def protocol : Protocol Turn Stores Call (Setting → Option Field) (Setting × Option Field) where
  step turn s c := c.step turn.failure s
  view := Stores.view
  progress := Call.progress
  put := put
  moves turn s c := c.moves turn.failure s

/-- The stores and the calls on them. -/
structure System extends Stores where
  calls : List Call

/-- The daemon has loaded its configuration, and calls come in. -/
def starting (failure : String → Option Error) (table : SettingsTable) (methods : List Method) :
    System where
  table := table
  config := resolveTrackerConfig failure table
  calls := methods.map fun method => ⟨method, .storing⟩

/-- One call takes a step. -/
def System.turn (s : System) (turn : Turn) : System :=
  let (stores, calls) := protocol.turn turn.call turn s.toStores s.calls
  { toStores := stores, calls := calls }

def System.run (s : System) (turns : List Turn) : System := turns.foldl System.turn s

/-! ### The invariant -/

theorem System.turn_of_none {s : System} {turn : Turn} (h : s.calls[turn.call]? = none) :
    s.turn turn = s := by
  unfold System.turn
  rw [Protocol.turn_of_none h]

theorem System.turn_of_call {s : System} {turn : Turn} {c : Call} (h : s.calls[turn.call]? = some c) :
    (s.turn turn).toStores = (c.step turn.failure s.toStores).1 := by
  unfold System.turn
  rw [Protocol.turn_of_call h]
  rfl

/-- Both stores are what their writes have made of them, and the table has been written as the
configuration has been or will be. -/
structure Inv (failure : String → Option Error) (initial : SettingsTable) (s : System) : Prop where
  static : Static s.config
  writes : protocol.Inv (stored initial) (live (resolveTrackerConfig failure initial)) s.toStores s.calls

section Invariant

variable {failure : String → Option Error} {table : SettingsTable} {s : System}

theorem Inv.starting (failure : String → Option Error) (table : SettingsTable)
    (methods : List Method) : Inv failure table (starting failure table methods) where
  static := rfl
  writes := by
    have h_owed : protocol.owed (Settings.starting failure table methods).calls = [] := by
      refine Protocol.owed_pending fun c hc => ?_
      obtain ⟨method, -, rfl⟩ := List.mem_map.mp hc
      rfl
    refine ⟨rfl, rfl, ?_⟩
    rw [h_owed]
    exact .refl []

theorem Inv.stored_table (h : Inv failure table s) :
    stored s.table = s.tableWrites.foldl put (stored table) := h.writes.first

theorem Inv.live_config (h : Inv failure table s) :
    live s.config = s.configWrites.foldl put (live (resolveTrackerConfig failure table)) :=
  h.writes.second

/-- A step of a call leaves alone what no setting is about. -/
theorem Call.static_step {stores : Stores} (h : Static stores.config) (failure : Option Error)
    (c : Call) : Static (c.step failure stores).1.config := by
  obtain ⟨method, state⟩ := c
  cases state with
  | storing =>
    unfold Call.step
    cases failure with
    | some e => exact h
    | none =>
      obtain ⟨after, h_write, -⟩ := method.writeTable_ok stores.table
      simp only [h_write]
      exact h
  | applying => exact method.static_writeConfig h
  | returned reply => exact h

/-- **One step of one call** keeps the invariant. -/
theorem Inv.turn (h : Inv failure table s) (turn : Turn) : Inv failure table (s.turn turn) where
  static := by
    cases h_call : s.calls[turn.call]? with
    | none =>
      rw [System.turn_of_none h_call]
      exact h.static
    | some c =>
      rw [System.turn_of_call h_call]
      exact Call.static_step h.static turn.failure c
  writes := h.writes.turn turn.call turn

/-- **Any interleaving** keeps the invariant. -/
theorem Inv.run (h : Inv failure table s) (turns : List Turn) :
    Inv failure table (s.run turns) := by
  induction turns generalizing s with
  | nil => exact h
  | cons turn turns ih => exact ih (h.turn turn)

/-- The configuration is what a restart would load, and every getter returns what is in force,
exactly if each setting is stored as it is in force. -/
theorem agrees_iff (h : Static s.config) :
    (s.config = resolveTrackerConfig (fun _ => none) s.table ∧
        ∀ setting, InForce s.table s.config setting) ↔
      ∀ setting, live s.config setting = stored s.table setting := by
  refine ⟨fun h_both setting => ?_, fun h_all => ⟨?_, fun setting => ?_⟩⟩
  · exact ((inForce_iff _ _ _).mp (h_both.2 setting)).symm
  · refine eq_of_live_eq h rfl (funext fun setting => ?_)
    unfold live
    rw [field_resolveTrackerConfig]
    have h_stored : stored s.table setting = some (field s.config setting) := (h_all setting).symm
    show _ = some ((stored s.table setting).getD setting.fallback)
    rw [h_stored]
    rfl
  · exact (inForce_iff _ _ _).mpr (h_all setting).symm

/-- A setting is loaded as it is stored, if it can be read and is, or is stored as its fallback. -/
theorem live_resolve_iff (setting : Setting) :
    live (resolveTrackerConfig failure table) setting = stored table setting ↔
      ∃ f, stored table setting = some f ∧ (failure setting.key = none ∨ f = setting.fallback) := by
  unfold live
  rw [field_resolveTrackerConfig]
  unfold loaded
  cases h_failure : failure setting.key with
  -- a read that failed has put the default in force
  | some e =>
    refine ⟨fun h => ⟨_, h.symm, Or.inr rfl⟩, ?_⟩
    rintro ⟨f, h_stored, h_none | rfl⟩
    · exact nomatch h_none
    · exact h_stored.symm
  -- and one that went through, what is stored
  | none =>
    refine ⟨fun h => ⟨_, h.symm, Or.inl rfl⟩, ?_⟩
    rintro ⟨f, h_stored, _⟩
    show some ((stored table setting).getD setting.fallback) = _
    rw [h_stored]
    rfl

end Invariant

/-- **The configuration in force is the stored one**: once all calls of setters have returned, it is
what a restart would load, and every getter returns what is in force, if and only if for every setting
the last write of the table is the last write of the configuration, and a setting that no call has
written could be read and was, when the daemon started, or is stored as its fallback. -/
theorem config_agrees_iff (failure : String → Option Error) (table : SettingsTable)
    (methods : List Method) (turns : List Turn)
    (h_returned : ∀ call ∈ ((starting failure table methods).run turns).calls, call.Returned) :
    (((starting failure table methods).run turns).config =
          resolveTrackerConfig (fun _ => none) ((starting failure table methods).run turns).table ∧
        ∀ setting, InForce ((starting failure table methods).run turns).table
          ((starting failure table methods).run turns).config setting) ↔
      ∀ setting,
        last setting ((starting failure table methods).run turns).configWrites =
            last setting ((starting failure table methods).run turns).tableWrites ∧
          (last setting ((starting failure table methods).run turns).configWrites = none →
            ∃ f, stored table setting = some f ∧
              (failure setting.key = none ∨ f = setting.fallback)) := by
  have h_inv := (Inv.starting failure table methods).run turns
  -- no write is owed any more, so the two stores have been written about the same settings
  have h_writes : (((starting failure table methods).run turns).tableWrites).Perm
      ((starting failure table methods).run turns).configWrites := h_inv.writes.returned h_returned
  rw [agrees_iff h_inv.static, h_inv.stored_table, h_inv.live_config]
  refine forall_congr' fun setting => ?_
  rw [foldl_put_eq_iff (last_eq_none_congr h_writes.symm setting), live_resolve_iff]

/-! ### Two calls -/

/-- Two calls for the grace window after a loss of the foreground: in each turn, one takes a step. -/
def graceTwice (turns : List ℕ) : System :=
  (starting (fun _ => none) ∅ [.setAltTabGraceSeconds 30, .setAltTabGraceSeconds 45]).run
    (turns.map fun call => ⟨call, none⟩)

/-- One call after the other. -/
theorem config_agrees_iff_serial :
    (graceTwice [0, 0, 1, 1]).config =
        resolveTrackerConfig (fun _ => none) (graceTwice [0, 0, 1, 1]).table ∧
      ∀ setting, InForce (graceTwice [0, 0, 1, 1]).table (graceTwice [0, 0, 1, 1]).config setting := by
  -- both calls returned, and the second one began after the first had finished
  refine (config_agrees_iff (fun _ => none) ∅ _ _ ?_).mpr fun setting => ⟨rfl, ?_⟩
  · intro call h_call
    have h_calls : (graceTwice [0, 0, 1, 1]).calls =
        [⟨.setAltTabGraceSeconds 30, .returned (.ok ())⟩,
          ⟨.setAltTabGraceSeconds 45, .returned (.ok ())⟩] := rfl
    have h_mem : call ∈ (graceTwice [0, 0, 1, 1]).calls := h_call
    rw [h_calls, List.mem_cons, List.mem_singleton] at h_mem
    rcases h_mem with rfl | rfl
    · rfl
    · rfl
  · exact fun _ => ⟨setting.fallback, rfl, Or.inl rfl⟩

/-- **Crossed writes**: both calls return, 45 seconds are stored and returned by the getter, and 30
seconds are in force. -/
theorem config_disagrees :
    (graceTwice [0, 1, 1, 0]).calls =
        [⟨.setAltTabGraceSeconds 30, .returned (.ok ())⟩,
          ⟨.setAltTabGraceSeconds 45, .returned (.ok ())⟩] ∧
      (graceTwice [0, 1, 1, 0]).config.altTabGrace = fromSecs 30 ∧
      (resolveTrackerConfig (fun _ => none) (graceTwice [0, 1, 1, 0]).table).altTabGrace =
        fromSecs 45 ∧
      getAltTabGraceSeconds (graceTwice [0, 1, 1, 0]).table = .ok 45 := by
  refine ⟨rfl, rfl, ?_, ?_⟩
  · decide +kernel
  · decide +kernel

end Settings

end Ludex
