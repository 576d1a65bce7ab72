import Mathlib.Data.List.AList
import Ludex.Lib.Text
import Ludex.Core.Types

/-!
# Settings persistence

`repo/settings.rs`. Values are stored as text; the typed accessors parse them. A value that has been
set by a typed accessor is read back by it (`getU64_setU64`, `getBool_setBool`).
-/

namespace Ludex

/-- The table `settings`. -/
abbrev SettingsTable := AList fun _ : String => String

namespace SettingsRepo

/-- Per-process GPU memory threshold, in bytes. -/
def gpuMemoryThresholdBytes : String := "gpu_memory_threshold_bytes"

/-- 50 MiB. -/
def defaultGpuMemoryThresholdBytes : UInt64 := 50 * 1024 * 1024

/-- Hours between periodic backups. -/
def backupIntervalHours : String := "backup_interval_hours"

def defaultBackupIntervalHours : UInt64 := 24

/-- Number of backups to retain. -/
def backupRetentionCount : String := "backup_retention_count"

def defaultBackupRetentionCount : UInt64 := 14

/-- Seconds between the loss of the foreground and the end of the session. -/
def altTabGraceSeconds : String := "alt_tab_grace_seconds"

def defaultAltTabGraceSeconds : UInt64 := 15

/-- Whether losing the foreground pauses the session. -/
def pauseWhenBackgrounded : String := "pause_when_backgrounded"

def defaultPauseWhenBackgrounded : Bool := true

/-- Seconds of every idle interval that are forgiven. -/
def idleGraceSeconds : String := "idle_grace_seconds"

def defaultIdleGraceSeconds : UInt64 := 3 * 60

/-- The value stored under a key. -/
def getRaw (table : SettingsTable) (key : String) : Option String := table.lookup key

/-- Store a value under a key. Empty values are rejected. -/
def setRaw (table : SettingsTable) (key value : String) : Except Error SettingsTable :=
  if value = "" then .error (.invariant "settings value must not be empty")
  else .ok (table.insert key value)

/-- What the text of a `u64` setting says. -/
def parseU64 (s : String) : Option UInt64 := (Text.parseUnsigned 64 s.toList).map UInt64.ofNat

/-- What the text of a `bool` setting says. -/
def parseBool (s : String) : Option Bool :=
  if s = "1" ∨ s = "true" then some true else if s = "0" ∨ s = "false" then some false else none

/-- Get a setting, or the fallback when the row is absent. -/
def getParsed {α : Type} (parse : String → Option α) (message : String) (table : SettingsTable)
    (key : String) (fallback : α) : Except Error α :=
  match getRaw table key with
  | none => .ok fallback
  | some s =>
    match parse s with
    | some v => .ok v
    | none => .error (.invariant message)

def getU64 : SettingsTable → String → UInt64 → Except Error UInt64 :=
  getParsed parseU64 "settings value is not a valid u64"

def getBool : SettingsTable → String → Bool → Except Error Bool :=
  getParsed parseBool "settings value is not a valid bool"

/-- The text of a `u64` setting. -/
def textU64 (value : UInt64) : String := Nat.repr value.toNat

/-- The text of a `bool` setting. -/
def textBool (value : Bool) : String := if value then "1" else "0"

def setU64 (table : SettingsTable) (key : String) (value : UInt64) : Except Error SettingsTable :=
  setRaw table key (textU64 value)

def setBool (table : SettingsTable) (key : String) (value : Bool) : Except Error SettingsTable :=
  setRaw table key (textBool value)

/-- The accessors read what they have written. -/
theorem parseU64_textU64 (value : UInt64) : parseU64 (textU64 value) = some value := by
  unfold parseU64 textU64
  rw [Nat.toList_repr, Text.parseUnsigned_toDigits value.toNat_lt, Option.map_some,
    UInt64.ofNat_toNat]

theorem parseBool_textBool (value : Bool) : parseBool (textBool value) = some value := by
  cases value with
  | true => decide
  | false => decide

theorem textU64_ne_empty (value : UInt64) : textU64 value ≠ "" := Nat.repr_ne_empty

theorem textBool_ne_empty (value : Bool) : textBool value ≠ "" := by
  cases value with
  | true => decide
  | false => decide

/-- A value that is not empty is stored. -/
theorem setRaw_of_ne {value : String} (h : value ≠ "") (table : SettingsTable) (key : String) :
    setRaw table key value = .ok (table.insert key value) := if_neg h

theorem getRaw_insert (table : SettingsTable) (key value key' : String) :
    getRaw (table.insert key value) key' = if key' = key then some value else getRaw table key' := by
  unfold getRaw
  by_cases h_key : key' = key
  · subst h_key
    rw [if_pos rfl, AList.lookup_insert]
  · rw [if_neg h_key, AList.lookup_insert_ne h_key]

/-- A setting is got if its row can be parsed, or is absent. -/
theorem getParsed_eq_ok_iff {α : Type} {parse : String → Option α} {message : String}
    {table : SettingsTable} {key : String} {fallback v : α} :
    getParsed parse message table key fallback = .ok v ↔
      (getRaw table key).elim (some fallback) parse = some v := by
  unfold getParsed
  cases getRaw table key with
  | none => exact ⟨fun h => congrArg some (Except.ok.inj h), fun h => by cases h; rfl⟩
  | some s =>
    show _ ↔ parse s = some v
    cases h_parse : parse s with
    | none =>
      simp only [h_parse]
      exact ⟨nofun, nofun⟩
    | some w =>
      simp only [h_parse]
      exact ⟨fun h => congrArg some (Except.ok.inj h), fun h => by cases h; rfl⟩

/-- **A `u64` setting** is read back, whatever the fallback is. -/
theorem getU64_setU64 (table : SettingsTable) (key : String) (value fallback : UInt64) :
    ∃ after, setU64 table key value = .ok after ∧ getU64 after key fallback = .ok value := by
  refine ⟨_, setRaw_of_ne (textU64_ne_empty value) table key, getParsed_eq_ok_iff.mpr ?_⟩
  rw [getRaw_insert, if_pos rfl]
  exact parseU64_textU64 value

/-- **A `bool` setting** is read back, whatever the fallback is. -/
theorem getBool_setBool (table : SettingsTable) (key : String) (value fallback : Bool) :
    ∃ after, setBool table key value = .ok after ∧ getBool after key fallback = .ok value := by
  refine ⟨_, setRaw_of_ne (textBool_ne_empty value) table key, getParsed_eq_ok_iff.mpr ?_⟩
  rw [getRaw_insert, if_pos rfl]
  exact parseBool_textBool value

end SettingsRepo

end Ludex
