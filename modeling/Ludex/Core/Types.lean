import Mathlib.Order.Lattice
import Mathlib.Algebra.Ring.Nat
import Ludex.Lib.Calendar

/-!
# Records of the core layer

The values `ludex-core` stores and hands around: applications, sessions, the snapshots written to
a session row, and the errors of the repositories. A record has the fields of the Rust struct of
that name.

Timestamps are `TEXT` columns holding RFC 3339 strings. `OffsetDateTime` is the instant such a
string encodes, and `OffsetDateTime.textLt` is the byte order SQLite compares the strings in. The
two orders disagree inside one second, where the fractions have different lengths.
-/

namespace Ludex

/-! ### Instants of the wall clock -/

/-- An instant that has an RFC 3339 text: its year has four digits. Every writer stamps
`OffsetDateTime::now_utc()`, so the text is the one in UTC. -/
structure OffsetDateTime where
  /-- Nanoseconds since 1970-01-01T00:00:00Z. -/
  unixNanos : ℤ
  inRange : Calendar.firstNanos ≤ unixNanos ∧ unixNanos < Calendar.endNanos
deriving DecidableEq

namespace OffsetDateTime

theorem unixNanos_injective : Function.Injective unixNanos := by
  rintro ⟨a, _⟩ ⟨b, _⟩ h
  obtain rfl : a = b := h
  rfl

/-- The chronological order. -/
instance : LinearOrder OffsetDateTime := LinearOrder.lift' unixNanos unixNanos_injective

theorem le_iff {a b : OffsetDateTime} : a ≤ b ↔ a.unixNanos ≤ b.unixNanos := Iff.rfl

/-- The string stored for the instant. -/
def text (t : OffsetDateTime) : List Char := Calendar.rfc3339 t.unixNanos

/-- The order in which SQLite compares the stored strings. -/
def textLt (a b : OffsetDateTime) : Bool := a.text < b.text

theorem text_injective : Function.Injective text := by
  intro a b h
  exact unixNanos_injective (Calendar.rfc3339_injective a.inRange b.inRange h)

theorem textLt_asymm (a b : OffsetDateTime) (h : textLt a b = true) : textLt b a = false := by
  rw [textLt, decide_eq_true_eq] at h
  rw [textLt, decide_eq_false_iff_not]
  exact List.lt_asymm h

theorem textLt_trans_false (a b c : OffsetDateTime) (hab : textLt a b = false)
    (hbc : textLt b c = false) : textLt a c = false := by
  rw [textLt, decide_eq_false_iff_not, List.not_lt] at hab hbc ⊢
  exact List.le_trans hbc hab

/-- Two instants neither of which is before the other in text order are the same. -/
theorem eq_of_textLt_false {a b : OffsetDateTime} (hab : textLt a b = false)
    (hba : textLt b a = false) : a = b := by
  rw [textLt, decide_eq_false_iff_not, List.not_lt] at hab hba
  exact text_injective (List.le_antisymm hba hab)

instance : NeZero 86400 := ⟨by decide⟩

/-- An instant of the first day of 1970. -/
def firstDay (second : Fin 86400) : OffsetDateTime where
  unixNanos := second.val * Calendar.nanosPerSecond
  inRange := by
    unfold Calendar.firstNanos Calendar.endNanos Calendar.nanosPerSecond
    omega

end OffsetDateTime

/-! ### Enumerations -/

/-- Origin of an application's `launcher_id`. -/
inductive LauncherType where
  | steam
  | lutris
  | heroic
  | flatpak
  | native
deriving DecidableEq, Repr

/-- Graphics subsystem observed to be in use while an application was running. -/
inductive GraphicsPlatform where
  | directX
  | openGL
  | vulkan
  | unknown
deriving DecidableEq, Repr

/-- CPU architecture reported for an application's process. -/
inductive ProcessArchitecture where
  | amd64
  | i686
  | aarch64
  | unknown
deriving DecidableEq, Repr

/-- Cause for a session ending. -/
inductive ExitReason where
  | terminated
  | foregroundChanged
  | recovered
  | sleepSplit
deriving DecidableEq, Repr

/-- Composite identity of a tracked application. -/
structure GameKey where
  launcherType : LauncherType
  launcherId : String
deriving DecidableEq, Repr

namespace GameKey

/-- A Steam AppID key. -/
def steam (appid : String) : GameKey := ⟨.steam, appid⟩

/-- A Lutris slug key. -/
def lutris (slug : String) : GameKey := ⟨.lutris, slug⟩

/-- A Heroic app-name key. -/
def heroic (appName : String) : GameKey := ⟨.heroic, appName⟩

/-- A native (non-launcher) key from a canonical exe path. -/
def native (exePath : String) : GameKey := ⟨.native, exePath⟩

end GameKey

/-- A filesystem path. The code modelled here looks at a path only through `to_string_lossy`, so a
path is that string. -/
structure PathBuf where
  lossy : String
deriving DecidableEq, Repr

/-! ### Applications -/

/-- The bytes of an icon. -/
abbrev Blob := List UInt8

/-- Four standard icon sizes. -/
structure Icons where
  icon16 : Option Blob := none
  icon32 : Option Blob := none
  icon48 : Option Blob := none
  icon256 : Option Blob := none
deriving DecidableEq

/-- Data required to insert a new application. -/
structure NewApplication where
  launcherType : LauncherType
  launcherId : String
  productName : String
  publisher : Option String
  version : Option String
  executablePath : Option String
  launcherExePath : Option String
  wineprefixPath : Option String
  installedFlatpakRef : Option String
  graphicsPlatform : GraphicsPlatform
  processArchitecture : ProcessArchitecture
  groupId : Option ℤ
  icons : Icons
  firstSeenAt : OffsetDateTime

/-- A row of the `applications` table. -/
structure Application where
  id : ℤ
  launcherType : LauncherType
  launcherId : String
  productName : String
  publisher : Option String
  version : Option String
  executablePath : Option String
  launcherExePath : Option String
  wineprefixPath : Option String
  installedFlatpakRef : Option String
  graphicsPlatform : GraphicsPlatform
  processArchitecture : ProcessArchitecture
  groupId : Option ℤ
  detectedVia : Option String
  icons : Icons
  firstSeenAt : OffsetDateTime
  lastPlayedAt : Option OffsetDateTime
  statRunCount : ℤ
  statTotalFull : ℤ
  statTotalInteractive : ℤ
  statLongestFull : ℤ
deriving DecidableEq

/-- The natural key of an application row. -/
def Application.key (a : Application) : GameKey := ⟨a.launcherType, a.launcherId⟩

/-! ### Sessions -/

/-- A row of the `sessions` table. `endedAt` is NULL while the session is open. -/
structure Session where
  id : ℤ
  applicationId : ℤ
  startedAt : OffsetDateTime
  endedAt : Option OffsetDateTime
  heartbeatAt : OffsetDateTime
  fullRuntimeSeconds : ℤ
  interactiveRuntimeSeconds : ℤ
  exitReason : Option ExitReason
deriving DecidableEq

/-- The row has `ended_at IS NULL`. -/
def Session.isOpen (s : Session) : Bool := s.endedAt.isNone

/-- The row has `ended_at IS NOT NULL`. -/
def Session.isClosed (s : Session) : Bool := s.endedAt.isSome

@[simp] theorem Session.isClosed_eq_not_isOpen (s : Session) : s.isClosed = !s.isOpen := by
  unfold Session.isClosed Session.isOpen
  cases s.endedAt <;> rfl

/-- The runtime written to a session row by a heartbeat or a close. -/
structure RuntimeSnapshot where
  fullRuntimeSeconds : ℤ
  interactiveRuntimeSeconds : ℤ
  at_ : OffsetDateTime

/-! ### Errors -/

/-- What SQLite reports for a statement it refuses, or for one it could not carry out. -/
inductive SqlError where
  /-- A `CHECK` constraint, or the type check of a `STRICT` table. -/
  | check
  /-- A primary key, a `UNIQUE` constraint or a unique index. -/
  | unique
  /-- A `REFERENCES` clause. -/
  | foreignKey
  /-- The statement or its commit could not be carried out: disk, lock, closed pool. -/
  | io
deriving DecidableEq, Repr

/-- Errors produced by the core storage layer. -/
inductive Error where
  | sql (e : SqlError)
  | invariant (message : String)
  | openSessionExists (applicationId : ℤ)
deriving DecidableEq, Repr

end Ludex
