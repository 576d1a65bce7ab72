import Mathlib.Data.Finset.Basic
import Ludex.Daemon.Proc
import Ludex.Daemon.SessionManager

/-!
# The cold start of the Steam source

What `steam.rs` does once at startup: it asks `/proc` which appids have a live process, and emits a
`Started` for every installed one of them. Where `/proc` cannot be listed, the `App Running` bit of
the manifest stands in.

The source keeps the set of running appids and sends events (`SourceState`). While the receiver is
there and the directories can be listed, the scan leaves exactly the installed appids that are
reported running, each started once (`coldStartScan_started`).
-/

namespace Ludex

namespace Steam

/-! ### Sending events -/

/-- What the source has done: the appids it holds for running, and the events it has sent. -/
structure SourceState where
  running : Finset String := ∅
  sent : List GameEvent := []

/-- The other end of the channel, and the wall clock, at the moment an event is to be sent. Both may
depend on what has been sent before. -/
structure Outlet where
  /-- The receiver has not been dropped. -/
  alive : List GameEvent → Bool
  now : List GameEvent → OffsetDateTime

/-- A receiver that is not dropped. -/
def Outlet.receiving (now : List GameEvent → OffsetDateTime) : Outlet := ⟨fun _ => true, now⟩

/-! ### Live appids -/

/-- The variables Steam and Proton stamp an appid into. -/
def appidVars : List String := ["SteamAppId", "STEAM_COMPAT_APP_ID"]

/-- Real appids are digits; `0` stands for a shortcut. -/
def isAppid (value : String) : Bool :=
  value ≠ "0" && value ≠ "" && value.toList.all Text.isAsciiDigit

/-- The appids a process is evidence of. -/
def appidsOf (env : Environ) : List String :=
  appidVars.filterMap fun key => (env.lookup key).filter isAppid

/-- The appids with a live process, if `/proc` can be listed. -/
def liveSteamAppids (proc : ProcSnapshot) : Option (List String) :=
  if proc.listable then
    some ((proc.pids.filterMap fun pid => proc.read pid Process.environ).flatMap appidsOf)
  else none

/-! ### Manifests -/

/-- The values read from an appmanifest. -/
structure Manifest where
  stateFlags : Option ℕ
  name : Option String

/-- An entry of a `steamapps` directory. -/
structure DirEntry where
  /-- The file name, if it is UTF-8. -/
  fileName : Option String
  /-- The content, if it can be read. -/
  manifest : Option Manifest

/-- The listing of a `steamapps` directory: `none` if it cannot be opened, and an entry is `none`
where the listing fails. -/
abbrev Library := Option (List (Option DirEntry))

/-- The appid in `appmanifest_<appid>.acf`. -/
def appidOfFileName (fileName : String) : Option String :=
  ((Text.stripPrefix "appmanifest_".toList fileName.toList).bind
    (Text.stripSuffix ".acf".toList)).bind fun appid =>
    if appid ≠ [] ∧ appid.all Text.isAsciiDigit then some (String.ofList appid) else none

/-- The installed game of an entry. -/
def DirEntry.game (entry : DirEntry) : Option (String × Manifest) :=
  match entry.fileName.bind appidOfFileName, entry.manifest with
  | some appid, some manifest => some (appid, manifest)
  | _, _ => none

def appRunningFlag : ℕ := 64

/-- An installed game is running. The manifest is asked only when there are no live appids. -/
def isRunning (liveAppids : Option (List String)) (appid : String) (manifest : Manifest) : Bool :=
  match liveAppids with
  | some live => live.contains appid
  | none => manifest.stateFlags.getD 0 &&& appRunningFlag ≠ 0

/-! ### The scan -/

/-- How a part of the scan ends. -/
inductive ScanEnd where
  | completed
  /-- The receiver is gone. -/
  | aborted
  /-- A directory could not be listed to its end. -/
  | failed
deriving DecidableEq

/-- The event for a game found running. -/
def startedEvent (appid : String) (manifest : Manifest) (at_ : OffsetDateTime) : GameEvent :=
  .started (GameKey.steam appid) (manifest.name.getD ("AppID " ++ appid)) none at_

/-- Scan the entries of a directory. -/
def scanEntries (liveAppids : Option (List String)) (outlet : Outlet) :
    List (Option DirEntry) → SourceState → SourceState × ScanEnd
  | [], s => (s, .completed)
  | none :: _, s => (s, .failed)
  | some entry :: rest, s =>
    match entry.game with
    | none => scanEntries liveAppids outlet rest s
    | some (appid, manifest) =>
      if isRunning liveAppids appid manifest ∧ appid ∉ s.running then
        let running := insert appid s.running
        if outlet.alive s.sent then
          scanEntries liveAppids outlet rest
            ⟨running, s.sent ++ [startedEvent appid manifest (outlet.now s.sent)]⟩
        else (⟨running, s.sent⟩, .aborted)
      else scanEntries liveAppids outlet rest s

/-- Scan every library. One that cannot be opened is skipped. -/
def coldStartScanWith (liveAppids : Option (List String)) (outlet : Outlet) :
    List Library → SourceState → SourceState × ScanEnd
  | [], s => (s, .completed)
  | none :: rest, s => coldStartScanWith liveAppids outlet rest s
  | some entries :: rest, s =>
    match scanEntries liveAppids outlet entries s with
    | (s, .completed) => coldStartScanWith liveAppids outlet rest s
    | (s, stopped) => (s, stopped)

/-- Emit a `Started` for every installed game that is running. -/
def coldStartScan (proc : ProcSnapshot) (outlet : Outlet) (libraries : List Library)
    (s : SourceState) : SourceState × ScanEnd :=
  coldStartScanWith (liveSteamAppids proc) outlet libraries s

/-! ### What the scan finds -/

/-- The game is installed and reported running. -/
def Found (liveAppids : Option (List String)) (entries : List DirEntry) (appid : String) : Prop :=
  ∃ entry ∈ entries, ∃ manifest, entry.game = some (appid, manifest) ∧
    isRunning liveAppids appid manifest = true

/-- A `Started` of the game has been sent. -/
def Started (sent : List GameEvent) (appid : String) : Prop :=
  ∃ displayName executablePath at_, .started (GameKey.steam appid) displayName executablePath at_ ∈ sent

/-- The games started are those held for running. -/
def SourceState.Consistent (s : SourceState) : Prop := ∀ appid, Started s.sent appid ↔ appid ∈ s.running

theorem SourceState.Consistent.started {s : SourceState} (h : s.Consistent) (appid : String)
    (manifest : Manifest) (at_ : OffsetDateTime) :
    SourceState.Consistent
      ⟨insert appid s.running, s.sent ++ [startedEvent appid manifest at_]⟩ := by
  intro appid'
  rw [Finset.mem_insert, ← h appid']
  refine ⟨?_, ?_⟩
  · -- a game that was sent before, or the one sent now
    rintro ⟨displayName, executablePath, at', h_mem⟩
    rcases List.mem_append.mp h_mem with h_mem | h_mem
    · exact Or.inr ⟨displayName, executablePath, at', h_mem⟩
    · injection List.mem_singleton.mp h_mem with h_key
      injection h_key with _ h_id
      exact Or.inl h_id
  · rintro (rfl | ⟨displayName, executablePath, at', h_mem⟩)
    · exact ⟨_, _, _, List.mem_append_right _ List.mem_cons_self⟩
    · exact ⟨displayName, executablePath, at', List.mem_append_left _ h_mem⟩

section Scan

variable {liveAppids : Option (List String)} {now : List GameEvent → OffsetDateTime}

theorem found_cons {entry : DirEntry} {entries : List DirEntry} {appid : String} :
    Found liveAppids (entry :: entries) appid ↔
      (∃ manifest, entry.game = some (appid, manifest) ∧
        isRunning liveAppids appid manifest = true) ∨ Found liveAppids entries appid := by
  unfold Found
  rw [List.exists_mem_cons_iff]

/-- **A directory that can be listed** adds the games found in it, and keeps what each start keeps. -/
theorem scanEntries_found {P : SourceState → Prop}
    (h_started : ∀ s : SourceState, P s → ∀ appid manifest at_, appid ∉ s.running →
      P ⟨insert appid s.running, s.sent ++ [startedEvent appid manifest at_]⟩)
    (entries : List DirEntry) {s : SourceState} (h : P s) :
    ∃ s', scanEntries liveAppids (.receiving now) (entries.map some) s = (s', .completed) ∧
      P s' ∧
      ∀ appid, appid ∈ s'.running ↔ appid ∈ s.running ∨ Found liveAppids entries appid := by
  induction entries generalizing s with
  | nil =>
    refine ⟨s, rfl, h, fun appid => ?_⟩
    exact (or_iff_left fun ⟨_, h_mem, _⟩ => List.not_mem_nil h_mem).symm
  | cons entry entries ih =>
    rw [List.map_cons, scanEntries]
    -- an entry that is no game adds nothing
    cases h_game : entry.game with
    | none =>
      obtain ⟨s', h_scan, h_keeps, h_running⟩ := ih h
      refine ⟨s', h_scan, h_keeps, fun appid => ?_⟩
      rw [h_running, found_cons, h_game]
      exact or_congr_right (or_iff_right fun ⟨_, h_none, _⟩ => nomatch h_none).symm
    | some game =>
      obtain ⟨appid, manifest⟩ := game
      have h_cons : ∀ appid', Found liveAppids (entry :: entries) appid' ↔
          appid' = appid ∧ isRunning liveAppids appid manifest = true ∨
            Found liveAppids entries appid' := by
        intro appid'
        rw [found_cons, h_game]
        refine or_congr_left ⟨?_, ?_⟩
        · rintro ⟨manifest', h_eq, h_run⟩
          obtain ⟨rfl, rfl⟩ := Prod.mk.inj (Option.some.inj h_eq)
          exact ⟨rfl, h_run⟩
        · rintro ⟨rfl, h_run⟩
          exact ⟨manifest, rfl, h_run⟩
      by_cases h_new : isRunning liveAppids appid manifest = true ∧ appid ∉ s.running
      · obtain ⟨s', h_scan, h_keeps, h_running⟩ :=
          ih (h_started s h appid manifest (now s.sent) h_new.2)
        refine ⟨s', ?_, h_keeps, fun appid' => ?_⟩
        · show (if _ then _ else _) = _
          rw [if_pos h_new]
          exact h_scan
        · rw [h_running, h_cons, Finset.mem_insert]
          simp only [h_new.1, and_true]
          tauto
      · obtain ⟨s', h_scan, h_keeps, h_running⟩ := ih h
        refine ⟨s', ?_, h_keeps, fun appid' => ?_⟩
        · show (if _ then _ else _) = _
          rw [if_neg h_new]
          exact h_scan
        · rw [h_running, h_cons]
          -- the game is not running, or was found before
          refine ⟨?_, ?_⟩
          · exact Or.imp_right Or.inr
          · rintro (h_old | ⟨rfl, h_run⟩ | h_found)
            · exact Or.inl h_old
            · exact Or.inl (by_contra fun h_out => h_new ⟨h_run, h_out⟩)
            · exact Or.inr h_found

/-- **The scan of libraries that can be listed** adds the games found in any of them, and keeps what
each start keeps. -/
theorem coldStartScanWith_found {P : SourceState → Prop}
    (h_started : ∀ s : SourceState, P s → ∀ appid manifest at_, appid ∉ s.running →
      P ⟨insert appid s.running, s.sent ++ [startedEvent appid manifest at_]⟩)
    (libraries : List (List DirEntry)) {s : SourceState} (h : P s) :
    ∃ s', coldStartScanWith liveAppids (.receiving now)
        (libraries.map fun entries => some (entries.map some)) s = (s', .completed) ∧
      P s' ∧
      ∀ appid, appid ∈ s'.running ↔
        appid ∈ s.running ∨ Found liveAppids libraries.flatten appid := by
  -- induction on the libraries: each is scanned with what the ones before have found
  induction libraries generalizing s with
  | nil =>
    refine ⟨s, rfl, h, fun appid => ?_⟩
    exact (or_iff_left fun ⟨_, h_mem, _⟩ => List.not_mem_nil h_mem).symm
  | cons entries libraries ih =>
    obtain ⟨s₁, h_scan₁, h_keeps₁, h_running₁⟩ :
        ∃ s₁, scanEntries liveAppids (.receiving now) (entries.map some) s = (s₁, .completed) ∧
          P s₁ ∧
          ∀ appid, appid ∈ s₁.running ↔ appid ∈ s.running ∨ Found liveAppids entries appid :=
      scanEntries_found h_started entries h
    obtain ⟨s', h_scan, h_keeps, h_running⟩ := ih h_keeps₁
    refine ⟨s', ?_, h_keeps, fun appid => ?_⟩
    · rw [List.map_cons, coldStartScanWith, h_scan₁]
      exact h_scan
    · -- a manifest is in the first library or in one of the rest
      rw [h_running, h_running₁, or_assoc]
      refine or_congr_right ?_
      unfold Found
      simp only [List.flatten_cons, List.mem_append, or_and_right, exists_or]

end Scan

/-- **The cold start** starts exactly the installed games that are reported running. -/
theorem coldStartScan_started (proc : ProcSnapshot) (now : List GameEvent → OffsetDateTime)
    (libraries : List (List DirEntry)) :
    ∃ s, coldStartScan proc (.receiving now)
        (libraries.map fun entries => some (entries.map some)) {} = (s, .completed) ∧
      s.Consistent ∧
      ∀ appid, appid ∈ s.running ↔ Found (liveSteamAppids proc) libraries.flatten appid := by
  -- nothing is sent at the start and nothing runs
  have h_empty : SourceState.Consistent {} := by
    intro appid
    refine iff_of_false ?_ (Finset.notMem_empty appid)
    rintro ⟨_, _, _, h_mem⟩
    exact List.not_mem_nil h_mem
  obtain ⟨s, h_scan, h_consistent, h_running⟩ :
      ∃ s, coldStartScan proc (.receiving now)
          (libraries.map fun entries => some (entries.map some)) {} = (s, .completed) ∧
        s.Consistent ∧
        ∀ appid, appid ∈ s.running ↔
          appid ∈ (∅ : Finset String) ∨ Found (liveSteamAppids proc) libraries.flatten appid :=
    coldStartScanWith_found (fun s h_s appid manifest at_ _ => h_s.started appid manifest at_)
      libraries h_empty
  refine ⟨s, h_scan, h_consistent, fun appid => ?_⟩
  rw [h_running]
  exact or_iff_right (Finset.notMem_empty appid)

end Steam

/-- The manifest of an installed game. -/
def manifest440 : Steam.DirEntry where
  fileName := some "appmanifest_440.acf"
  manifest := some ⟨some 4, some "Team Fortress 2"⟩

end Ludex
