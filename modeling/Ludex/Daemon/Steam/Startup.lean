import Ludex.Lib.Run
import Ludex.Daemon.Steam.Tail

/-!
# Starting up next to a running Steam

`SteamSource::run` installs a watch on the content log, asks `/proc` which games are live, scans the
manifests, reads the length of the log, and from then on drains what is behind that length. Steam
does not wait for it: between any two of these steps it may write state changes and start or stop
processes (`SteamMove`).

The watch only wakes the source up; a line that is written before the length is read is never
drained. So when the source has caught up, it holds the right games for running exactly if `/proc`
and the log agreed, at the two moments at which they were looked at, on every game that no later line
is about (`coldStart_exact_iff`). A game that starts in between is missed (`coldStart_misses`).
-/

namespace Ludex

namespace Steam

open Lines Run Switches

/-! ### The two sides -/

/-- A complete line that reports a state change. -/
structure StateLine where
  bytes : List UInt8
  complete : ∃ body, lf ∉ body ∧ bytes = body ++ [lf]
  reads : (readLine bytes).isSome = true

theorem StateLine.terminated (line : StateLine) : Terminated lf line.bytes := by
  obtain ⟨body, _, h_bytes⟩ := line.complete
  exact Or.inr ⟨body, h_bytes⟩

/-- How far the source has come. -/
inductive Phase where
  | subscribing
  | listing
  | scanning (liveAppids : Option (List String))
  | locating
  /-- Draining behind the length that was read. -/
  | tailing (located cursor : ℕ)
  /-- The scan has failed, and the source with it. -/
  | stopped
deriving DecidableEq

/-- Steam and the source. A log that does not exist yet is an empty one. -/
structure Startup where
  log : List UInt8
  proc : ProcSnapshot
  phase : Phase := .subscribing
  source : SourceState := {}
  /-- What `/proc` was when it was listed, for the observer. -/
  listed : ProcSnapshot := proc

/-- What happens next. -/
inductive SteamMove where
  /-- Steam writes a state change. -/
  | write (line : StateLine)
  /-- Processes start or end. -/
  | processes (proc : ProcSnapshot)
  /-- The source takes its next step. -/
  | advance

/-- The next step of the source. -/
def Startup.advance (libraries : List Library) (outlet : DrainOutlet) (s : Startup) : Startup :=
  match s.phase with
  -- the watch wakes the source up, and changes nothing else
  | .subscribing => { s with phase := .listing }
  | .listing => { s with phase := .scanning (liveSteamAppids s.proc), listed := s.proc }
  | .scanning liveAppids =>
    match coldStartScanWith liveAppids outlet.toOutlet libraries s.source with
    | (source, .failed) => { s with phase := .stopped, source := source }
    | (source, _) => { s with phase := .locating, source := source }
  | .locating => { s with phase := .tailing s.log.length s.log.length }
  | .tailing located cursor =>
    { s with
      phase := .tailing located (drainOrKeep outlet (some s.log) cursor s.source).1
      source := (drainOrKeep outlet (some s.log) cursor s.source).2 }
  | .stopped => s

def Startup.apply (libraries : List Library) (outlet : DrainOutlet) (s : Startup) :
    SteamMove → Startup
  | .write line => { s with log := s.log ++ line.bytes }
  | .processes proc => { s with proc := proc }
  | .advance => s.advance libraries outlet

/-- One move after another. -/
def Startup.step (libraries : List Library) (outlet : DrainOutlet) (s : Startup) (move : SteamMove)
    (s' : Startup) : Prop :=
  s' = s.apply libraries outlet move

/-! ### Running games -/

/-- The last that the log states about the game is that it runs. -/
def RunningPerLog (log : List UInt8) (appid : String) : Prop :=
  (stated appid (lines lf log)).getLast? = some true

/-- The game's last event is a start. -/
def Unmatched (sent : List GameEvent) (appid : String) : Prop :=
  (history false (sent.map mark) (GameKey.steam appid)).getLast? = some true

/-- The games held for running are those with an unmatched start. -/
def SourceState.Tracks (s : SourceState) : Prop :=
  ∀ appid, (history false (s.sent.map mark) (GameKey.steam appid)).getLast? =
    some (decide (appid ∈ s.running))

theorem SourceState.Tracks.unmatched {s : SourceState} (h : s.Tracks) (appid : String) :
    Unmatched s.sent appid ↔ appid ∈ s.running := by
  unfold Unmatched
  rw [h appid, Option.some_inj, decide_eq_true_iff]

/-- Later events go on from the state that the earlier ones leave the game in. -/
theorem history_append {up last : Bool} {marks : List (GameKey × Bool)} {key : GameKey}
    (h : (history up marks key).getLast? = some last) (new : List (GameKey × Bool)) :
    (history up (marks ++ new) key).getLast? = (history last new key).getLast? := by
  unfold history at h ⊢
  rw [List.getLast?_cons] at h ⊢
  rw [List.getLast?_cons, about_append, List.getLast?_append]
  obtain rfl := Option.some.inj h
  cases (about key new).getLast? with
  | none => rfl
  | some b => rfl

theorem SourceState.Tracks.started {s : SourceState} (h : s.Tracks) (appid : String)
    (manifest : Manifest) (at_ : OffsetDateTime) :
    SourceState.Tracks ⟨insert appid s.running, s.sent ++ [startedEvent appid manifest at_]⟩ := by
  intro appid'
  show (history false ((s.sent ++ [startedEvent appid manifest at_]).map mark)
    (GameKey.steam appid')).getLast? = _
  rw [List.map_append, history_append (h appid')]
  show (history (decide (appid' ∈ s.running)) [(GameKey.steam appid, true)]
    (GameKey.steam appid')).getLast? = _
  -- the event is one of this game, or says nothing about it
  by_cases h_appid : appid = appid'
  · subst h_appid
    rw [history_cons_self]
    simp [history]
  · have h_key : GameKey.steam appid ≠ GameKey.steam appid' := by
      intro h_eq
      injection h_eq with _ h_id
      exact h_appid h_id
    rw [history_cons_of_ne h_key]
    simp [history, Ne.symm h_appid]

theorem SourceState.Tracks.fed {s s' : SourceState} {fed : List (List UInt8)} (h : s.Tracks)
    (h_fed : Fed s fed s') : s'.Tracks := by
  intro appid
  rw [h_fed.marks, history_append (h appid), (feed_history s.running fed appid).2, h_fed.running]

/-! ### The invariant -/

section Invariant

variable {libraries : List (List DirEntry)} {now : List GameEvent → OffsetDateTime}
  {resolveName : List GameEvent → String → String}

/-- The libraries, which can be listed. -/
abbrev listing (libraries : List (List DirEntry)) : List Library :=
  libraries.map fun entries => some (entries.map some)

/-- What the scan of a listed `/proc` leaves. -/
structure Scanned (libraries : List (List DirEntry)) (listed : ProcSnapshot) (source : SourceState) :
    Prop where
  tracks : source.Tracks
  running : ∀ appid, appid ∈ source.running ↔
    Found (liveSteamAppids listed) libraries.flatten appid

/-- What the source knows in each phase. -/
def Startup.Knows (libraries : List (List DirEntry)) (s : Startup) : Phase → Prop
  | .subscribing => s.source = {}
  | .listing => s.source = {}
  | .scanning liveAppids => liveAppids = liveSteamAppids s.listed ∧ s.source = {}
  | .locating => Scanned libraries s.listed s.source
  | .tailing located cursor =>
    AtLine s.log located ∧ ∃ scanned, Scanned libraries s.listed scanned ∧
      Follows ⟨s.log.take located, located, scanned⟩ ⟨s.log, cursor, s.source⟩
  | .stopped => False

/-- The log has complete lines only, and the source knows what its phase says. -/
structure Startup.Inv (libraries : List (List DirEntry)) (s : Startup) : Prop where
  log : Terminated lf s.log
  knows : s.Knows libraries s.phase

/-- **The scan** leaves what it should. -/
theorem coldStartScanWith_scanned (libraries : List (List DirEntry))
    (now : List GameEvent → OffsetDateTime) (listed : ProcSnapshot) :
    ∃ source, coldStartScanWith (liveSteamAppids listed) (.receiving now) (listing libraries) {} =
        (source, .completed) ∧ Scanned libraries listed source := by
  -- nothing runs and nothing has been sent yet
  have h_empty : SourceState.Tracks {} := fun appid => rfl
  obtain ⟨source, h_scan, h_tracks, h_running⟩ :
      ∃ s, coldStartScanWith (liveSteamAppids listed) (.receiving now) (listing libraries) {} =
          (s, .completed) ∧ s.Tracks ∧
        ∀ appid, appid ∈ s.running ↔
          appid ∈ (∅ : Finset String) ∨ Found (liveSteamAppids listed) libraries.flatten appid :=
    coldStartScanWith_found (fun s h_s appid manifest at_ _ => h_s.started appid manifest at_)
      libraries h_empty
  refine ⟨source, h_scan, h_tracks, fun appid => ?_⟩
  rw [h_running]
  exact or_iff_right (Finset.notMem_empty appid)

/-- What is written to the log changes nothing that is known. -/
theorem Startup.Knows.write {s : Startup} {phase : Phase} (h : s.Knows libraries phase)
    (line : StateLine) :
    Startup.Knows libraries { s with log := s.log ++ line.bytes } phase := by
  cases phase with
  | subscribing | listing | scanning | locating | stopped => exact h
  | tailing located cursor =>
    obtain ⟨h_located, scanned, h_scanned, h_follows⟩ := h
    refine ⟨h_located.append _, scanned, h_scanned, ?_⟩
    show Follows ⟨(s.log ++ line.bytes).take located, located, scanned⟩
      ⟨s.log ++ line.bytes, cursor, s.source⟩
    rw [List.take_append_of_le_length h_located.le]
    exact h_follows.append line.bytes

/-- **The next step of the source** keeps the invariant. -/
theorem Startup.Inv.advance {s : Startup} (h : s.Inv libraries) :
    (s.advance (listing libraries) ⟨.receiving now, resolveName⟩).Inv libraries := by
  have h_knows := h.knows
  unfold Startup.advance
  cases h_phase : s.phase with
  | subscribing =>
    rw [h_phase] at h_knows
    exact ⟨h.log, h_knows⟩
  | listing =>
    rw [h_phase] at h_knows
    exact ⟨h.log, rfl, h_knows⟩
  | scanning liveAppids =>
    rw [h_phase] at h_knows
    obtain ⟨rfl, h_source⟩ := h_knows
    obtain ⟨source, h_scan, h_scanned⟩ :=
      coldStartScanWith_scanned libraries now s.listed
    simp only [h_source, h_scan]
    exact ⟨h.log, h_scanned⟩
  | locating =>
    rw [h_phase] at h_knows
    have h_end : AtLine s.log s.log.length := ⟨le_rfl, by
      rw [List.take_length]
      exact h.log⟩
    refine ⟨h.log, h_end, s.source, h_knows, ?_⟩
    show Follows ⟨s.log.take s.log.length, s.log.length, s.source⟩ ⟨s.log, s.log.length, s.source⟩
    rw [List.take_length]
    exact AtLine.follows (t := ⟨s.log, s.log.length, s.source⟩) h_end
  | tailing located cursor =>
    rw [h_phase] at h_knows
    obtain ⟨h_located, scanned, h_scanned, h_follows⟩ := h_knows
    refine ⟨h.log, h_located, scanned, h_scanned, ?_⟩
    -- a drain is a wake-up at which nothing has been appended
    have h_line : AtLine (s.log.take located) located := by
      refine ⟨(List.length_take_of_le h_located.le).ge, ?_⟩
      rw [List.take_take, min_self]
      exact h_located.terminated
    have h_drain := h_follows.trans h_line
      (h_follows.atLine.wake_follows (w := ⟨⟨.receiving now, resolveName⟩, []⟩) fun _ => rfl)
    unfold Tailing.wake at h_drain
    simp only [List.append_nil] at h_drain
    exact h_drain
  | stopped =>
    rw [h_phase] at h_knows
    exact h_knows.elim

/-- **One move** keeps the invariant. -/
theorem Startup.Inv.step {s s' : Startup} {move : SteamMove}
    (h_step : s.step (listing libraries) ⟨.receiving now, resolveName⟩ move s')
    (h : s.Inv libraries) : s'.Inv libraries := by
  obtain rfl := h_step
  cases move with
  | write line => exact ⟨h.log.append line.terminated, h.knows.write line⟩
  | processes proc => exact ⟨h.log, h.knows⟩
  | advance => exact h.advance

end Invariant

/-! ### Caught up -/

/-- What the log says is what it says behind a start of a line, or before it. -/
theorem AtLine.runningPerLog_iff {log : List UInt8} {located : ℕ} (h : AtLine log located)
    (appid : String) :
    RunningPerLog log appid ↔
      (stated appid (lines lf (log.drop located))).getLast? = some true ∨
        stated appid (lines lf (log.drop located)) = [] ∧
          RunningPerLog (log.take located) appid := by
  have h_lines : lines lf log = lines lf (log.take located) ++ lines lf (log.drop located) := by
    rw [← lines_append h.terminated, List.take_append_drop]
  unfold RunningPerLog
  rw [h_lines, stated_append, List.getLast?_append]
  cases stated appid (lines lf (log.drop located)) using List.reverseRecOn with
  | nil => simp
  | append_singleton later up => simp

/-- **A source that has caught up** holds a game for running as the last line behind the length that
was read says, and without one as the scan has found it. -/
theorem Startup.Inv.caught_up {libraries : List (List DirEntry)} {s : Startup}
    (h : s.Inv libraries) {located : ℕ} (h_phase : s.phase = .tailing located s.log.length)
    (appid : String) :
    s.source.Tracks ∧
      (appid ∈ s.source.running ↔
        (stated appid (lines lf (s.log.drop located))).getLast? = some true ∨
          stated appid (lines lf (s.log.drop located)) = [] ∧
            Found (liveSteamAppids s.listed) libraries.flatten appid) := by
  -- the whole log has been read up to here
  have h_knows := h.knows
  rw [h_phase] at h_knows
  obtain ⟨_, scanned, h_scanned, h_follows⟩ := h_knows
  have h_fed : Fed scanned (lines lf ((s.log.take s.log.length).drop located)) s.source :=
    h_follows.fed
  rw [List.take_length] at h_fed
  refine ⟨h_scanned.tracks.fed h_fed, ?_⟩
  rw [← h_scanned.running appid, h_fed.running, feed_running]
  exact mem_foldl_put_iff

/-- **The cold start loses no transition**, for a source that has caught up, if and only if `/proc`
and the log agreed, when each was looked at, on every game that no later line is about. -/
theorem coldStart_exact_iff (libraries : List (List DirEntry)) (now : List GameEvent → OffsetDateTime)
    (resolveName : List GameEvent → String → String) {log : List UInt8} (h_log : Terminated lf log)
    (proc : ProcSnapshot) {tr : List (SteamMove × Startup)}
    (h_run : IsRun (Startup.step (listing libraries) ⟨.receiving now, resolveName⟩)
      { log := log, proc := proc } tr)
    {s : Startup} (h_final : final { log := log, proc := proc } tr = s) {located : ℕ}
    (h_phase : s.phase = .tailing located s.log.length) :
    (∀ appid, (appid ∈ s.source.running ↔ RunningPerLog s.log appid) ∧
        (Unmatched s.source.sent appid ↔ RunningPerLog s.log appid)) ↔
      ∀ appid, stated appid (lines lf (s.log.drop located)) = [] →
        (Found (liveSteamAppids s.listed) libraries.flatten appid ↔
          RunningPerLog (s.log.take located) appid) := by
  have h_inv : s.Inv libraries := by
    rw [← h_final]
    exact h_run.final_invariant (Startup.Inv libraries) (fun _ _ _ => Startup.Inv.step) ⟨h_log, rfl⟩
  -- the cursor was set at the end of a line
  have h_located : AtLine s.log located := by
    have h_knows := h_inv.knows
    rw [h_phase] at h_knows
    exact h_knows.1
  refine forall_congr' fun appid => ?_
  obtain ⟨h_tracks, h_running⟩ := h_inv.caught_up h_phase appid
  -- per game: what the log says after the cursor, and what the scan found where it says nothing
  rw [h_tracks.unmatched appid, and_self, h_running, h_located.runningPerLog_iff appid]
  refine ⟨?_, ?_⟩
  · intro h_same h_none
    rw [h_none] at h_same
    simpa using h_same
  · intro h_agree
    exact or_congr_right (and_congr_right h_agree)

/-! ### A start in between -/

/-- An empty log, and no processes. -/
def quiet : Startup where
  log := []
  proc := { processes := ∅, depth := id, parent_above := by simp }

/-- The game runs. -/
def playing : ProcSnapshot :=
  .single 4242 { environ := some (AList.insert "SteamAppId" "440" ∅) } rfl

/-- The line Steam writes when the game starts. -/
def started440 : StateLine where
  bytes := startLine
  complete := ⟨startLine.dropLast, by decide +kernel, by decide +kernel⟩
  reads := by decide +kernel

/-- The game starts after `/proc` has been listed, and before or after the length is read. -/
def race (early : Bool) : List SteamMove :=
  if early then
    [.advance, .advance, .processes playing, .write started440, .advance, .advance]
  else [.advance, .advance, .advance, .advance, .processes playing, .write started440, .advance]

/-- Where the race ends. -/
def raced (early : Bool) : Startup :=
  (race early).foldl (Startup.apply (listing [[manifest440]]) ⟨.receiving fun _ => .firstDay 0,
    fun _ appid => appid⟩) quiet

/-- A game that starts after the length is read is not missed. -/
theorem coldStart_exact_iff_late :
    ("440" ∈ (raced false).source.running ↔ RunningPerLog (raced false).log "440") ∧
      (Unmatched (raced false).source.sent "440" ↔ RunningPerLog (raced false).log "440") := by
  have h_phase : (raced false).phase = .tailing 0 (raced false).log.length := by decide +kernel
  -- nothing was live when `/proc` was listed, and the log was empty
  have h_live : liveSteamAppids (raced false).listed = some [] := by decide +kernel
  have h_final : final quiet (follow (Startup.apply (listing [[manifest440]])
      ⟨.receiving fun _ => .firstDay 0, fun _ appid => appid⟩) quiet (race false)) = raced false :=
    final_follow _ quiet (race false)
  refine (coldStart_exact_iff [[manifest440]] (fun _ => .firstDay 0) (fun _ appid => appid)
    (Or.inl rfl) quiet.proc (isRun_follow _ quiet (race false)) h_final h_phase).mpr
      (fun appid _ => ?_) "440"
  rw [h_live, List.take_zero]
  refine iff_of_false ?_ ?_
  · rintro ⟨entry, _, manifest, _, h_running⟩
    exact nomatch h_running
  · intro h_stated
    exact nomatch h_stated

/-- **A game that starts between the listing of `/proc` and the reading of the length is missed.** -/
theorem coldStart_misses :
    (raced true).phase = .tailing startLine.length (raced true).log.length ∧
      "440" ∉ (raced true).source.running ∧ RunningPerLog (raced true).log "440" := by
  refine ⟨?_, ?_, ?_⟩
  · decide +kernel
  · decide +kernel
  · unfold RunningPerLog
    decide +kernel

end Steam

end Ludex
