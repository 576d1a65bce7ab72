import Ludex.Lib.Text
import Ludex.Core.OpenRows
import Ludex.Core.SessionMerge

/-!
# The D-Bus interface of the daemon

The listings of `Tracker` in `dbus.rs`: the applications, the most recent sessions and those of one
application. `listRecentSessions_one` says
what a caller that asks for a single session gets: a session whose start no other one comes after in
the order of the texts, and by `exists_listRecentSessions_one` any such session, according to the
order in which the rows are visited. So the first row is open for certain exactly when all of these
are (`forall_first_iff`).
-/

namespace Ludex

/-- `strum`'s `snake_case`. -/
def ExitReason.toString : ExitReason → String
  | terminated => "terminated"
  | foregroundChanged => "foreground_changed"
  | recovered => "recovered"
  | sleepSplit => "sleep_split"

/-- Session row shaped for the GUI. -/
structure SessionSummary where
  id : ℤ
  applicationId : ℤ
  productName : String
  startedAt : String
  /-- Empty for an open session. -/
  endedAt : String
  fullRuntimeSeconds : ℤ
  interactiveRuntimeSeconds : ℤ
  exitReason : String
  fragmentIds : List ℤ
deriving DecidableEq

/-- A session whose start no other one comes after in the order of the texts. -/
def Database.Newest (d : Database) (s : Session) : Prop :=
  Sql.Top OffsetDateTime.textLt Session.startedAt d.sessions s

instance (d : Database) : DecidablePred d.Newest := fun s =>
  inferInstanceAs (Decidable (Sql.Top OffsetDateTime.textLt Session.startedAt d.sessions s))

/-- `strum`'s `snake_case`. -/
def LauncherType.toString : LauncherType → String
  | steam => "steam"
  | lutris => "lutris"
  | heroic => "heroic"
  | flatpak => "flatpak"
  | native => "native"

/-- Application row shaped for the GUI. -/
structure ApplicationSummary where
  id : ℤ
  launcherType : String
  launcherId : String
  productName : String
  publisher : String
  totalFullSeconds : ℤ
  totalInteractiveSeconds : ℤ
  runCount : ℤ
  /-- Empty for an application never played. -/
  lastPlayedAt : String
  executablePath : String
  firstSeenAt : String
  detectedVia : String
  longestFullSeconds : ℤ
deriving DecidableEq

namespace ApplicationRepo

/-- `ORDER BY last_played_at DESC NULLS LAST, product_name ASC`: the first of two rows comes before the
second. -/
def listedBefore (a b : Option OffsetDateTime × String) : Bool :=
  match a.1, b.1 with
  | some t, some u =>
    OffsetDateTime.textLt u t || (!OffsetDateTime.textLt t u && decide (a.2 < b.2))
  | some _, none => true
  | none, some _ => false
  | none, none => decide (a.2 < b.2)

/-- All applications, given an order in which the rows are visited. -/
def list (rows : List Application) : List Application :=
  Sql.orderBy listedBefore (fun a => (a.lastPlayedAt, a.productName)) rows

end ApplicationRepo

namespace Tracker

open SessionRepo SessionMerge

/-- `format_datetime`. -/
def formatDatetime (t : OffsetDateTime) : String := String.ofList t.text

def applicationSummaryFrom (app : Application) : ApplicationSummary where
  id := app.id
  launcherType := app.launcherType.toString
  launcherId := app.launcherId
  productName := app.productName
  publisher := app.publisher.getD ""
  totalFullSeconds := app.statTotalFull
  totalInteractiveSeconds := app.statTotalInteractive
  runCount := app.statRunCount
  lastPlayedAt := (app.lastPlayedAt.map formatDatetime).getD ""
  executablePath := app.executablePath.getD ""
  firstSeenAt := formatDatetime app.firstSeenAt
  detectedVia := app.detectedVia.getD ""
  longestFullSeconds := app.statLongestFull

/-- Every tracked application, most recently played first. -/
def listApplications (rows : List Application) : List ApplicationSummary :=
  (ApplicationRepo.list rows).map applicationSummaryFrom

/-- One application, or none. -/
def getApplication (d : Database) (id : ℤ) : List ApplicationSummary :=
  ((ApplicationRepo.findById d id).map applicationSummaryFrom).toList

/-- The summary of a span. -/
def sessionSummary (span : RecentSession × List ℤ) : SessionSummary where
  id := span.1.id
  applicationId := span.1.applicationId
  productName := span.1.productName
  startedAt := formatDatetime span.1.startedAt
  endedAt := (span.1.endedAt.map formatDatetime).getD ""
  fullRuntimeSeconds := span.1.fullRuntimeSeconds
  interactiveRuntimeSeconds := span.1.interactiveRuntimeSeconds
  exitReason := (span.1.exitReason.map ExitReason.toString).getD ""
  fragmentIds := span.2

/-- The most recent sessions across every application. The limit is on the rows fetched. -/
def listRecentSessions {d : Database} (scan : Scan d) (limit : ℕ) : List SessionSummary :=
  (mergeAdjacentRecent (listRecentWithApp scan (max 1 (min limit 1000))) defaultMergeGap).map
    sessionSummary

/-- The summary of a span of one application. -/
def sessionSummaryFor (applicationId : ℤ) (productName : String) (span : Session × List ℤ) :
    SessionSummary where
  id := span.1.id
  applicationId := applicationId
  productName := productName
  startedAt := formatDatetime span.1.startedAt
  endedAt := (span.1.endedAt.map formatDatetime).getD ""
  fullRuntimeSeconds := span.1.fullRuntimeSeconds
  interactiveRuntimeSeconds := span.1.interactiveRuntimeSeconds
  exitReason := (span.1.exitReason.map ExitReason.toString).getD ""
  fragmentIds := span.2

/-- The most recent sessions of one application, whose name has been looked up before. -/
def listSessionsForApplication {d : Database} (scan : Scan d) (productName : String)
    (applicationId : ℤ) (limit : ℕ) : List SessionSummary :=
  (mergeAdjacentSession (listForApplication scan applicationId (max 1 (min limit 1000)))
    defaultMergeGap).map (sessionSummaryFor applicationId productName)

/-! ### The end of a session -/

/-- The text of an instant has something in it that `trim` leaves. -/
theorem trimIsEmpty_formatDatetime (t : OffsetDateTime) :
    Text.trimIsEmpty (formatDatetime t) = false := by
  refine List.all_eq_false.mpr ⟨'Z', ?_, by decide⟩
  rw [formatDatetime, String.toList_ofList, OffsetDateTime.text, Calendar.rfc3339]
  exact List.mem_append_right _ (List.mem_append_right _ List.mem_cons_self)

/-- `ended_at` is blank for the sessions that are open. -/
theorem trimIsEmpty_endedAt (s : Session) (a : Application) (ids : List ℤ) :
    Text.trimIsEmpty (sessionSummary (recentRow s a, ids)).endedAt = s.isOpen := by
  show Text.trimIsEmpty ((s.endedAt.map formatDatetime).getD "") = s.isOpen
  unfold Session.isOpen
  cases s.endedAt with
  | none => rfl
  | some endedAt => exact trimIsEmpty_formatDatetime endedAt

/-- Then it is empty. -/
theorem endedAt_eq_empty_iff (s : Session) (a : Application) (ids : List ℤ) :
    (sessionSummary (recentRow s a, ids)).endedAt = "" ↔ s.isOpen = true := by
  refine ⟨?_, ?_⟩
  · intro h_empty
    rw [← trimIsEmpty_endedAt s a ids, h_empty]
    rfl
  · intro h_open
    show (s.endedAt.map formatDatetime).getD "" = ""
    rw [Option.isNone_iff_eq_none.mp h_open]
    rfl

/-! ### The first row -/

section FirstRow

variable {d : Database}

/-- A single row is not merged with another one. -/
theorem listRecentSessions_one_eq (scan : Scan d) :
    listRecentSessions scan 1 = ((Sql.orderByDesc OffsetDateTime.textLt RecentSession.startedAt
      (joinApplications d scan.rows)).take 1).map fun row => sessionSummary (row, [row.id]) := by
  show (mergeAdjacentRecent (List.take 1 _) defaultMergeGap).map sessionSummary = _
  cases Sql.orderByDesc OffsetDateTime.textLt RecentSession.startedAt
      (joinApplications d scan.rows) with
  | nil => rfl
  | cons row rows => rfl

/-- **A listing of one session** is empty if there is none, and has one of the newest otherwise. -/
theorem listRecentSessions_one (scan : Scan d) :
    d.sessions = [] ∧ listRecentSessions scan 1 = [] ∨
      ∃ s a, d.Newest s ∧ listRecentSessions scan 1 = [sessionSummary (recentRow s a, [s.id])] := by
  rw [listRecentSessions_one_eq]
  have h_starts : (joinApplications d scan.rows).map RecentSession.startedAt
      = scan.rows.map Session.startedAt :=
    map_joinApplications (fun _ _ => rfl) fun s hs => scan.perm.mem_iff.mp hs
  cases h_sorted : Sql.orderByDesc OffsetDateTime.textLt RecentSession.startedAt
      (joinApplications d scan.rows) with
  | nil =>
    have h_rows : joinApplications d scan.rows = [] :=
      List.nil_perm.mp (h_sorted ▸ Sql.orderByDesc_perm)
    rw [h_rows] at h_starts
    have h_none : scan.rows = [] := List.map_eq_nil_iff.mp h_starts.symm
    exact Or.inl ⟨List.nil_perm.mp (h_none ▸ scan.perm), rfl⟩
  | cons row rest =>
    have h_top := OffsetDateTime.textLt_skewed.top_of_orderByDesc h_sorted
    obtain ⟨s, hs, a, -, -, rfl⟩ := mem_joinApplications.mp h_top.1
    refine Or.inr ⟨s, a, ⟨scan.perm.mem_iff.mp hs, fun s' hs' => ?_⟩, rfl⟩
    -- the other sessions have a row each, with the same start
    have h_mem : s'.startedAt ∈ (joinApplications d scan.rows).map RecentSession.startedAt := by
      rw [h_starts]
      exact List.mem_map_of_mem (scan.perm.mem_iff.mpr hs')
    obtain ⟨row', h_row', h_start⟩ := List.mem_map.mp h_mem
    rw [← h_start]
    exact h_top.2 row' h_row'

/-- It may be any of them, according to the order in which the rows are visited. -/
theorem exists_listRecentSessions_one {s : Session} (h : d.Newest s) :
    ∃ (scan : Scan d) (a : Application),
      listRecentSessions scan 1 = [sessionSummary (recentRow s a, [s.id])] := by
  obtain ⟨a, ha, h_owner⟩ := d.exists_owner h.1
  have h_perm : (s :: d.sessions.erase s).Perm d.sessions := (List.perm_cons_erase h.1).symm
  refine ⟨⟨s :: d.sessions.erase s, h_perm⟩, a, ?_⟩
  rw [listRecentSessions_one_eq]
  have h_one : d.applications.filter (fun a => a.id = s.applicationId) = [a] := by
    rw [← h_owner]
    exact Sql.filter_key_eq d.application_ids_nodup ha
  have h_join : joinApplications d (s :: d.sessions.erase s)
      = recentRow s a :: joinApplications d (d.sessions.erase s) := by
    rw [joinApplications, List.flatMap_cons, h_one]
    rfl
  have h_top : Sql.Top OffsetDateTime.textLt RecentSession.startedAt
      (recentRow s a :: joinApplications d (d.sessions.erase s)) (recentRow s a) := by
    refine ⟨List.mem_cons_self, fun row h_row => ?_⟩
    rw [← h_join] at h_row
    obtain ⟨s', hs', a', -, -, rfl⟩ := mem_joinApplications.mp h_row
    exact h.2 s' (h_perm.mem_iff.mp hs')
  show ((Sql.orderByDesc OffsetDateTime.textLt RecentSession.startedAt
    (joinApplications d (s :: d.sessions.erase s))).take 1).map _ = _
  rw [h_join, h_top.orderByDesc_cons]
  rfl

/-- **What the first row tells.** The first row is there and open, whatever the order of the visits,
if and only if a condition holds, exactly when the condition decides which of the newest sessions
are open, and does not hold where there are no sessions. -/
theorem forall_first_iff {P : Prop} :
    (∀ scan : Scan d, ((listRecentSessions scan 1).head?.any (·.endedAt = "") = true ↔ P)) ↔
      (∀ s, d.Newest s → (s.isOpen = true ↔ P)) ∧ (d.sessions = [] → ¬ P) := by
  have h_first : ∀ (s : Session) (a : Application),
      ([sessionSummary (recentRow s a, [s.id])].head?.any (·.endedAt = "") = true) ↔
        s.isOpen = true := by
    intro s a
    show decide (_ = _) = true ↔ _
    rw [decide_eq_true_eq, endedAt_eq_empty_iff]
  refine ⟨?_, ?_⟩
  · intro h_all
    refine ⟨fun s hs => ?_, fun h_none h_p => ?_⟩
    · obtain ⟨scan, a, h_list⟩ := exists_listRecentSessions_one hs
      rw [← h_all scan, h_list, h_first]
    · have h_list := h_all d.scan
      rcases listRecentSessions_one d.scan with ⟨-, h_nil⟩ | ⟨s, -, hs, -⟩
      · rw [h_nil] at h_list
        exact nomatch h_list.mpr h_p
      · exact absurd hs.1 (h_none ▸ List.not_mem_nil)
  · rintro ⟨h_newest, h_none⟩ scan
    rcases listRecentSessions_one scan with ⟨h_nil, h_list⟩ | ⟨s, a, hs, h_list⟩
    · rw [h_list]
      exact iff_of_false nofun (h_none h_nil)
    · rw [h_list, h_first, h_newest s hs]

end FirstRow

end Tracker

end Ludex
