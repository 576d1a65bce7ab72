import Ludex.Lib.GroupBy
import Ludex.Core.BlockedRepo
import Ludex.Core.SessionQueries

/-!
# Daily playtime

`SessionRepo.daily_playtime_since` groups the sessions by the local day they started on. SQLite's
`DATE(t, 'localtime')` is the parameter `day`, any function from instants to an ordered type of
dates.

The rows are a partition of the sessions that are not hidden (`IsDailyPlaytime`): a row for each day
from the cutoff's on that has one, in order, made of exactly the sessions that started on it. So the
rows do not depend on the order in which SQLite visits the sessions (`IsDailyPlaytime.unique`), and
`IsDailyPlaytime.on_eq` reads a day off them. Blocking an application takes its own sessions out and
unblocking it brings them back (`DiffersBy`). The only failure is a day on which the runtimes do
not fit into 64 bits (`DayOverflows`).
-/

namespace Ludex

/-- The aggregate of a day. -/
structure DailyPlaytime (δ : Type) where
  date : δ
  fullRuntimeSeconds : ℤ
  interactiveRuntimeSeconds : ℤ
  sessionCount : ℤ
deriving DecidableEq, Repr

namespace SessionRepo

section Query

variable {δ : Type} [LinearOrder δ] (day : OffsetDateTime → δ) {d : Database}

/-- The subquery: `SELECT a.id FROM applications a JOIN blocked_applications b ON …`. -/
def blockedIds (d : Database) (blocked : BlockedTable) : List ℤ :=
  d.applications.flatMap fun a =>
    (blocked.rows.filter fun b =>
      b.key.launcherType = a.launcherType ∧ b.key.launcherId = a.launcherId).map fun _ => a.id

/-- The `WHERE` clause. -/
def dailyWhere (d : Database) (blocked : BlockedTable) (cutoff : OffsetDateTime) (s : Session) :
    Bool :=
  decide (day cutoff ≤ day s.startedAt) && decide (s.applicationId ∉ blockedIds d blocked)

/-- The columns selected of a group. -/
def dailyRow (group : δ × List Session) : Option (DailyPlaytime δ) := do
  let full ← Sql.coalesceSum (group.2.map Session.fullRuntimeSeconds)
  let interactive ← Sql.coalesceSum (group.2.map Session.interactiveRuntimeSeconds)
  return {
    date := group.1
    fullRuntimeSeconds := full
    interactiveRuntimeSeconds := interactive
    sessionCount := group.2.length }

/-- `GROUP BY DATE(s.started_at, 'localtime') ORDER BY DATE(s.started_at, 'localtime') ASC`. -/
def dailyGroups (scan : Scan d) (blocked : BlockedTable) (cutoff : OffsetDateTime) :
    List (δ × List Session) :=
  Sql.orderBy (fun a b => decide (a < b)) Prod.fst
    (Sql.groupBy (fun s => day s.startedAt) (scan.rows.filter (dailyWhere day d blocked cutoff)))

/-- Aggregate total runtime per local calendar day for sessions on or after the local calendar day
of `cutoff`. `none` is a query that fails with "integer overflow". -/
def dailyPlaytimeSince (scan : Scan d) (blocked : BlockedTable) (cutoff : OffsetDateTime) :
    Option (List (DailyPlaytime δ)) :=
  (dailyGroups day scan blocked cutoff).mapM dailyRow

end Query

end SessionRepo

open SessionRepo

/-! ### What the rows have to be -/

namespace DailyPlaytime

variable {δ : Type}

/-- A day without play. -/
def zero (date : δ) : DailyPlaytime δ := ⟨date, 0, 0, 0⟩

/-- The row with some more sessions. -/
def add (row : DailyPlaytime δ) (sessions : List Session) : DailyPlaytime δ where
  date := row.date
  fullRuntimeSeconds := row.fullRuntimeSeconds + (sessions.map Session.fullRuntimeSeconds).sum
  interactiveRuntimeSeconds :=
    row.interactiveRuntimeSeconds + (sessions.map Session.interactiveRuntimeSeconds).sum
  sessionCount := row.sessionCount + sessions.length

@[simp] theorem add_date (row : DailyPlaytime δ) (sessions : List Session) :
    (row.add sessions).date = row.date := rfl

@[simp] theorem add_nil (row : DailyPlaytime δ) : row.add [] = row := by
  simp [add]

theorem add_append (row : DailyPlaytime δ) (xs ys : List Session) :
    row.add (xs ++ ys) = (row.add xs).add ys := by
  simp [add, add_assoc]

theorem add_perm (row : DailyPlaytime δ) {xs ys : List Session} (h : xs.Perm ys) :
    row.add xs = row.add ys := by
  unfold add
  rw [(h.map _).sum_eq, (h.map _).sum_eq, h.length_eq]

/-- The row of a date, a day without play where there is none. -/
def on [DecidableEq δ] (rows : List (DailyPlaytime δ)) (date : δ) : DailyPlaytime δ :=
  (rows.find? fun row => row.date = date).getD (.zero date)

end DailyPlaytime

/-- The session belongs to an application with one of the keys. -/
def OwnedBy (d : Database) (keys : Finset GameKey) (s : Session) : Prop :=
  ∃ a ∈ d.applications, a.id = s.applicationId ∧ a.key ∈ keys

instance (d : Database) (keys : Finset GameKey) : DecidablePred (OwnedBy d keys) := fun s =>
  inferInstanceAs (Decidable (∃ a ∈ d.applications, a.id = s.applicationId ∧ a.key ∈ keys))

section Partition

variable {δ : Type} [LinearOrder δ] (day : OffsetDateTime → δ) (d : Database)
  (blocked : Finset GameKey) (cutoff : OffsetDateTime)

/-- The sessions that started on a day and belong to no blocked application. -/
def startedOn (date : δ) : List Session :=
  d.sessions.filter fun s => ¬ OwnedBy d blocked s ∧ day s.startedAt = date

/-- **The rows as a partition** of the sessions on or after the day of the cutoff. -/
structure IsDailyPlaytime (rows : List (DailyPlaytime δ)) : Prop where
  dates : ∀ date, (∃ row ∈ rows, row.date = date) ↔
    day cutoff ≤ date ∧ ∃ s ∈ d.sessions, ¬ OwnedBy d blocked s ∧ day s.startedAt = date
  increasing : rows.Pairwise fun a b => a.date < b.date
  sums : ∀ row ∈ rows,
    row = (DailyPlaytime.zero row.date).add (startedOn day d blocked row.date)

/-- The runtimes of some day do not fit into the result. -/
def DayOverflows : Prop :=
  ∃ date, day cutoff ≤ date ∧
    2 ^ 63 ≤ ((startedOn day d blocked date).map Session.fullRuntimeSeconds).sum

/-- The rows `more` are the rows `less` with some sessions added, each on the day it started. -/
structure DiffersBy (own : List Session) (less more : List (DailyPlaytime δ)) : Prop where
  dates : ∀ date, (∃ row ∈ more, row.date = date) ↔
    (∃ row ∈ less, row.date = date) ∨
      day cutoff ≤ date ∧ ∃ s ∈ own, day s.startedAt = date
  sums : ∀ date, DailyPlaytime.on more date =
    (DailyPlaytime.on less date).add
      (own.filter fun s => day cutoff ≤ date ∧ day s.startedAt = date)

end Partition

/-! ### The query -/

/-- The runtimes of a group whose rows pass the checks of the schema. -/
theorem dailyRow_eq {δ : Type} {date : δ} {sessions : List Session} (h : ∀ s ∈ sessions, s.Checks) :
    dailyRow (date, sessions) =
      if Sql.FitsInteger (sessions.map Session.fullRuntimeSeconds).sum then
        some ((DailyPlaytime.zero date).add sessions) else none := by
  -- no column is negative, so the partial sums of SQLite cannot overflow on the way
  have h_full : ∀ x ∈ sessions.map Session.fullRuntimeSeconds, 0 ≤ x :=
    List.forall_mem_map.mpr fun s hs => (h s hs).2.1
  have h_interactive : ∀ x ∈ sessions.map Session.interactiveRuntimeSeconds, 0 ≤ x :=
    List.forall_mem_map.mpr fun s hs => (h s hs).2.2.2.1
  -- the interactive time of a row is at most its full time, so one sum fits when the other does
  have h_le : (sessions.map Session.interactiveRuntimeSeconds).sum ≤
      (sessions.map Session.fullRuntimeSeconds).sum :=
    List.sum_le_sum fun s hs => (h s hs).2.2.2.2
  have h_zero := List.sum_nonneg h_interactive
  unfold dailyRow
  rw [Sql.coalesceSum_eq h_full, Sql.coalesceSum_eq h_interactive]
  by_cases h_fits : Sql.FitsInteger (sessions.map Session.fullRuntimeSeconds).sum
  · have h_fits' : Sql.FitsInteger (sessions.map Session.interactiveRuntimeSeconds).sum := by
      unfold Sql.FitsInteger at h_fits ⊢
      omega
    rw [if_pos h_fits, if_pos h_fits', if_pos h_fits]
    simp [DailyPlaytime.add, DailyPlaytime.zero]
  · rw [if_neg h_fits, if_neg h_fits]
    rfl

section Query

variable {δ : Type} [LinearOrder δ] {day : OffsetDateTime → δ} {d : Database} {scan : Scan d}
  {blocked : BlockedTable} {cutoff : OffsetDateTime}

theorem mem_blockedIds {id : ℤ} :
    id ∈ blockedIds d blocked ↔
      ∃ a ∈ d.applications, a.id = id ∧ a.key ∈ BlockedRepo.list blocked := by
  unfold blockedIds BlockedRepo.list
  simp only [List.mem_flatMap, List.mem_map, List.mem_filter, List.mem_toFinset,
    decide_eq_true_eq]
  refine exists_congr fun a => and_congr_right fun _ => ?_
  -- the two columns of the blocked key are compared one by one
  refine ⟨?_, ?_⟩
  · rintro ⟨b, ⟨hb, h_type, h_id⟩, rfl⟩
    exact ⟨rfl, b, hb, congrArg₂ GameKey.mk h_type h_id⟩
  · rintro ⟨rfl, b, hb, h_key⟩
    exact ⟨b, ⟨hb, congrArg GameKey.launcherType h_key, congrArg GameKey.launcherId h_key⟩, rfl⟩

theorem dailyWhere_eq_true {s : Session} :
    dailyWhere day d blocked cutoff s = true ↔
      day cutoff ≤ day s.startedAt ∧ ¬ OwnedBy d (BlockedRepo.list blocked) s := by
  unfold dailyWhere
  rw [Bool.and_eq_true, decide_eq_true_eq, decide_eq_true_eq, mem_blockedIds]
  rfl

theorem mem_startedOn {keys : Finset GameKey} {date : δ} {s : Session} :
    s ∈ startedOn day d keys date ↔
      s ∈ d.sessions ∧ ¬ OwnedBy d keys s ∧ day s.startedAt = date := by
  unfold startedOn
  rw [List.mem_filter, decide_eq_true_eq]

/-- The days that have a group. -/
theorem exists_dailyGroups (scan : Scan d) {date : δ} :
    (∃ group ∈ dailyGroups day scan blocked cutoff, group.1 = date) ↔
      day cutoff ≤ date ∧
        ∃ s ∈ d.sessions, ¬ OwnedBy d (BlockedRepo.list blocked) s ∧ day s.startedAt = date := by
  unfold dailyGroups
  simp only [Sql.orderBy_perm.mem_iff, Sql.exists_groupBy, List.mem_filter, dailyWhere_eq_true,
    scan.perm.mem_iff]
  -- a group is made of the rows with its date, so it is there when one of them is
  refine ⟨?_, ?_⟩
  · rintro ⟨s, ⟨hs, h_since, h_shown⟩, rfl⟩
    exact ⟨h_since, s, hs, h_shown, rfl⟩
  · rintro ⟨h_since, s, hs, h_shown, rfl⟩
    exact ⟨s, ⟨hs, h_since, h_shown⟩, rfl⟩

/-- A group is made of the sessions that started on its day. -/
theorem dailyGroups_perm {group : δ × List Session}
    (h : group ∈ dailyGroups day scan blocked cutoff) :
    group.2.Perm (startedOn day d (BlockedRepo.list blocked) group.1) := by
  have h_since := ((exists_dailyGroups scan).mp ⟨group, h, rfl⟩).1
  unfold dailyGroups at h
  -- the rows of a group, in the order of the scan
  rw [(Sql.mem_groupBy.mp (Sql.orderBy_perm.mem_iff.mp h)).2, List.filter_filter]
  refine (scan.perm.filter _).trans (List.Perm.of_eq (List.filter_congr fun s _ => ?_))
  rw [Bool.eq_iff_iff, Bool.and_eq_true, decide_eq_true_eq, decide_eq_true_eq, dailyWhere_eq_true]
  refine ⟨fun h => ⟨h.2.2, h.1⟩, fun h => ⟨h.2, ?_, h.1⟩⟩
  rwa [h.2]

/-- **The result of the query.** -/
theorem dailyPlaytimeSince_eq :
    dailyPlaytimeSince day scan blocked cutoff =
      if ∀ group ∈ dailyGroups day scan blocked cutoff, Sql.FitsInteger
          (group.2.map Session.fullRuntimeSeconds).sum then
        some ((dailyGroups day scan blocked cutoff).map fun group =>
          (DailyPlaytime.zero group.1).add group.2)
      else none := by
  -- a row of the answer is a group whose sum fits
  have h_rows : ∀ group ∈ dailyGroups day scan blocked cutoff, dailyRow group =
      if Sql.FitsInteger (group.2.map Session.fullRuntimeSeconds).sum then
        some ((DailyPlaytime.zero group.1).add group.2) else none := by
    intro group h_group
    refine dailyRow_eq fun s hs => d.checks.2 s ?_
    exact (mem_startedOn.mp ((dailyGroups_perm h_group).mem_iff.mp hs)).1
  exact Sql.mapM_eq_ite h_rows

/-- The runtimes of the sessions of a day do not fit when they are too large. -/
theorem not_fits_iff {keys : Finset GameKey} {date : δ} {sessions : List Session}
    (h_perm : sessions.Perm (startedOn day d keys date)) :
    ¬ Sql.FitsInteger (sessions.map Session.fullRuntimeSeconds).sum ↔
      2 ^ 63 ≤ ((startedOn day d keys date).map Session.fullRuntimeSeconds).sum := by
  have h_zero : 0 ≤ ((startedOn day d keys date).map Session.fullRuntimeSeconds).sum :=
    List.sum_nonneg (List.forall_mem_map.mpr fun s hs => (d.checks.2 s (mem_startedOn.mp hs).1).2.1)
  rw [(h_perm.map Session.fullRuntimeSeconds).sum_eq]
  unfold Sql.FitsInteger
  omega

/-- The query fails if and only if the runtimes of a day do not fit. -/
theorem dailyPlaytimeSince_eq_none_iff :
    dailyPlaytimeSince day scan blocked cutoff = none ↔
      DayOverflows day d (BlockedRepo.list blocked) cutoff := by
  rw [dailyPlaytimeSince_eq]
  refine ⟨fun h_none => ?_, ?_⟩
  · by_contra h_not
    rw [if_pos fun group h_group => ?_] at h_none
    · exact absurd h_none (by simp)
    · by_contra h_large
      exact h_not ⟨group.1, ((exists_dailyGroups scan).mp ⟨group, h_group, rfl⟩).1,
        (not_fits_iff (dailyGroups_perm h_group)).mp h_large⟩
  · rintro ⟨date, h_since, h_large⟩
    -- a day that overflows has a session, so it has a group
    obtain ⟨s, hs⟩ : ∃ s, s ∈ startedOn day d (BlockedRepo.list blocked) date := by
      refine List.exists_mem_of_ne_nil _ fun h_nil => ?_
      rw [h_nil] at h_large
      exact absurd h_large (by decide)
    obtain ⟨group, h_group, rfl⟩ := (exists_dailyGroups scan).mpr
      ⟨h_since, s, mem_startedOn.mp hs⟩
    exact if_neg fun h_all =>
      (not_fits_iff (dailyGroups_perm h_group)).mpr h_large (h_all group h_group)

/-- The rows of a query that succeeds. -/
theorem isDailyPlaytime_of_eq_some {rows : List (DailyPlaytime δ)}
    (h : dailyPlaytimeSince day scan blocked cutoff = some rows) :
    IsDailyPlaytime day d (BlockedRepo.list blocked) cutoff rows := by
  rw [dailyPlaytimeSince_eq] at h
  obtain ⟨-, h_rows⟩ := Option.ite_none_right_eq_some.mp h
  obtain rfl := Option.some.inj h_rows
  refine ⟨fun date => ?_, ?_, ?_⟩
  · rw [← exists_dailyGroups scan]
    simp only [List.mem_map, exists_exists_and_eq_and, DailyPlaytime.add_date]
    rfl
  · exact List.pairwise_map.mpr Sql.pairwise_orderBy_groupBy
  · refine List.forall_mem_map.mpr fun group h_group => ?_
    exact DailyPlaytime.add_perm _ (dailyGroups_perm h_group)

end Query

/-! ### Reading the rows -/

namespace IsDailyPlaytime

variable {δ : Type} [LinearOrder δ] {day : OffsetDateTime → δ} {d : Database}
  {blocked : Finset GameKey} {cutoff : OffsetDateTime} {rows : List (DailyPlaytime δ)}

/-- The rows are determined by the sessions. -/
theorem unique {rows' : List (DailyPlaytime δ)} (h : IsDailyPlaytime day d blocked cutoff rows)
    (h' : IsDailyPlaytime day d blocked cutoff rows') : rows = rows' :=
  Sql.eq_of_keys (fun date => (DailyPlaytime.zero date).add (startedOn day d blocked date))
    h.increasing h'.increasing (fun date => (h.dates date).trans (h'.dates date).symm) h.sums h'.sums

/-- The row of a day, read off the rows. -/
theorem on_eq (h : IsDailyPlaytime day d blocked cutoff rows) (date : δ) :
    DailyPlaytime.on rows date =
      (DailyPlaytime.zero date).add
        (if day cutoff ≤ date then startedOn day d blocked date else []) := by
  unfold DailyPlaytime.on
  cases h_find : rows.find? fun row => row.date = date with
  -- there is a row of this date, and it holds the sum
  | some row =>
    have h_date : row.date = date := by simpa using List.find?_some h_find
    have h_mem := List.mem_of_find?_eq_some h_find
    have h_row := h.sums row h_mem
    rw [h_date] at h_row
    rw [if_pos ((h.dates date).mp ⟨row, h_mem, h_date⟩).1]
    exact h_row
  -- there is none, so nothing was played on the day, or it is before the cutoff
  | none =>
    have h_none : ¬ ∃ row ∈ rows, row.date = date := by
      rintro ⟨row, h_mem, h_date⟩
      exact List.find?_eq_none.mp h_find row h_mem (decide_eq_true h_date)
    rw [h.dates] at h_none
    split
    · next h_since =>
      have h_nil : startedOn day d blocked date = [] :=
        List.eq_nil_iff_forall_not_mem.mpr fun s hs => h_none ⟨h_since, s, mem_startedOn.mp hs⟩
      rw [h_nil, DailyPlaytime.add_nil]
      rfl
    · rw [DailyPlaytime.add_nil]
      rfl

end IsDailyPlaytime

/-! ### Blocking and unblocking -/

/-- The sessions of the application with a key. -/
def ownSessions (d : Database) (key : GameKey) : List Session :=
  d.sessions.filter fun s => OwnedBy d {key} s

section Blocking

variable {δ : Type} [LinearOrder δ] {day : OffsetDateTime → δ} {d : Database} {key : GameKey}
  {keys : Finset GameKey} {cutoff : OffsetDateTime}

theorem ownedBy_insert {s : Session} :
    OwnedBy d (insert key keys) s ↔ OwnedBy d {key} s ∨ OwnedBy d keys s := by
  unfold OwnedBy
  simp only [Finset.mem_insert, Finset.mem_singleton, and_or_left, exists_or]

/-- A session has one owner, so the keys that hide it are the one of its owner or none. -/
theorem not_ownedBy_of_own {s : Session} (h_key : key ∉ keys) (h_own : OwnedBy d {key} s) :
    ¬ OwnedBy d keys s := by
  rintro ⟨a, ha, h_id, h_mem⟩
  obtain ⟨a', ha', h_id', h_key'⟩ := h_own
  obtain rfl := d.application_unique ha ha' (h_id.trans h_id'.symm)
  rw [Finset.mem_singleton.mp h_key'] at h_mem
  exact h_key h_mem

theorem not_ownedBy_iff {s : Session} (h_key : key ∉ keys) :
    ¬ OwnedBy d keys s ↔ ¬ OwnedBy d (insert key keys) s ∨ OwnedBy d {key} s := by
  rw [ownedBy_insert]
  have h_own := not_ownedBy_of_own (d := d) (s := s) h_key
  tauto

/-- The sessions of a day are those that blocking leaves and those that it hides. -/
theorem startedOn_perm (h_key : key ∉ keys) (date : δ) :
    (startedOn day d keys date).Perm
      (startedOn day d (insert key keys) date ++
        (ownSessions d key).filter fun s => day s.startedAt = date) := by
  -- a session is of the new key or of another one, not of both
  have h_exclusive : ∀ s, decide (¬ OwnedBy d (insert key keys) s ∧ day s.startedAt = date) = true →
      (decide (day s.startedAt = date) && decide (OwnedBy d {key} s)) = false := by
    intro s h_left
    have h_shown := (of_decide_eq_true h_left).1
    rw [Bool.and_eq_false_iff, decide_eq_false_iff_not, decide_eq_false_iff_not]
    exact Or.inr fun h_own => h_shown (ownedBy_insert.mpr (Or.inl h_own))
  -- so the sessions of the day split into those that stay and those that go
  have h_split := Sql.filter_or_perm h_exclusive d.sessions
  unfold startedOn ownSessions
  rw [List.filter_filter]
  refine (List.Perm.of_eq (List.filter_congr fun s _ => ?_)).trans h_split
  rw [Bool.eq_iff_iff, Bool.or_eq_true, Bool.and_eq_true]
  simp only [decide_eq_true_eq]
  rw [not_ownedBy_iff h_key]
  tauto

/-- **The rows with and without the sessions of an application.** -/
theorem IsDailyPlaytime.differsBy {less more : List (DailyPlaytime δ)} (h_key : key ∉ keys)
    (h_less : IsDailyPlaytime day d (insert key keys) cutoff less)
    (h_more : IsDailyPlaytime day d keys cutoff more) :
    DiffersBy day cutoff (ownSessions d key) less more where
  -- a date that only the taken sessions had is gone
  dates date := by
    rw [h_less.dates, h_more.dates, ← and_or_left]
    refine and_congr_right fun _ => ?_
    unfold ownSessions
    simp only [List.mem_filter, decide_eq_true_eq, not_ownedBy_iff h_key, or_and_right, and_or_left,
      exists_or, and_assoc]
  -- the sums of the other dates are smaller by what was taken
  sums date := by
    rw [h_less.on_eq, h_more.on_eq, ← DailyPlaytime.add_append]
    refine DailyPlaytime.add_perm _ ?_
    by_cases h_since : day cutoff ≤ date
    · simp only [h_since, if_true, true_and]
      exact startedOn_perm h_key date
    · simp only [h_since, if_false, false_and, decide_false, List.filter_false, List.append_nil]
      exact List.Perm.refl _

/-- Blocking an application cannot make a day overflow. -/
theorem DayOverflows.of_insert (h_key : key ∉ keys)
    (h : DayOverflows day d (insert key keys) cutoff) : DayOverflows day d keys cutoff := by
  obtain ⟨date, h_since, h_large⟩ := h
  refine ⟨date, h_since, h_large.trans ?_⟩
  rw [((startedOn_perm h_key date).map Session.fullRuntimeSeconds).sum_eq, List.map_append,
    List.sum_append]
  refine le_add_of_nonneg_right (List.sum_nonneg (List.forall_mem_map.mpr fun s hs => ?_))
  exact (d.checks.2 s (List.mem_of_mem_filter (List.mem_of_mem_filter hs))).2.1

/-- The second result is the first one without some sessions. -/
def TakesOut (day : OffsetDateTime → δ) (cutoff : OffsetDateTime) (own : List Session)
    (before after : Option (List (DailyPlaytime δ))) : Prop :=
  ∀ more, before = some more → ∃ less, after = some less ∧ DiffersBy day cutoff own less more

section Tables

variable {scan scan' : Scan d} {blocked blocked' : BlockedTable}

/-- Neither the order in which the sessions are visited nor that of the blocked keys matters. -/
theorem dailyPlaytimeSince_congr (h : BlockedRepo.list blocked' = BlockedRepo.list blocked) :
    dailyPlaytimeSince day scan' blocked' cutoff = dailyPlaytimeSince day scan blocked cutoff := by
  cases h_rows : dailyPlaytimeSince day scan blocked cutoff with
  | none =>
    rw [dailyPlaytimeSince_eq_none_iff] at h_rows ⊢
    rwa [h]
  | some rows =>
    -- both listings are of the same sessions, so the order of the visits does not matter
    cases h_rows' : dailyPlaytimeSince day scan' blocked' cutoff with
    | none =>
      have h_overflows := dailyPlaytimeSince_eq_none_iff.mp h_rows'
      rw [h] at h_overflows
      rw [dailyPlaytimeSince_eq_none_iff.mpr h_overflows] at h_rows
      exact h_rows
    | some rows' =>
      have h_exact := isDailyPlaytime_of_eq_some h_rows'
      rw [h] at h_exact
      rw [h_exact.unique (isDailyPlaytime_of_eq_some h_rows)]

/-- **Blocking** takes out the sessions of the application. -/
theorem takesOut_of_list (h_key : key ∉ BlockedRepo.list blocked)
    (h_list : BlockedRepo.list blocked' = insert key (BlockedRepo.list blocked)) :
    TakesOut day cutoff (ownSessions d key) (dailyPlaytimeSince day scan blocked cutoff)
      (dailyPlaytimeSince day scan' blocked' cutoff) := by
  intro more h_more
  cases h_less : dailyPlaytimeSince day scan' blocked' cutoff with
  | none =>
    -- with fewer rows nothing overflows that did not before
    rw [dailyPlaytimeSince_eq_none_iff, h_list] at h_less
    rw [dailyPlaytimeSince_eq_none_iff.mpr (h_less.of_insert h_key)] at h_more
    exact absurd h_more (by simp)
  | some less =>
    have h_exact := isDailyPlaytime_of_eq_some h_less
    rw [h_list] at h_exact
    exact ⟨less, rfl, h_exact.differsBy h_key (isDailyPlaytime_of_eq_some h_more)⟩

end Tables

/-- **Daily playtime is a partition** of the sessions that are not hidden, unless the runtimes of a
day do not fit. Blocking and unblocking an application takes out and brings back exactly its own
sessions, and a key that is blocked already, or not at all, changes nothing. -/
theorem dailyPlaytimeSince_partition (day : OffsetDateTime → δ) (scan : Scan d)
    (blocked : BlockedTable) (cutoff : OffsetDateTime) :
    (dailyPlaytimeSince day scan blocked cutoff = none ↔
      DayOverflows day d (BlockedRepo.list blocked) cutoff) ∧
    (∀ rows, dailyPlaytimeSince day scan blocked cutoff = some rows →
      IsDailyPlaytime day d (BlockedRepo.list blocked) cutoff rows) ∧
    ∀ (key : GameKey) (at_ : OffsetDateTime) (scan' : Scan d),
      (if (BlockedRepo.insert blocked key at_).1 then
        TakesOut day cutoff (ownSessions d key) (dailyPlaytimeSince day scan blocked cutoff)
          (dailyPlaytimeSince day scan' (BlockedRepo.insert blocked key at_).2 cutoff)
      else
        dailyPlaytimeSince day scan' (BlockedRepo.insert blocked key at_).2 cutoff =
          dailyPlaytimeSince day scan blocked cutoff) ∧
      (if (BlockedRepo.remove blocked key).1 then
        TakesOut day cutoff (ownSessions d key)
          (dailyPlaytimeSince day scan' (BlockedRepo.remove blocked key).2 cutoff)
          (dailyPlaytimeSince day scan blocked cutoff)
      else
        dailyPlaytimeSince day scan' (BlockedRepo.remove blocked key).2 cutoff =
          dailyPlaytimeSince day scan blocked cutoff) := by
  refine ⟨dailyPlaytimeSince_eq_none_iff, fun _ => isDailyPlaytime_of_eq_some, fun key at_ scan' => ?_⟩
  have h_inserted := BlockedRepo.list_insert blocked key at_
  have h_removed := BlockedRepo.list_remove blocked key
  -- per call, whether it changed the table
  refine ⟨?_, ?_⟩
  · split
    · next h_added => exact takesOut_of_list (BlockedRepo.insert_added.mp h_added) h_inserted
    · next h_kept =>
      -- the key was blocked already
      have h_mem : key ∈ BlockedRepo.list blocked :=
        not_not.mp fun h => h_kept (BlockedRepo.insert_added.mpr h)
      rw [Finset.insert_eq_of_mem h_mem] at h_inserted
      exact dailyPlaytimeSince_congr h_inserted
  · split
    · next h_deleted =>
      refine takesOut_of_list ?_ ?_
      · rw [h_removed]
        exact Finset.notMem_erase key _
      · rw [h_removed, Finset.insert_erase (BlockedRepo.remove_deleted.mp h_deleted)]
    · -- the key was not blocked
      next h_kept =>
      rw [Finset.erase_eq_of_notMem fun h => h_kept (BlockedRepo.remove_deleted.mpr h)] at h_removed
      exact dailyPlaytimeSince_congr h_removed

/-- Two games of which the counters say that each was played for `2 ^ 62` seconds. -/
def hugeDay : Database where
  applications := [
    ApplicationRepo.newRow 1 (newSteam "10" (.firstDay 0)),
    ApplicationRepo.newRow 2 (newSteam "20" (.firstDay 0))]
  sessions := [
    closeRow ⟨2 ^ 62, 0, .firstDay 200⟩ .terminated (newRow 1 1 (.firstDay 100)),
    closeRow ⟨2 ^ 62, 0, .firstDay 400⟩ .terminated (newRow 2 2 (.firstDay 300))]
  groups := []
  applicationSeq := 2
  sessionSeq := 2
  checks := by decide
  uniques := by decide
  foreignKeys := by decide

/-- Together they do not fit, and there are no rows at all. -/
theorem hugeDay_fails :
    ¬ ∀ (day : OffsetDateTime → ℤ) (d : Database) (scan : Scan d) (blocked : BlockedTable)
      (cutoff : OffsetDateTime), ∃ rows, dailyPlaytimeSince day scan blocked cutoff = some rows ∧
        IsDailyPlaytime day d (BlockedRepo.list blocked) cutoff rows := by
  intro h
  obtain ⟨rows, h_rows, -⟩ :=
    h (fun _ => 0) hugeDay hugeDay.scan ⟨[], List.nodup_nil⟩ (.firstDay 0)
  -- the sum of the day is above the integer limit, so the listing fails
  have h_none : dailyPlaytimeSince (fun _ => (0 : ℤ)) hugeDay.scan ⟨[], List.nodup_nil⟩
      (.firstDay 0) = none := by
    decide +kernel
  rw [h_none] at h_rows
  exact absurd h_rows (by simp)

end Blocking

end Ludex
