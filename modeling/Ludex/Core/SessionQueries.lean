import Ludex.Lib.Chronology
import Ludex.Lib.OrderBy
import Ludex.Core.RepoRun

/-!
# The session listings

The queries of `SessionRepo` that list sessions by time: the newest ones of one application or of
all, and those of a window. They sort and compare the texts of the timestamps, so they are right
about instants except where two texts continue one another (`OffsetDateTime.CutShort`): a timestamp
on a whole second, or with a short fraction, comes after the later ones of the unit it begins.

`newestFirst_iff` says for which stored sessions and limits the newest-first listings are right, and
`listInRange_exact_iff` the same of the window. `start_at_cut_short` and `window_misses_overlap`
are inputs on which they are not.

The order in which SQLite visits the rows is not known to the code. A `Scan` is any such order.
-/

namespace Ludex

/-! ### The order of the texts -/

namespace OffsetDateTime

/-- The text of `b` goes on where the one of `a` ends. -/
def CutShort (a b : OffsetDateTime) : Prop := Calendar.CutShort a.unixNanos b.unixNanos

instance : DecidableRel CutShort := fun a b =>
  inferInstanceAs (Decidable (Calendar.CutShort a.unixNanos b.unixNanos))

/-- **The order of the texts** exchanges the instants whose texts continue one another. -/
theorem textLt_skewed : Sql.Skewed textLt CutShort where
  asymm := textLt_asymm
  trans := textLt_trans_false
  lt_iff a b := by
    rw [textLt, decide_eq_true_eq]
    exact Calendar.rfc3339_lt_iff a.inRange b.inRange
  lt_of_cut _ _ h := h.lt
  trans_cut _ _ _ h h' := h.trans h'
  nested _ _ _ _ ha hb h_le h_lt h_out := ha.nested hb h_le h_lt h_out

end OffsetDateTime

/-! ### The queries -/

/-- A session row joined against its owning application. -/
structure RecentSession where
  id : ℤ
  applicationId : ℤ
  productName : String
  launcherType : LauncherType
  launcherId : String
  startedAt : OffsetDateTime
  endedAt : Option OffsetDateTime
  fullRuntimeSeconds : ℤ
  interactiveRuntimeSeconds : ℤ
  exitReason : Option ExitReason
deriving DecidableEq

/-- The columns selected of a session and of its application. -/
def recentRow (s : Session) (a : Application) : RecentSession where
  id := s.id
  applicationId := s.applicationId
  productName := a.productName
  launcherType := a.launcherType
  launcherId := a.launcherId
  startedAt := s.startedAt
  endedAt := s.endedAt
  fullRuntimeSeconds := s.fullRuntimeSeconds
  interactiveRuntimeSeconds := s.interactiveRuntimeSeconds
  exitReason := s.exitReason

/-- An order in which the rows of `sessions` are visited. -/
structure Scan (d : Database) where
  rows : List Session
  perm : rows.Perm d.sessions

/-- The order of the rowids. -/
def Database.scan (d : Database) : Scan d := ⟨d.sessions, List.Perm.refl _⟩

/-- A timestamp as a caller gives it: local date and time with their offset from UTC. -/
structure LocalDateTime where
  /-- Nanoseconds since 1970-01-01T00:00:00, local time. -/
  localNanos : ℤ
  offsetSeconds : ℤ
deriving DecidableEq, Repr

namespace LocalDateTime

/-- Nanoseconds since 1970-01-01T00:00:00Z. -/
def instant (t : LocalDateTime) : ℤ := t.localNanos - t.offsetSeconds * Calendar.nanosPerSecond

/-- The instant has an RFC 3339 text. -/
def HasText (t : LocalDateTime) : Prop :=
  Calendar.firstNanos ≤ t.instant ∧ t.instant < Calendar.endNanos

instance (t : LocalDateTime) : Decidable t.HasText := inferInstanceAs (Decidable (_ ∧ _))

/-- `to_offset(UtcOffset::UTC)`, and the encoding of the result as a parameter. Outside the years
that have a text one of the two fails. -/
def toUtc (t : LocalDateTime) : Option OffsetDateTime :=
  if h : t.HasText then some ⟨t.instant, h⟩ else none

/-- An instant without an offset. -/
theorem instant_utc (nanos : ℤ) : instant ⟨nanos, 0⟩ = nanos := by
  unfold instant
  rw [zero_mul, sub_zero]

theorem toUtc_eq_some {nanos : ℤ} (h : Calendar.firstNanos ≤ nanos ∧ nanos < Calendar.endNanos) :
    toUtc ⟨nanos, 0⟩ = some ⟨nanos, h⟩ := by
  have h_text : HasText ⟨nanos, 0⟩ := by
    unfold HasText
    rwa [instant_utc]
  unfold toUtc
  rw [dif_pos h_text]
  exact congrArg some (OffsetDateTime.unixNanos_injective (instant_utc nanos))

theorem toUtc_eq_none {nanos : ℤ}
    (h : ¬ (Calendar.firstNanos ≤ nanos ∧ nanos < Calendar.endNanos)) :
    toUtc ⟨nanos, 0⟩ = none := by
  refine dif_neg fun h_text => h ?_
  unfold HasText at h_text
  rwa [instant_utc] at h_text

end LocalDateTime

namespace SessionRepo

/-- `FROM sessions s INNER JOIN applications a ON a.id = s.application_id`. -/
def joinApplications (d : Database) (rows : List Session) : List RecentSession :=
  rows.flatMap fun s =>
    (d.applications.filter fun a => a.id = s.applicationId).map (recentRow s)

/-- The `limit` most recent sessions of an application. -/
def listForApplication {d : Database} (scan : Scan d) (applicationId : ℤ) (limit : ℕ) :
    List Session :=
  (Sql.orderByDesc OffsetDateTime.textLt Session.startedAt
    (scan.rows.filter fun s => s.applicationId = applicationId)).take limit

/-- The `limit` most recent sessions across all applications. -/
def listRecentWithApp {d : Database} (scan : Scan d) (limit : ℕ) : List RecentSession :=
  (Sql.orderByDesc OffsetDateTime.textLt RecentSession.startedAt
    (joinApplications d scan.rows)).take limit

/-- `WHERE s.started_at < ? AND (s.ended_at IS NULL OR s.ended_at > ?)`. -/
def inWindow (from_ to_ : OffsetDateTime) (row : RecentSession) : Bool :=
  OffsetDateTime.textLt row.startedAt to_ &&
    row.endedAt.all fun endedAt => OffsetDateTime.textLt from_ endedAt

/-- Every session overlapping the half-open window, oldest first. `none` is a call that fails
because a bound cannot be encoded. -/
def listInRange {d : Database} (scan : Scan d) (from_ to_ : LocalDateTime) :
    Option (List RecentSession) := do
  let from_ ← from_.toUtc
  let to_ ← to_.toUtc
  return Sql.orderBy OffsetDateTime.textLt RecentSession.startedAt
    ((joinApplications d scan.rows).filter (inWindow from_ to_))

/-! ### The join -/

section Join

variable {d : Database} {rows : List Session}

/-- Each session is joined to its one application, so the columns of the sessions are kept. -/
theorem map_joinApplications {β : Type} {f : RecentSession → β} {g : Session → β}
    (h_column : ∀ s a, f (recentRow s a) = g s) (h_rows : ∀ s ∈ rows, s ∈ d.sessions) :
    (joinApplications d rows).map f = rows.map g := by
  -- induction on the rows: a session has exactly one owner, by the foreign key and the primary key
  induction rows with
  | nil => rfl
  | cons s rows ih =>
    obtain ⟨a, ha, h_owner⟩ := d.exists_owner (h_rows s List.mem_cons_self)
    have h_one : d.applications.filter (fun a => a.id = s.applicationId) = [a] := by
      rw [← h_owner]
      exact Sql.filter_key_eq d.application_ids_nodup ha
    have h_ih := ih fun s' hs' => h_rows s' (List.mem_cons_of_mem _ hs')
    -- so the join adds one row for it and not several
    rw [joinApplications, List.flatMap_cons, h_one, List.map_append]
    rw [joinApplications] at h_ih
    rw [h_ih, List.map_singleton, List.map_singleton, h_column]
    rfl

theorem mem_joinApplications {row : RecentSession} :
    row ∈ joinApplications d rows ↔
      ∃ s ∈ rows, ∃ a ∈ d.applications, a.id = s.applicationId ∧ row = recentRow s a := by
  simp only [joinApplications, List.mem_flatMap, List.mem_map, List.mem_filter, decide_eq_true_eq]
  refine exists_congr fun s => and_congr_right fun _ => ?_
  refine exists_congr fun a => ?_
  rw [and_assoc, eq_comm (a := row)]

theorem joinApplications_perm {rows' : List Session} (h : rows.Perm rows') :
    (joinApplications d rows).Perm (joinApplications d rows') :=
  h.flatMap_right _

end Join

/-! ### Newest first -/

section NewestFirst

variable {d : Database}

/-- Under a limit a listing by the texts is right about the instants when, for each two that the
texts exchange, as many others come after the unit of the earlier one. -/
def NewestOk (startedAts : List OffsetDateTime) (limit : ℕ) : Prop :=
  ∀ a ∈ startedAts, ∀ b ∈ startedAts, OffsetDateTime.CutShort a b →
    limit ≤ startedAts.countP fun t => a < t ∧ ¬ OffsetDateTime.CutShort a t

instance (startedAts : List OffsetDateTime) (limit : ℕ) : Decidable (NewestOk startedAts limit) :=
  inferInstanceAs (Decidable (∀ a ∈ startedAts, ∀ b ∈ startedAts, OffsetDateTime.CutShort a b →
    limit ≤ startedAts.countP fun t => a < t ∧ ¬ OffsetDateTime.CutShort a t))

theorem newestOk_perm {startedAts startedAts' : List OffsetDateTime} {limit : ℕ}
    (h : startedAts.Perm startedAts') : NewestOk startedAts limit ↔ NewestOk startedAts' limit := by
  unfold NewestOk
  simp only [h.mem_iff, h.countP_eq]

/-- A sorted and limited selection of any rows that have a start. -/
theorem latest_orderByDesc_iff {ρ : Type} {startedAt : ρ → OffsetDateTime} {rows : List ρ}
    {limit : ℕ} :
    Sql.Latest startedAt rows limit
        ((Sql.orderByDesc OffsetDateTime.textLt startedAt rows).take limit) ↔
      NewestOk (rows.map startedAt) limit := by
  rw [OffsetDateTime.textLt_skewed.latest_orderByDesc_iff, NewestOk]
  simp only [List.forall_mem_map, List.countP_map]
  rfl

/-- **When newest-first is newest-first.** The `limit` newest sessions of an application, and those
of all applications, are the ones that started last, in that order, if and only if the starts of the
sessions listed meet `NewestOk`. -/
theorem newestFirst_iff (scan : Scan d) (applicationId : ℤ) (limit : ℕ) :
    (Sql.Latest Session.startedAt (d.sessions.filter fun s => s.applicationId = applicationId) limit
        (listForApplication scan applicationId limit) ↔
      NewestOk ((d.sessions.filter fun s => s.applicationId = applicationId).map Session.startedAt)
        limit) ∧
    (Sql.Latest RecentSession.startedAt (joinApplications d d.sessions) limit
        (listRecentWithApp scan limit) ↔
      NewestOk (d.sessions.map Session.startedAt) limit) := by
  -- the one listing filters by the application, and the query orders what is left
  refine ⟨?_, ?_⟩
  · -- the rows come in the order of the scan, which the listing does not depend on
    have h_perm := scan.perm.filter fun s => s.applicationId = applicationId
    rw [← newestOk_perm (h_perm.map Session.startedAt), ← latest_orderByDesc_iff]
    exact Sql.latest_perm h_perm.symm
  · -- the other joins every row with its application, which keeps the start of each
    have h_perm := joinApplications_perm (d := d) scan.perm
    have h_starts : (joinApplications d scan.rows).map RecentSession.startedAt
        = scan.rows.map Session.startedAt :=
      map_joinApplications (fun _ _ => rfl) fun s hs => scan.perm.mem_iff.mp hs
    rw [← newestOk_perm (scan.perm.map Session.startedAt), ← h_starts, ← latest_orderByDesc_iff]
    exact Sql.latest_perm h_perm.symm

/-- A game is closed and started again half a second later. The first session starts on a whole
second. -/
def restartedAtOnce : Database where
  applications := [ApplicationRepo.newRow 1 (newSteam "10" (.firstDay 0))]
  sessions := [
    closeRow ⟨0, 0, .firstDay 100⟩ .terminated (newRow 1 1 (.firstDay 100)),
    newRow 2 1 ⟨100500000000, by decide⟩]
  groups := []
  applicationSeq := 1
  sessionSeq := 2
  checks := by decide
  uniques := by decide
  foreignKeys := by decide

/-- The newest session is not listed: the text of its start is below the one of the whole second. -/
theorem start_at_cut_short :
    ¬ ∀ (d : Database) (scan : Scan d) (applicationId : ℤ) (limit : ℕ),
      Sql.Latest Session.startedAt
          (d.sessions.filter fun s => s.applicationId = applicationId) limit
          (listForApplication scan applicationId limit) ∧
        Sql.Latest RecentSession.startedAt (joinApplications d d.sessions) limit
          (listRecentWithApp scan limit) := by
  intro h
  have h_latest := (h restartedAtOnce restartedAtOnce.scan 1 1).1
  have h_listed : listForApplication restartedAtOnce.scan 1 1
      = [restartedAtOnce.sessions.head (by decide)] := by
    decide +kernel
  rw [h_listed] at h_latest
  obtain ⟨rest, h_rows, h_rest⟩ := h_latest.latest
  -- the session that was left out started later
  have h_left : newRow 2 1 ⟨100500000000, by decide⟩ ∈ rest := by
    have h_mem := h_rows.mem_iff.mpr
      (show newRow 2 1 ⟨100500000000, by decide⟩ ∈ _ by decide)
    rcases List.mem_append.mp h_mem with h_first | h_rest
    · exact absurd h_first (by decide)
    · exact h_rest
  exact absurd (h_rest _ List.mem_cons_self _ h_left) (by decide)

end NewestFirst

/-! ### Windows -/

section Window

variable {d : Database}

/-- The rows of the window, each once, oldest first. -/
structure ExactRange (d : Database) (from_ to_ : LocalDateTime) (rows : List RecentSession) :
    Prop where
  mem_iff : ∀ row, row ∈ rows ↔
    (∃ s ∈ d.sessions, ∃ a ∈ d.applications, a.id = s.applicationId ∧ row = recentRow s a) ∧
      row.startedAt.unixNanos < to_.instant ∧
      ∀ e, row.endedAt = some e → from_.instant < e.unixNanos
  once : (rows.map RecentSession.id).Nodup
  ordered : rows.Pairwise fun a b => a.startedAt ≤ b.startedAt

/-- The texts of two instants continue one another, so their order is exchanged. -/
def Exchanged (a b : ℤ) : Prop := Calendar.CutShort a b ∨ Calendar.CutShort b a

/-- The session started before the upper bound. -/
def StartsBefore (to_ : ℤ) (s : Session) : Prop := s.startedAt.unixNanos < to_

/-- The session was not over at the lower bound. -/
def LastsBeyond (from_ : ℤ) (s : Session) : Prop := ∀ e, s.endedAt = some e → from_ < e.unixNanos

/-- The texts exchange the start of the session and the upper bound. -/
def StartExchanged (to_ : ℤ) (s : Session) : Prop := Exchanged s.startedAt.unixNanos to_

/-- The texts exchange the lower bound and the end of the session. -/
def EndExchanged (from_ : ℤ) (s : Session) : Prop :=
  ∃ e, s.endedAt = some e ∧ Exchanged from_ e.unixNanos

/-- The condition on a session under which the comparisons of its texts with those of the bounds
lead to the right answer. A start that is exchanged with the upper bound has to be irrelevant
because the session was over before the window, an end that is exchanged with the lower bound
because it began after the window. When both are, one error has to cover the other. -/
structure RightlyJudged (from_ to_ : ℤ) (s : Session) : Prop where
  start : StartExchanged to_ s → ¬ EndExchanged from_ s → ¬ LastsBeyond from_ s
  end_ : ¬ StartExchanged to_ s → EndExchanged from_ s → ¬ StartsBefore to_ s
  both : StartExchanged to_ s → EndExchanged from_ s → (StartsBefore to_ s ↔ ¬ LastsBeyond from_ s)

/-- The condition under which a window is listed exactly: both bounds can be encoded, every session
is rightly judged, and the texts exchange no two starts inside the window. -/
structure RangeOk (d : Database) (from_ to_ : LocalDateTime) : Prop where
  from_text : from_.HasText
  to_text : to_.HasText
  judged : ∀ s ∈ d.sessions, RightlyJudged from_.instant to_.instant s
  ordered : ∀ s ∈ d.sessions, ∀ s' ∈ d.sessions,
    StartsBefore to_.instant s → LastsBeyond from_.instant s →
    StartsBefore to_.instant s' → LastsBeyond from_.instant s' →
      ¬ OffsetDateTime.CutShort s.startedAt s'.startedAt

/-- The comparison of two texts is right about the instants unless they are exchanged. -/
theorem textLt_of_not_exchanged {a b : OffsetDateTime} (h : ¬ Exchanged a.unixNanos b.unixNanos) :
    OffsetDateTime.textLt a b = true ↔ a.unixNanos < b.unixNanos := by
  rw [OffsetDateTime.textLt_skewed.lt_iff]
  refine ⟨?_, fun h_lt => Or.inr ⟨h_lt, fun h_cut => h (Or.inl h_cut)⟩⟩
  rintro (h_cut | ⟨h_lt, -⟩)
  · exact absurd (Or.inr h_cut) h
  · exact h_lt

/-- Then it is wrong. -/
theorem textLt_of_exchanged {a b : OffsetDateTime} (h : Exchanged a.unixNanos b.unixNanos) :
    OffsetDateTime.textLt a b = true ↔ ¬ a.unixNanos < b.unixNanos := by
  rw [OffsetDateTime.textLt_skewed.lt_iff]
  rcases h with h_cut | h_cut
  · refine iff_of_false ?_ (not_not.mpr h_cut.lt)
    rintro (h | ⟨-, h⟩)
    · exact h_cut.asymm h
    · exact h h_cut
  · exact iff_of_true (Or.inl h_cut) (lt_asymm h_cut.lt)

theorem textLt_endedAt {from_ : OffsetDateTime} {s : Session} :
    (EndExchanged from_.unixNanos s →
        ((s.endedAt.all fun e => OffsetDateTime.textLt from_ e) = true ↔
          ¬ LastsBeyond from_.unixNanos s)) ∧
      (¬ EndExchanged from_.unixNanos s →
        ((s.endedAt.all fun e => OffsetDateTime.textLt from_ e) = true ↔
          LastsBeyond from_.unixNanos s)) := by
  unfold EndExchanged LastsBeyond
  cases s.endedAt with
  | none => simp
  | some e =>
    simp only [Option.some.injEq, exists_eq_left', forall_eq', Option.all_some]
    exact ⟨textLt_of_exchanged, textLt_of_not_exchanged⟩

/-- Two answers, each of which may be exchanged, lead to the right conjunction. -/
theorem and_iff_and_of_exchanged {p q p' q' p_wrong q_wrong : Prop}
    (hp : p_wrong → (p' ↔ ¬ p)) (hp' : ¬ p_wrong → (p' ↔ p))
    (hq : q_wrong → (q' ↔ ¬ q)) (hq' : ¬ q_wrong → (q' ↔ q)) :
    (p' ∧ q' ↔ p ∧ q) ↔ (p_wrong → ¬ q_wrong → ¬ q) ∧ (¬ p_wrong → q_wrong → ¬ p) ∧
      (p_wrong → q_wrong → (p ↔ ¬ q)) := by
  -- the two comparisons go wrong independently, so there are four cases
  by_cases h_p : p_wrong
  · by_cases h_q : q_wrong
    · rw [hp h_p, hq h_q]
      simp only [h_p, h_q, not_true_eq_false, true_implies, false_implies, true_and]
      tauto
    · rw [hp h_p, hq' h_q]
      simp only [h_p, h_q, not_true_eq_false, not_false_eq_true, true_implies, false_implies,
        and_true]
      tauto
  · by_cases h_q : q_wrong
    · rw [hp' h_p, hq h_q]
      simp only [h_p, h_q, not_true_eq_false, not_false_eq_true, true_implies, false_implies,
        and_true, true_and]
      tauto
    · rw [hp' h_p, hq' h_q]
      simp only [h_p, h_q, not_false_eq_true, true_implies, false_implies, implies_true, and_true]

/-- **One session** is selected by the texts if and only if it overlaps the window, exactly when it
is rightly judged. -/
theorem inWindow_iff {from_ to_ : OffsetDateTime} {s : Session} {a : Application} :
    (inWindow from_ to_ (recentRow s a) = true ↔
        StartsBefore to_.unixNanos s ∧ LastsBeyond from_.unixNanos s) ↔
      RightlyJudged from_.unixNanos to_.unixNanos s := by
  -- a row is in the window when both of its texts are where they should be
  have h_row : inWindow from_ to_ (recentRow s a) = true ↔
      OffsetDateTime.textLt s.startedAt to_ = true ∧
        (s.endedAt.all fun e => OffsetDateTime.textLt from_ e) = true := Bool.and_eq_true_iff
  -- the first text is the start, the second the end, which may be missing
  have h_start : StartExchanged to_.unixNanos s →
      (OffsetDateTime.textLt s.startedAt to_ = true ↔ ¬ StartsBefore to_.unixNanos s) :=
    textLt_of_exchanged
  have h_start' : ¬ StartExchanged to_.unixNanos s →
      (OffsetDateTime.textLt s.startedAt to_ = true ↔ StartsBefore to_.unixNanos s) :=
    textLt_of_not_exchanged
  rw [h_row, and_iff_and_of_exchanged h_start h_start' textLt_endedAt.1 textLt_endedAt.2]
  exact ⟨fun ⟨h_start, h_end, h_both⟩ => ⟨h_start, h_end, h_both⟩,
    fun ⟨h_start, h_end, h_both⟩ => ⟨h_start, h_end, h_both⟩⟩

variable {from_ to_ : LocalDateTime}

/-- The list of the window, of any rows. -/
theorem mem_listed_iff {from_ to_ : OffsetDateTime} {rows : List RecentSession}
    {row : RecentSession} :
    row ∈ Sql.orderBy OffsetDateTime.textLt RecentSession.startedAt
        (rows.filter (inWindow from_ to_)) ↔ row ∈ rows ∧ inWindow from_ to_ row = true := by
  rw [Sql.orderBy_perm.mem_iff, List.mem_filter]

/-- A session row overlaps the window like its session. -/
theorem recentRow_overlaps {s : Session} {a : Application} :
    ((recentRow s a).startedAt.unixNanos < to_.instant ∧
        ∀ e, (recentRow s a).endedAt = some e → from_.instant < e.unixNanos) ↔
      StartsBefore to_.instant s ∧ LastsBeyond from_.instant s := Iff.rfl

/-- A joined row is selected by the texts exactly when its session is rightly judged. -/
theorem inWindow_recentRow_iff {from' to' : OffsetDateTime}
    (h_from : from'.unixNanos = from_.instant) (h_to : to'.unixNanos = to_.instant) {s : Session}
    {a : Application} :
    (inWindow from' to' (recentRow s a) = true ↔
        (recentRow s a).startedAt.unixNanos < to_.instant ∧
          ∀ e, (recentRow s a).endedAt = some e → from_.instant < e.unixNanos) ↔
      RightlyJudged from_.instant to_.instant s := by
  rw [recentRow_overlaps, ← h_from, ← h_to]
  exact inWindow_iff

theorem exactRange_iff (scan : Scan d) {from' to' : OffsetDateTime}
    (h_from : from'.unixNanos = from_.instant) (h_to : to'.unixNanos = to_.instant) :
    ExactRange d from_ to_ (Sql.orderBy OffsetDateTime.textLt RecentSession.startedAt
        ((joinApplications d scan.rows).filter (inWindow from' to'))) ↔
      (∀ s ∈ d.sessions, RightlyJudged from_.instant to_.instant s) ∧
        ∀ s ∈ d.sessions, ∀ s' ∈ d.sessions,
          StartsBefore to_.instant s → LastsBeyond from_.instant s →
          StartsBefore to_.instant s' → LastsBeyond from_.instant s' →
            ¬ OffsetDateTime.CutShort s.startedAt s'.startedAt := by
  have h_join : ∀ row, row ∈ joinApplications d scan.rows ↔
      ∃ s ∈ d.sessions, ∃ a ∈ d.applications, a.id = s.applicationId ∧ row = recentRow s a := by
    intro row
    simp only [mem_joinApplications, scan.perm.mem_iff]
  refine ⟨?_, ?_⟩
  · intro h
    refine ⟨?_, ?_⟩
    · intro s hs
      obtain ⟨a, ha, h_owner⟩ := d.exists_owner hs
      -- the row of the session is listed if the texts select it, and should be if it overlaps
      have h_row := h.mem_iff (recentRow s a)
      have h_mem := (h_join _).mpr ⟨s, hs, a, ha, h_owner, rfl⟩
      rw [mem_listed_iff, ← h_join, and_iff_right h_mem, and_iff_right h_mem] at h_row
      exact (inWindow_recentRow_iff h_from h_to).mp h_row
    · intro s hs s' hs' h_start h_end h_start' h_end'
      obtain ⟨a, ha, h_owner⟩ := d.exists_owner hs
      obtain ⟨a', ha', h_owner'⟩ := d.exists_owner hs'
      -- both rows are listed, so the order of their texts is that of their starts
      have h_mem := (h.mem_iff (recentRow s a)).mpr ⟨⟨s, hs, a, ha, h_owner, rfl⟩, h_start, h_end⟩
      have h_mem' := (h.mem_iff (recentRow s' a')).mpr
        ⟨⟨s', hs', a', ha', h_owner', rfl⟩, h_start', h_end'⟩
      have h_sorted := OffsetDateTime.textLt_skewed.pairwise_orderBy_iff.mp h.ordered
      exact h_sorted _ (Sql.orderBy_perm.mem_iff.mp h_mem) _ (Sql.orderBy_perm.mem_iff.mp h_mem')
  · rintro ⟨h_judged, h_ordered⟩
    -- of the joined rows those that overlap the window are selected
    have h_select : ∀ row ∈ joinApplications d scan.rows, inWindow from' to' row = true ↔
        row.startedAt.unixNanos < to_.instant ∧
          ∀ e, row.endedAt = some e → from_.instant < e.unixNanos := by
      intro row h_row
      obtain ⟨s, hs, a, -, -, rfl⟩ := (h_join row).mp h_row
      exact (inWindow_recentRow_iff h_from h_to).mpr (h_judged s hs)
    refine ⟨?_, ?_, ?_⟩
    · intro row
      rw [mem_listed_iff, ← h_join]
      exact and_congr_right (h_select row)
    · have h_ids : ((joinApplications d scan.rows).map RecentSession.id).Nodup := by
        rw [map_joinApplications (fun _ _ => rfl) fun s hs => scan.perm.mem_iff.mp hs,
          (scan.perm.map Session.id).nodup_iff]
        exact d.session_ids_nodup
      rw [(Sql.orderBy_perm.map RecentSession.id).nodup_iff]
      exact h_ids.sublist (List.filter_sublist.map RecentSession.id)
    · refine OffsetDateTime.textLt_skewed.pairwise_orderBy_iff.mpr fun row h_row row' h_row' => ?_
      obtain ⟨h_mem, h_in⟩ := List.mem_filter.mp h_row
      obtain ⟨h_mem', h_in'⟩ := List.mem_filter.mp h_row'
      obtain ⟨h_start, h_end⟩ := (h_select row h_mem).mp h_in
      obtain ⟨h_start', h_end'⟩ := (h_select row' h_mem').mp h_in'
      obtain ⟨s, hs, a, -, -, rfl⟩ := (h_join row).mp h_mem
      obtain ⟨s', hs', a', -, -, rfl⟩ := (h_join row').mp h_mem'
      exact h_ordered s hs s' hs' h_start h_end h_start' h_end'

/-- **When a window is listed exactly.** The call succeeds and lists the sessions that overlap the
window as instants, each once and oldest first, if and only if the stored sessions and the bounds
meet `RangeOk`. -/
theorem listInRange_exact_iff (d : Database) (scan : Scan d) (from_ to_ : LocalDateTime) :
    (∃ rows, listInRange scan from_ to_ = some rows ∧ ExactRange d from_ to_ rows) ↔
      RangeOk d from_ to_ := by
  -- the ends of the range are given as local instants, whose texts may not exist
  by_cases h_from : from_.HasText
  · by_cases h_to : to_.HasText
    · have h_list : listInRange scan from_ to_ = some (Sql.orderBy OffsetDateTime.textLt
          RecentSession.startedAt ((joinApplications d scan.rows).filter
            (inWindow ⟨from_.instant, h_from⟩ ⟨to_.instant, h_to⟩))) := by
        simp only [listInRange, LocalDateTime.toUtc, dif_pos h_from, dif_pos h_to]
        rfl
      -- both texts exist, so the query is what it says
      rw [h_list]
      simp only [Option.some.injEq, exists_eq_left']
      rw [exactRange_iff scan rfl rfl]
      exact ⟨fun ⟨h_judged, h_ordered⟩ => ⟨h_from, h_to, h_judged, h_ordered⟩,
        fun h => ⟨h.judged, h.ordered⟩⟩
    · -- without the upper one there is no text to compare with, and the query fails
      refine iff_of_false ?_ fun h => h_to h.to_text
      rintro ⟨rows, h_list, -⟩
      simp only [listInRange, LocalDateTime.toUtc, dif_pos h_from, dif_neg h_to] at h_list
      exact absurd h_list (by simp)
  · -- and without the lower one neither
    refine iff_of_false ?_ fun h => h_from h.from_text
    rintro ⟨rows, h_list, -⟩
    simp only [listInRange, LocalDateTime.toUtc, dif_neg h_from] at h_list
    exact absurd h_list (by simp)

/-- A session that ends half a second after midnight. -/
def endsAfterMidnight : Database where
  applications := [ApplicationRepo.newRow 1 (newSteam "10" (.firstDay 0))]
  sessions := [
    closeRow ⟨0, 0, ⟨86400500000000, by decide⟩⟩ .terminated (newRow 1 1 (.firstDay 86000))]
  groups := []
  applicationSeq := 1
  sessionSeq := 1
  checks := by decide
  uniques := by decide
  foreignKeys := by decide

/-- The day that begins at midnight does not list it: the text of its end is below the one of the
whole second. -/
theorem window_misses_overlap :
    ¬ ∀ (d : Database) (scan : Scan d) (from_ to_ : LocalDateTime), from_.instant < to_.instant →
      ∃ rows, listInRange scan from_ to_ = some rows ∧ ExactRange d from_ to_ rows := by
  -- the session begins in the window and ends after it, at a text that sorts before the bound
  intro h
  obtain ⟨rows, h_list, h_exact⟩ := h endsAfterMidnight endsAfterMidnight.scan
    ⟨86400000000000, 0⟩ ⟨172800000000000, 0⟩ (by decide)
  -- so the query returns nothing
  have h_none : listInRange endsAfterMidnight.scan ⟨86400000000000, 0⟩ ⟨172800000000000, 0⟩
      = some [] := by
    decide +kernel
  rw [h_none] at h_list
  obtain rfl := Option.some.inj h_list
  -- although the session does overlap the window
  have h_overlaps : (recentRow (endsAfterMidnight.sessions.head (by decide))
      (endsAfterMidnight.applications.head (by decide))) ∈ ([] : List RecentSession) := by
    refine (h_exact.mem_iff _).mpr ⟨⟨_, by decide, _, by decide, by decide, rfl⟩, by decide, ?_⟩
    rintro e h_e
    obtain rfl := Option.some.inj h_e
    decide
  exact absurd h_overlaps List.not_mem_nil

end Window

end SessionRepo

end Ludex
