import Ludex.Daemon.Recovery

/-!
# The map and the table

The open sessions live twice: in the map of the session manager, by game key, and in the `sessions`
table, by application. `manager_simulates` says that the two are in bijection in every state of a
run that starts with a completed recovery and meets no database failure, that no `Started` is ever
refused because of an open row, and that after the shutdown the accepted `Started` events and the
rows of the run are the same list.

Each part is an invariant of the moves:

* `Holds`: an entry of the map is an open row of the application with its key. This one survives
  failures too.
* `Matches`: and every open row has an entry. A close that fails breaks it, which is why a run has
  to be `Quiet`.
* `Booked`: the rows of the run are those of the sessions it opened, in order.
-/

namespace Ludex

open Transact SessionManager Run

/-! ### Entries are open rows -/

/-- Every entry of the map is an open row of the application that has its key. -/
def Holds (m : SessionManager) (d : Database) : Prop :=
  ∀ key o, m.open_.lookup key = some o →
    (o.sessionId, o.applicationId) ∈ d.openRows ∧ (o.applicationId, key) ∈ d.keyRows

/-- Two entries with one session are the same entry. -/
theorem Holds.injective {m : SessionManager} {d : Database} (h : Holds m d) {key key' : GameKey}
    {o o' : OpenSession} (h_o : m.open_.lookup key = some o) (h_o' : m.open_.lookup key' = some o')
    (h_session : o.sessionId = o'.sessionId) : key = key' := by
  obtain ⟨h_row, h_key⟩ := h key o h_o
  obtain ⟨h_row', h_key'⟩ := h key' o' h_o'
  rw [← h_session] at h_row'
  rw [← Database.openRows_application h_row h_row'] at h_key'
  exact Database.keyRows_key h_key h_key'

/-- Taking an entry out of the map, and its row out of the open rows. -/
theorem Holds.erase {m m' : SessionManager} {d d' : Database} (h : Holds m d) {key : GameKey}
    {o : OpenSession} (h_o : m.open_.lookup key = some o) (h_map : m'.open_ = m.open_.erase key)
    (h_rows : ∀ row ∈ d.openRows, row.1 ≠ o.sessionId → row ∈ d'.openRows)
    (h_keys : d'.keyRows = d.keyRows) : Holds m' d' := by
  intro key' o' h_o'
  rw [h_map] at h_o'
  by_cases h_key : key' = key
  · rw [h_key, AList.lookup_erase] at h_o'
    exact nomatch h_o'
  · rw [AList.lookup_erase_ne h_key] at h_o'
    obtain ⟨h_row, h_app⟩ := h key' o' h_o'
    rw [h_keys]
    refine ⟨h_rows _ h_row fun h_same => h_key ?_, h_app⟩
    exact h.injective h_o' h_o h_same

/-- **Every move keeps the entries open rows**, failures included. -/
theorem Move.holds {on : Occasion} {s t : Live} (h_move : Move on s t) (h : Holds s.1 s.2) :
    Holds t.1 t.2 := by
  cases h_move with
  | noted record h_plain => exact h
  | notified notification => exact h
  | refused key at_ aid h_on h_absent h_key h_open => exact h
  | created key displayName executablePath at_ app h_on h_create =>
    obtain ⟨h_rows, h_keys, -⟩ := create_rows h_create
    intro key' o h_o
    obtain ⟨h_row, h_app⟩ := h key' o h_o
    rw [h_rows, h_keys]
    exact ⟨h_row, List.mem_append_left _ h_app⟩
  | opened key at_ aid row o h_on h_absent h_key h_begin h_session h_application =>
    obtain ⟨h_rows, h_keys, -⟩ := begin_rows h_begin
    intro key' o' h_o'
    rw [h_rows, h_keys]
    by_cases h_new : key' = key
    · subst h_new
      -- the new entry, whose row is the one just inserted
      obtain rfl : o = o' := by
        rw [AList.lookup_insert] at h_o'
        exact Option.some.inj h_o'
      rw [h_session, h_application]
      exact ⟨List.mem_append_right _ List.mem_cons_self, h_key⟩
    · rw [AList.lookup_insert_ne h_new] at h_o'
      obtain ⟨h_row, h_app⟩ := h key' o' h_o'
      exact ⟨List.mem_append_left _ h_row, h_app⟩
  | beat key o sample at_ h_on h_o h_beat =>
    obtain ⟨h_rows, h_keys⟩ := heartbeat_rows h_beat
    intro key' o' h_o'
    rw [h_rows, h_keys]
    exact h key' o' h_o'
  | closed key o sample at_ reason h_closes h_o h_close =>
    obtain ⟨h_rows, h_keys⟩ := closeAndRollup_rows h_close
    -- only the row of the erased entry is closed
    refine h.erase h_o rfl (fun row h_row h_ne => ?_) h_keys
    rw [h_rows]
    exact List.mem_filter.mpr ⟨h_row, decide_eq_true h_ne⟩
  | stranded key o record h_closes h_o h_failure =>
    exact h.erase h_o rfl (fun row h_row _ => h_row) rfl

theorem Moves.holds {on : Occasion} {s t : Live} (h_moves : Moves on s t) (h : Holds s.1 s.2) :
    Holds t.1 t.2 := by
  induction h_moves with
  | refl => exact h
  | tail _ h_move ih => exact h_move.holds ih

/-! ### Quiet runs -/

/-- No failure of the database has been logged. -/
def Quiet (m : SessionManager) : Prop := ∀ record ∈ m.log, record.isFailure = false

instance (m : SessionManager) : Decidable (Quiet m) :=
  inferInstanceAs (Decidable (∀ record ∈ m.log, record.isFailure = false))

/-- The log only grows. -/
theorem Move.log {on : Occasion} {s t : Live} (h : Move on s t) : s.1.log ⊆ t.1.log := by
  cases h with
  | noted => exact List.subset_append_left _ _
  | notified => exact List.Subset.refl _
  | refused => exact List.subset_append_left _ _
  | created => exact List.Subset.refl _
  | opened => exact List.subset_append_left _ _
  | beat => exact List.Subset.refl _
  | closed => exact List.Subset.refl _
  | stranded => exact List.subset_append_left _ _

theorem Moves.log {on : Occasion} {s t : Live} (h : Moves on s t) : s.1.log ⊆ t.1.log := by
  induction h with
  | refl => exact List.Subset.refl _
  | tail _ h_move ih => exact List.Subset.trans ih h_move.log

theorem Quiet.mono {m m' : SessionManager} (h : Quiet m') (h_log : m.log ⊆ m'.log) : Quiet m :=
  fun record h_record => h record (h_log h_record)

/-- A manager that has logged a failure is not quiet. -/
theorem not_quiet_noted {m : SessionManager} {record : LogRecord} (h : record.isFailure = true) :
    ¬ Quiet (m.noted record) := by
  intro h_quiet
  have h_record := h_quiet record (List.mem_append_right _ List.mem_cons_self)
  rw [h] at h_record
  exact Bool.false_ne_true h_record.symm

/-- A quiet end of a run means that the whole run was quiet. -/
theorem log_subset_final {s : Live} {tr : List ((Input × List Fate) × Live)}
    (hrun : IsRun Live.Step s tr) : s.1.log ⊆ (final s tr).1.log := by
  induction hrun with
  | nil s => exact List.Subset.refl _
  | cons h_step _ ih => exact List.Subset.trans h_step.moves.log ih

/-! ### Open rows have entries -/

/-- **The map and the open rows match.** -/
structure Matches (m : SessionManager) (d : Database) : Prop where
  held : Holds m d
  covered : ∀ sid aid, (sid, aid) ∈ d.openRows →
    ∃ key o, m.open_.lookup key = some o ∧ o.sessionId = sid

/-- An application whose key is not in the map has no open row. -/
theorem Matches.not_open {m : SessionManager} {d : Database} (h : Matches m d) {key : GameKey}
    {aid : ℤ} (h_absent : key ∉ m.open_) (h_key : (aid, key) ∈ d.keyRows) :
    ¬ ∃ sid, (sid, aid) ∈ d.openRows := by
  rintro ⟨sid, h_row⟩
  -- the row would have an entry, and the application of that entry has the key
  obtain ⟨key', o, h_o, rfl⟩ := h.covered sid aid h_row
  obtain ⟨h_row', h_key'⟩ := h.held key' o h_o
  rw [← Database.openRows_application h_row h_row'] at h_key'
  rw [Database.keyRows_key h_key h_key'] at h_absent
  exact h_absent (AList.lookup_isSome.mp (by rw [h_o]; rfl))

/-- A move without a failure keeps the match. -/
theorem Move.matches {on : Occasion} {s t : Live} (h_move : Move on s t) (h_quiet : Quiet t.1)
    (h : Matches s.1 s.2) : Matches t.1 t.2 := by
  refine ⟨h_move.holds h.held, ?_⟩
  cases h_move with
  | noted record h_plain => exact h.covered
  | notified notification => exact h.covered
  | refused key at_ aid h_on h_absent h_key h_open => exact h.covered
  | created key displayName executablePath at_ app h_on h_create =>
    rw [(create_rows h_create).1]
    exact h.covered
  | @opened m d d' key at_ aid row o h_on h_absent h_key h_begin h_session h_application =>
    intro sid aid' h_row
    rw [(begin_rows h_begin).1] at h_row
    rcases List.mem_append.mp h_row with h_row | h_row
    · -- an old row keeps its entry, whose key is not the new one
      obtain ⟨key', o', h_o', h_sid⟩ := h.covered sid aid' h_row
      have h_ne : key' ≠ key := by
        rintro rfl
        exact h_absent (AList.lookup_isSome.mp (by rw [h_o']; rfl))
      exact ⟨key', o', (AList.lookup_insert_ne h_ne).trans h_o', h_sid⟩
    · obtain ⟨rfl, -⟩ := Prod.mk.inj (List.mem_singleton.mp h_row)
      exact ⟨key, o, AList.lookup_insert _, h_session⟩
  | beat key o sample at_ h_on h_o h_beat =>
    rw [(heartbeat_rows h_beat).1]
    exact h.covered
  | closed key o sample at_ reason h_closes h_o h_close =>
    intro sid aid h_row
    rw [(closeAndRollup_rows h_close).1, List.mem_filter] at h_row
    -- a row that stays open is not the closed one, so its entry is not the erased one
    obtain ⟨key', o', h_o', rfl⟩ := h.covered sid aid h_row.1
    have h_ne : key' ≠ key := by
      rintro rfl
      obtain rfl : o' = o := Option.some.inj (h_o'.symm.trans h_o)
      exact of_decide_eq_true h_row.2 rfl
    exact ⟨key', o', (AList.lookup_erase_ne h_ne).trans h_o', rfl⟩
  | stranded key o record h_closes h_o h_failure =>
    -- a failure would be in the log
    exact absurd h_quiet (not_quiet_noted h_failure)

/-! ### Rows are accepted events -/

/-- The session a log record opens. -/
def LogRecord.opening : LogRecord → Option (GameKey × OffsetDateTime)
  | opened key at_ _ _ => some (key, at_)
  | _ => none

/-- The sessions opened so far. -/
def SessionManager.openings (m : SessionManager) : List (GameKey × OffsetDateTime) :=
  m.log.filterMap LogRecord.opening

theorem LogRecord.opening_of_isPlain {record : LogRecord} (h : record.isPlain = true) :
    record.opening = none := by
  cases record with
  | opened => exact absurd h Bool.false_ne_true
  | _ => rfl

theorem openings_noted (m : SessionManager) (record : LogRecord) :
    (m.noted record).openings = m.openings ++ record.opening.toList := by
  unfold SessionManager.openings SessionManager.noted
  rw [List.filterMap_append]
  cases h : record.opening with
  | none => rw [List.filterMap_cons_none h]; rfl
  | some x => rw [List.filterMap_cons_some h]; rfl

/-- A record that opens nothing is not seen by the openings. -/
theorem openings_noted_of_none (m : SessionManager) {record : LogRecord} (h : record.opening = none) :
    (m.noted record).openings = m.openings := by
  rw [openings_noted, h]
  exact List.append_nil m.openings

/-- The row of a `Started`: it begins at its time, under the application with its key. -/
def Books (d : Database) (start : GameKey × OffsetDateTime) (row : Session) : Prop :=
  row.startedAt = start.2 ∧ (row.applicationId, start.1) ∈ d.keyRows

/-- The rows beyond the old ones are those of the sessions opened so far, in order. -/
def Booked (base : List Session) (m : SessionManager) (d : Database) : Prop :=
  ∃ rows, d.sessions = base ++ rows ∧ List.Forall₂ (Books d) m.openings rows

/-- An update that touches neither the old rows nor the columns of the booking. -/
theorem Booked.update {base : List Session} {m m' : SessionManager} {d d' : Database}
    (h : Booked base m d) {p : Session → Bool} {f : Session → Session}
    (h_base : ∀ s ∈ base, p s = false) (h_sessions : d'.sessions = Sql.updateWhere p f d.sessions)
    (h_f : ∀ s, (f s).startedAt = s.startedAt ∧ (f s).applicationId = s.applicationId)
    (h_keys : d'.keyRows = d.keyRows) (h_openings : m'.openings = m.openings) :
    Booked base m' d' := by
  -- the rows of before stand first and are not touched; those of the run are updated in place
  obtain ⟨rows, h_rows, h_books⟩ := h
  refine ⟨Sql.updateWhere p f rows, ?_, ?_⟩
  · -- start and owner of a row do not change
    rw [h_sessions, h_rows, Sql.updateWhere_append, Sql.updateWhere_of_forall_not h_base]
  · rw [h_openings, Sql.updateWhere, List.forall₂_map_right_iff]
    -- the book keeps start and key of each row, whether or not it is the one updated
    refine h_books.imp fun start row h_row => ?_
    unfold Books
    rw [h_keys]
    by_cases h_p : p row = true
    · rw [if_pos h_p, (h_f row).1, (h_f row).2]
      exact h_row
    · rw [if_neg h_p]
      exact h_row

/-- A record that opens nothing is not seen by the books. -/
theorem Booked.noted {base : List Session} {m m' : SessionManager} {d : Database}
    (h : Booked base m d) (h_log : m'.log = m.log) {record : LogRecord}
    (h_record : record.opening = none) : Booked base (m'.noted record) d := by
  obtain ⟨rows, h_rows, h_books⟩ := h
  refine ⟨rows, h_rows, ?_⟩
  rw [openings_noted_of_none m' h_record, SessionManager.openings, h_log]
  exact h_books

/-- **Every move keeps the books.** -/
theorem Move.booked {on : Occasion} {base : List Session} {s t : Live} (h_move : Move on s t)
    (h_base : ∀ row ∈ base, row.isOpen = false) (h : Booked base s.1 s.2) :
    Booked base t.1 t.2 := by
  -- heartbeats and closes write open rows only
  have h_closed : ∀ sid, ∀ row ∈ base, SessionRepo.isOpenRow sid row = false := by
    intro sid row h_row
    rw [SessionRepo.isOpenRow, h_base row h_row, Bool.and_false]
  cases h_move with
  | noted record h_plain => exact h.noted rfl (LogRecord.opening_of_isPlain h_plain)
  | notified notification => exact h
  | refused key at_ aid h_on h_absent h_key h_open => exact h.noted rfl rfl
  | created key displayName executablePath at_ app h_on h_create =>
    obtain ⟨rows, h_rows, h_books⟩ := h
    obtain ⟨-, h_tables⟩ := ApplicationRepo.create_ok h_create
    obtain ⟨-, h_keys, -⟩ := create_rows h_create
    refine ⟨rows, by rw [h_tables]; exact h_rows, h_books.imp fun start row h_row => ?_⟩
    refine ⟨h_row.1, ?_⟩
    rw [h_keys]
    exact List.mem_append_left _ h_row.2
  | @opened m d d' key at_ aid row o h_on h_absent h_key h_begin h_session h_application =>
    obtain ⟨rows, h_rows, h_books⟩ := h
    obtain ⟨h_row, h_tables⟩ := SessionRepo.begin_ok h_begin
    obtain ⟨-, h_keys, -⟩ := begin_rows h_begin
    have h_sessions : d'.sessions = d.sessions ++ [row] := by rw [h_tables]
    refine ⟨rows ++ [row], ?_, ?_⟩
    · rw [h_sessions, h_rows, List.append_assoc]
    · -- the new row is booked under the new record
      show List.Forall₂ (Books d') (m.noted (.opened key at_ aid row.id)).openings (rows ++ [row])
      rw [openings_noted]
      refine List.rel_append ?_ (.cons ⟨?_, ?_⟩ .nil)
      · refine h_books.imp fun start row h_row => ?_
        unfold Books
        rw [h_keys]
        exact h_row
      · rw [h_row]
        rfl
      · rw [h_keys, h_row]
        exact h_key
  | beat key o sample at_ h_on h_o h_beat =>
    have h_sessions := congrArg Tables.sessions (SessionRepo.heartbeat_ok h_beat)
    exact h.update (h_closed o.sessionId) h_sessions (fun _ => ⟨rfl, rfl⟩)
      (heartbeat_rows h_beat).2 rfl
  | closed key o sample at_ reason h_closes h_o h_close =>
    have h_keys := (closeAndRollup_rows h_close).2
    rcases SessionRepo.closeAndRollup_ok h_close with ⟨-, rfl⟩ | ⟨-, h_tables⟩
    · exact h
    · have h_sessions := congrArg Tables.sessions h_tables
      exact h.update (h_closed o.sessionId) h_sessions (fun _ => ⟨rfl, rfl⟩) h_keys rfl
  | stranded key o record h_closes h_o h_failure =>
    exact h.noted rfl (LogRecord.opening_of_isPlain (LogRecord.isPlain_of_isFailure h_failure))

theorem Moves.booked {on : Occasion} {base : List Session} {s t : Live} (h_moves : Moves on s t)
    (h_base : ∀ row ∈ base, row.isOpen = false) (h : Booked base s.1 s.2) :
    Booked base t.1 t.2 := by
  induction h_moves with
  | refl => exact h
  | tail _ h_move ih => exact h_move.booked h_base ih

/-! ### Runs -/

/-- **The invariant of a quiet run.** -/
structure InStep (base : List Session) (s : Live) : Prop where
  match_ : Matches s.1 s.2
  booked : Booked base s.1 s.2
  no_refusal : ∀ key aid, LogRecord.openSessionExists key aid ∉ s.1.log

/-- A refusal in the log is an old one, or that of a `Started` whose game has an open row but no
entry. -/
theorem Move.refusal {on : Occasion} {s t : Live} (h_move : Move on s t) {key : GameKey} {aid : ℤ}
    (h_mem : LogRecord.openSessionExists key aid ∈ t.1.log) :
    LogRecord.openSessionExists key aid ∈ s.1.log ∨
      key ∉ s.1.open_ ∧ (aid, key) ∈ s.2.keyRows ∧ ∃ sid, (sid, aid) ∈ s.2.openRows := by
  -- a new record that is not a refusal
  have h_other : ∀ {m : SessionManager} {record : LogRecord},
      LogRecord.openSessionExists key aid ∈ (m.noted record).log →
      record ≠ .openSessionExists key aid → LogRecord.openSessionExists key aid ∈ m.log := by
    intro m record h_log h_record
    rcases List.mem_append.mp h_log with h_log | h_log
    · exact h_log
    · exact absurd (List.mem_singleton.mp h_log).symm h_record
  cases h_move with
  | noted record h_plain =>
    refine .inl (h_other h_mem fun h_eq => ?_)
    rw [h_eq] at h_plain
    exact Bool.false_ne_true h_plain
  | notified notification => exact .inl h_mem
  | refused key' at_ aid' h_on h_absent h_key h_open =>
    rcases List.mem_append.mp h_mem with h_mem | h_mem
    · exact .inl h_mem
    · obtain ⟨rfl, rfl⟩ := LogRecord.openSessionExists.inj (List.mem_singleton.mp h_mem)
      exact .inr ⟨h_absent, h_key, h_open⟩
  | created key' displayName executablePath at_ app h_on h_create => exact .inl h_mem
  | opened key' at_ aid' row o h_on h_absent h_key h_begin h_session h_application =>
    exact .inl (h_other h_mem fun h_eq => nomatch h_eq)
  | beat key' o sample at_ h_on h_o h_beat => exact .inl h_mem
  | closed key' o sample at_ reason h_closes h_o h_close => exact .inl h_mem
  | stranded key' o record h_closes h_o h_failure =>
    refine .inl (h_other h_mem fun h_eq => ?_)
    rw [h_eq] at h_failure
    exact Bool.false_ne_true h_failure

theorem Move.no_refusal {on : Occasion} {s t : Live} (h_move : Move on s t)
    (h_match : Matches s.1 s.2) (h : ∀ key aid, LogRecord.openSessionExists key aid ∉ s.1.log) :
    ∀ key aid, LogRecord.openSessionExists key aid ∉ t.1.log := by
  intro key aid h_mem
  rcases h_move.refusal h_mem with h_mem | ⟨h_absent, h_key, h_open⟩
  · exact h key aid h_mem
  · exact h_match.not_open h_absent h_key h_open

theorem Move.inStep {on : Occasion} {base : List Session} {s t : Live} (h_move : Move on s t)
    (h_quiet : Quiet t.1) (h_base : ∀ row ∈ base, row.isOpen = false) (h : InStep base s) :
    InStep base t where
  match_ := h_move.matches h_quiet h.match_
  booked := h_move.booked h_base h.booked
  no_refusal := h_move.no_refusal h.match_ h.no_refusal

theorem Moves.inStep {on : Occasion} {base : List Session} {s t : Live} (h_moves : Moves on s t)
    (h_quiet : Quiet t.1) (h_base : ∀ row ∈ base, row.isOpen = false) (h : InStep base s) :
    InStep base t := by
  induction h_moves with
  | refl => exact h
  | tail _ h_move ih => exact h_move.inStep h_quiet h_base (ih (h_quiet.mono h_move.log))

theorem inStep_run {base : List Session} {s : Live} {tr : List ((Input × List Fate) × Live)}
    (hrun : IsRun Live.Step s tr) (h_quiet : Quiet (final s tr).1)
    (h_base : ∀ row ∈ base, row.isOpen = false) (h : InStep base s) :
    ∀ t ∈ states s tr, InStep base t := by
  induction hrun with
  | nil s =>
    intro t ht
    rw [List.mem_singleton.mp ht]
    exact h
  | @cons s t l tr h_step h_rest ih =>
    -- the end of the run is quiet, so the state after this step was
    have h_t : InStep base t :=
      h_step.moves.inStep (h_quiet.mono (log_subset_final h_rest)) h_base h
    intro u hu
    rcases List.mem_cons.mp hu with rfl | hu
    · exact h
    · exact ih h_quiet h_t u hu

/-! ### Accepted events -/

/-- The `Started` a turn accepts: one whose key is neither blocked nor in the map. -/
def acceptedIn (s : Live) : Input → List (GameKey × OffsetDateTime)
  | .event (.started key _ _ at_) blocklist _ =>
    if key ∉ blocklist ∧ key ∉ s.1.open_ then [(key, at_)] else []
  | .event (.stopped _ _) _ _ | .heartbeat _ _ _ _ => []

/-- The `Started` events a run accepts. -/
def accepted (s : Live) (tr : List ((Input × List Fate) × Live)) : List (GameKey × OffsetDateTime) :=
  (steps s tr).flatMap fun x => acceptedIn x.1 x.2.1.1

theorem openings_of_log {m m' : SessionManager} {record : LogRecord}
    (h_log : m'.log = m.log ++ [record]) : m'.openings = m.openings ++ record.opening.toList := by
  rw [← openings_noted]
  exact congrArg (List.filterMap LogRecord.opening) h_log

/-- An answer without an error or a refusal opens a session exactly if the `Started` is accepted. -/
theorem Answer.openings {key : GameKey} {at_ : OffsetDateTime} {blocklist : List GameKey}
    {m m' : SessionManager} (h : Answer key at_ blocklist m (.ok ()) m')
    (h_no_refusal : ∀ key aid, LogRecord.openSessionExists key aid ∉ m'.log) :
    m'.openings = m.openings ++
      if key ∉ blocklist ∧ key ∉ m.open_ then [(key, at_)] else [] := by
  -- only the opening appends to the log's record of openings
  cases h with
  | blocked h_blocked h_map h_log =>
    rw [if_neg fun h_both => h_both.1 h_blocked]
    exact openings_of_log h_log
  -- nothing was accepted, and what was logged is no opening
  | alreadyOpen h_free h_open h_map h_log =>
    rw [if_neg fun h_both => h_both.2 h_open]
    exact openings_of_log h_log
  | opened o aid sid h_free h_absent h_map h_log =>
    rw [if_pos ⟨h_free, h_absent⟩]
    exact openings_of_log h_log
  -- a refusal would be in the log, which has none
  | refused aid h_free h_absent h_map h_log =>
    have h_mem : LogRecord.openSessionExists key aid ∈ m'.log := by
      rw [h_log]
      exact List.mem_append_right _ List.mem_cons_self
    exact absurd h_mem (h_no_refusal key aid)

/-- Any other turn opens nothing. -/
theorem Moves.not_started {on : Occasion} {s t : Live} (h_moves : Moves on s t)
    (h_on : ∀ key at_, on ≠ .started key at_) : t.1.openings = s.1.openings := by
  -- induction on the moves; the only one that opens a session answers a start
  induction h_moves with
  | refl => rfl
  | tail _ h_move ih =>
    rw [← ih]
    cases h_move with
    | noted record h_plain =>
      exact openings_noted_of_none _ (LogRecord.opening_of_isPlain h_plain)
    | notified notification => rfl
    | refused key at_ aid h_started => exact absurd h_started (h_on key at_)
    | created key _ _ at_ app h_started => rfl
    | opened key at_ aid row o h_started => exact absurd h_started (h_on key at_)
    | beat key o sample at_ h_tick h_o h_beat => rfl
    | closed key o sample at_ reason h_closes h_o h_close => rfl
    -- a stranded row is logged as a failure, not as an opening
    | stranded key o record h_closes h_o h_failure =>
      have h_none := LogRecord.opening_of_isPlain (LogRecord.isPlain_of_isFailure h_failure)
      exact openings_noted_of_none _ h_none

/-- **A turn opens the session of the `Started` it accepts**, and no other, unless it fails or the
database refuses. -/
theorem Live.Step.openings {s t : Live} {l : Input × List Fate} (h_step : Live.Step s l t)
    (h_quiet : Quiet t.1) (h_no_refusal : ∀ key aid, LogRecord.openSessionExists key aid ∉ t.1.log) :
    t.1.openings = s.1.openings ++ acceptedIn s l.1 := by
  obtain ⟨input, fates⟩ := l
  match input, h_step with
  | .heartbeat at_ now idleGrace order, h_step =>
    rw [h_step.moves.not_started fun _ _ h => nomatch h]
    exact (List.append_nil _).symm
  | .event (.stopped key at_) blocklist sample, h_step =>
    rw [h_step.moves.not_started fun _ _ h => nomatch h]
    exact (List.append_nil _).symm
  | .event (.started key displayName executablePath at_) blocklist sample, h_step =>
    -- the answer of the handler, unless its error was logged
    have h_turn : wp (turn (.event (.started key displayName executablePath at_) blocklist sample))
        (fun _ m' _ => Quiet m' → Answer key at_ blocklist s.1 (.ok ()) m') (fun _ => True)
        s.1 s.2 := by
      refine wp_logged (handleStarted_answer key displayName executablePath at_ blocklist sample) ?_ ?_
      · intro m' d' h_answer _
        exact h_answer
      · intro e m' d' _ h_logged
        exact absurd h_logged (not_quiet_noted rfl)
    obtain ⟨-, h_answer⟩ := h_step.post h_turn
    exact (h_answer h_quiet).openings h_no_refusal

/-- **A run opens the sessions of the `Started` events it accepts**, in order. -/
theorem openings_run {s : Live} {tr : List ((Input × List Fate) × Live)}
    (hrun : IsRun Live.Step s tr) (h_quiet : Quiet (final s tr).1)
    (h_no_refusal : ∀ t ∈ states s tr, ∀ key aid, LogRecord.openSessionExists key aid ∉ t.1.log) :
    (final s tr).1.openings = s.1.openings ++ accepted s tr := by
  -- induction on the run: the log of every later state holds that of the first step
  induction hrun with
  | nil s => exact (List.append_nil _).symm
  | @cons s t l tr h_step h_rest ih =>
    have h_later : ∀ u ∈ states t tr, u ∈ states s ((l, t) :: tr) :=
      fun u hu => List.mem_cons_of_mem _ hu
    have h_first : t.1.openings = s.1.openings ++ acceptedIn s l.1 :=
      h_step.openings (h_quiet.mono (log_subset_final h_rest))
        (h_no_refusal t (h_later t List.mem_cons_self))
    calc (final s ((l, t) :: tr)).1.openings
        = t.1.openings ++ accepted t tr := ih h_quiet fun u hu => h_no_refusal u (h_later u hu)
      _ = (s.1.openings ++ acceptedIn s l.1) ++ accepted t tr := by rw [h_first]
      _ = s.1.openings ++ accepted s ((l, t) :: tr) := List.append_assoc _ _ _

/-! ### The simulation -/

/-- **Map and table are in bijection.** An entry is an open row of the application with its key,
every open row has an entry, and two entries have two rows. No application has two open rows. -/
structure OneToOne (m : SessionManager) (d : Database) : Prop extends Matches m d where
  injective : ∀ key key' o o', m.open_.lookup key = some o → m.open_.lookup key' = some o' →
    o.sessionId = o'.sessionId → key = key'
  one_open : (d.openSessions.map Session.applicationId).Nodup

theorem Matches.oneToOne {m : SessionManager} {d : Database} (h : Matches m d) : OneToOne m d where
  toMatches := h
  injective := fun _ _ _ _ h_o h_o' h_session => h.held.injective h_o h_o' h_session
  one_open := d.uniques.2.2.2

/-- The state after a recovery. -/
theorem recovered_inStep {d₀ d₁ : Database} {m₁ : SessionManager} {n : ℕ} {fates rest : List Fate}
    (h_recover : recoverOrphans {} d₀ fates = .returned n m₁ d₁ rest) :
    InStep d₁.sessions (m₁, d₁) ∧ (∀ row ∈ d₁.sessions, row.isOpen = false) ∧
      m₁.openings = [] := by
  -- recovery closed every open row, so the base of the run has none
  obtain ⟨-, h_ok⟩ := wp_returned (recoverOrphans_spec (.refl d₀) {}) h_recover
  obtain ⟨h_once, h_open, h_log⟩ := h_ok n rfl
  have h_closed : ∀ row ∈ d₁.sessions, row.isOpen = false := by
    intro row h_row
    by_contra h_row_open
    have h_mem : row ∈ d₁.openSessions :=
      List.mem_filter.mpr ⟨h_row, Bool.not_eq_false _ ▸ h_row_open⟩
    rw [h_once.none_open] at h_mem
    exact List.not_mem_nil h_mem
  -- what recovery logs is no opening
  have h_openings : m₁.openings = [] := by
    unfold SessionManager.openings
    rcases h_log with h_log | h_log
    · rw [h_log]
      rfl
    · rw [h_log]
      rfl
  -- the map is empty, so every promise about its entries is kept
  refine ⟨⟨⟨?_, ?_⟩, ?_, ?_⟩, h_closed, h_openings⟩
  · intro key o h_o
    rw [h_open] at h_o
    exact nomatch h_o
  · intro sid aid h_row
    obtain ⟨row, h_mem, h_row_open, -⟩ := Database.mem_openRows.mp h_row
    rw [h_closed row h_mem] at h_row_open
    exact nomatch h_row_open
  · -- no row of this run yet
    refine ⟨[], (List.append_nil _).symm, ?_⟩
    rw [h_openings]
    exact .nil
  · intro key aid h_mem
    rcases h_log with h_log | h_log
    · rw [h_log] at h_mem
      exact nomatch h_mem
    · rw [h_log] at h_mem
      exact nomatch List.mem_singleton.mp h_mem

/-- **The session manager simulates its table.** Take any run of events and heartbeats that starts
with a completed recovery and logs no failure of the database. In every state the map and the open
rows are in bijection, and no `Started` was refused because of an open row. After a shutdown that
logs no failure either, no row is open, and the rows of the run are those of the accepted `Started`
events, one each. -/
theorem manager_simulates {d₀ d₁ : Database} {m₁ : SessionManager} {n : ℕ} {fates rest : List Fate}
    {tr : List ((Input × List Fate) × Live)}
    (h_recover : recoverOrphans {} d₀ fates = .returned n m₁ d₁ rest)
    (hrun : IsRun Live.Step (m₁, d₁) tr) (h_quiet : Quiet (final (m₁, d₁) tr).1) :
    (∀ s ∈ states (m₁, d₁) tr,
      OneToOne s.1 s.2 ∧ ∀ key aid, LogRecord.openSessionExists key aid ∉ s.1.log) ∧
    ∀ (now : OffsetDateTime) (order : List (GameKey × Sample)) (fates rest : List Fate)
      (m₂ : SessionManager) (d₂ : Database),
      (order.map Prod.fst).Perm (final (m₁, d₁) tr).1.open_.keys →
      closeAllOpen .terminated now order (final (m₁, d₁) tr).1 (final (m₁, d₁) tr).2 fates =
        .returned () m₂ d₂ rest →
      Quiet m₂ →
      d₂.openSessions = [] ∧ ∃ rows, d₂.sessions = d₁.sessions ++ rows ∧
        (∀ row ∈ rows, row.isClosed = true) ∧
        List.Forall₂ (Books d₂) (accepted (m₁, d₁) tr) rows := by
  obtain ⟨h_start, h_base, h_openings⟩ := recovered_inStep h_recover
  have h_run := inStep_run hrun h_quiet h_base h_start
  refine ⟨fun s hs => ⟨(h_run s hs).match_.oneToOne, (h_run s hs).no_refusal⟩, ?_⟩
  intro now order fates rest m₂ d₂ h_order h_close h_quiet₂
  obtain ⟨-, h_empty, h_moves⟩ := wp_returned (closeAllOpen_moves _ _ _ _ h_order) h_close
  have h_end : InStep d₁.sessions (m₂, d₂) :=
    h_moves.inStep h_quiet₂ h_base (h_run _ (final_mem_states _ _))
  -- an open row would have an entry in the empty map
  have h_none : d₂.openSessions = [] := by
    apply openSessions_eq_nil
    apply List.eq_nil_iff_forall_not_mem.mpr
    rintro ⟨sid, aid⟩ h_row
    obtain ⟨key, o, h_o, -⟩ := h_end.match_.covered sid aid h_row
    rw [show m₂.open_ = ∅ from h_empty] at h_o
    exact nomatch h_o
  obtain ⟨rows, h_sessions, h_books⟩ := h_end.booked
  refine ⟨h_none, rows, h_sessions, fun row h_row => ?_, ?_⟩
  · rw [Session.isClosed_eq_not_isOpen, Bool.not_eq_true']
    by_contra h_row_open
    have h_mem : row ∈ d₂.openSessions := by
      refine List.mem_filter.mpr ⟨?_, Bool.not_eq_false _ ▸ h_row_open⟩
      rw [show d₂.sessions = _ from h_sessions]
      exact List.mem_append_right _ h_row
    rw [h_none] at h_mem
    exact List.not_mem_nil h_mem
  · have h_accepted : m₂.openings = accepted (m₁, d₁) tr :=
      calc m₂.openings
          = (final (m₁, d₁) tr).1.openings := h_moves.not_started fun _ _ h => nomatch h
        _ = m₁.openings ++ accepted (m₁, d₁) tr :=
          openings_run hrun h_quiet fun s hs => (h_run s hs).no_refusal
        _ = accepted (m₁, d₁) tr := by rw [h_openings, List.nil_append]
    rw [← h_accepted]
    exact h_books

/-- What a handler reads a number of seconds after boot, with an idle grace of a minute and a user
who has not been away. -/
def sampleAt (seconds : Fin (2 ^ 32)) : Sample :=
  ⟨.ofSeconds seconds, 60, ⟨{}, .ofSeconds seconds⟩⟩

/-- A `Started` of a Steam game, and its `Stopped`. -/
def startedSteam (appid : String) (second : Fin 86400) (blocklist : List GameKey) :
    Input × List Fate :=
  (.event (.started (.steam appid) appid none (.firstDay second)) blocklist (sampleAt 0), [])

def stoppedSteam (appid : String) (second : Fin 86400) (seconds : Fin (2 ^ 32)) (fates : List Fate) :
    Input × List Fate :=
  (.event (.stopped (.steam appid) (.firstDay second)) [] (sampleAt seconds), fates)

/-- Two games are played, one of them announced twice; a third is blocked, and stops all the
same. -/
def twoGames : List (Input × List Fate) :=
  [startedSteam "10" 100 [], startedSteam "10" 101 [], startedSteam "30" 102 [.steam "30"],
    (.heartbeat (.firstDay 160) (.ofSeconds 60) 60
      [(.steam "10", ⟨{}, .ofSeconds 60⟩)], []),
    startedSteam "20" 200 [], stoppedSteam "30" 210 110 [], stoppedSteam "10" 220 120 []]

/-- The manager after them, and what the shutdown leaves of it. -/
def twoGamesEnd : Live := final ({}, Database.empty) (trace Live.next ({}, Database.empty) twoGames)

def twoGamesClosed : Live :=
  match closeAllOpen .terminated (.firstDay 300) [(.steam "20", sampleAt 200)] twoGamesEnd.1
    twoGamesEnd.2 [] with
  | .returned _ m d _ => (m, d)
  | .threw _ m d _ => (m, d)
  | .died d => (twoGamesEnd.1, d)

theorem twoGames_closes : ∃ rest,
    closeAllOpen .terminated (.firstDay 300) [(.steam "20", sampleAt 200)] twoGamesEnd.1 twoGamesEnd.2
      [] = .returned () twoGamesClosed.1 twoGamesClosed.2 rest := by
  have h_returns : (closeAllOpen .terminated (.firstDay 300) [(.steam "20", sampleAt 200)]
      twoGamesEnd.1 twoGamesEnd.2 []).isReturned = true := by decide +kernel
  -- the drain of two entries, one with a sample: that it returns is what the evaluation says
  unfold twoGamesClosed
  cases h_run : closeAllOpen .terminated (.firstDay 300) [(.steam "20", sampleAt 200)]
      twoGamesEnd.1 twoGamesEnd.2 [] with
  | returned a m d rest => exact ⟨rest, rfl⟩
  | threw e m d rest =>
    rw [h_run] at h_returns
    exact nomatch h_returns
  | died d =>
    rw [h_run] at h_returns
    exact nomatch h_returns

/-- The second announcement of a game and that of the blocked one are not accepted, and each of the
two others leaves one closed row. -/
theorem manager_simulates_twoGames :
    accepted ({}, Database.empty) (trace Live.next ({}, Database.empty) twoGames) =
        [(.steam "10", .firstDay 100), (.steam "20", .firstDay 200)] ∧
      (∀ s ∈ states (({}, Database.empty) : Live) (trace Live.next ({}, Database.empty) twoGames),
        OneToOne s.1 s.2 ∧ ∀ key aid, LogRecord.openSessionExists key aid ∉ s.1.log) ∧
      twoGamesClosed.2.sessions.map (fun row => (row.applicationId, row.startedAt, row.endedAt)) =
        [(1, .firstDay 100, some (.firstDay 220)), (2, .firstDay 200, some (.firstDay 300))] ∧
      twoGamesClosed.2.openSessions = [] ∧ ∃ rows, twoGamesClosed.2.sessions = rows ∧
        (∀ row ∈ rows, row.isClosed = true) ∧ List.Forall₂ (Books twoGamesClosed.2)
          [(.steam "10", .firstDay 100), (.steam "20", .firstDay 200)] rows := by
  have h_recover : recoverOrphans {} Database.empty [] = .returned 0 {} Database.empty [] := rfl
  have h_accepted : accepted ({}, Database.empty) (trace Live.next ({}, Database.empty) twoGames) =
      [(.steam "10", .firstDay 100), (.steam "20", .firstDay 200)] := by decide +kernel
  obtain ⟨h_run, h_shutdown⟩ := manager_simulates h_recover
    (isRun_trace Live.next ({}, Database.empty) twoGames) (by decide +kernel)
  obtain ⟨rest, h_close⟩ := twoGames_closes
  obtain ⟨h_none, rows, h_rows, h_closed, h_books⟩ := h_shutdown (.firstDay 300)
    [(.steam "20", sampleAt 200)] [] rest twoGamesClosed.1 twoGamesClosed.2 (by decide +kernel)
    h_close (by decide +kernel)
  rw [h_accepted] at h_books
  exact ⟨h_accepted, h_run, by decide +kernel, h_none, rows, h_rows, h_closed, h_books⟩

end Ludex
