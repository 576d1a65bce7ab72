import Ludex.Lib.Connection
import Ludex.Core.LastPlayed
import Ludex.Core.SpanDelete

/-!
# `delete_sessions_and_recompute`

`SessionRepo` takes the delete as one step. `Statements.deleteSessionsAndRecompute` is the method
statement by statement, in a transaction on a connection, with the owners visited in whatever order
the hash set has. `Statements.settles` says that it is atomic: it has the effect of the one step, or
none.

What the one step does is listed in `DeleteResult`: it is refused for an open session, finds
nothing, cannot store a rebuilt counter, or deletes. A delete after a delete is a delete of both
lists (`deletedTables_append`), so the order of the two does not matter, unless one of them fails
for want of room in a counter (`mergedWhilePlaying_not_commute`).
-/

namespace Ludex

open SessionRepo

/-! ### What a list of ids is about -/

section Delete

variable (d : Database) (ids : List ℤ)

/-- Some row has a listed id. -/
def ListsAny : Prop := ∃ s ∈ d.sessions, s.id ∈ ids

/-- Some row with a listed id is open. -/
def ListsOpen : Prop := ∃ s ∈ d.sessions, s.id ∈ ids ∧ s.isOpen = true

/-- An application that owns a listed row has counters, over its other closed rows, which do not fit
their columns. -/
def Overflows : Prop :=
  ∃ a ∈ d.applications, touched d ids a.id = true ∧ ¬ CountersFit (remaining d ids a.id)

/-- The tables after a delete. -/
def deletedTables (t : Tables) : Tables :=
  { t with
    applications :=
      Sql.updateWhere (fun a => t.sessions.any fun s => s.id ∈ ids && s.applicationId = a.id)
        (recompute (Sql.deleteWhere (fun s => s.id ∈ ids) t.sessions)) t.applications
    sessions := Sql.deleteWhere (fun s => s.id ∈ ids) t.sessions }

/-- What the call can return. -/
inductive DeleteResult : Except Error (Bool × Database) → Prop
  | refused : ListsOpen d ids →
      DeleteResult (.error (.invariant "cannot delete an open session; stop the game first"))
  | nothing : ¬ ListsAny d ids → DeleteResult (.ok (false, d))
  | overflow {e : Error} : ¬ ListsOpen d ids → Overflows d ids → DeleteResult (.error e)
  | deleted {d' : Database} : ListsAny d ids → ¬ ListsOpen d ids → ¬ Overflows d ids →
      d'.toTables = deletedTables ids d.toTables → DeleteResult (.ok (true, d'))

end Delete

/-! ### The method, statement by statement -/

/-- An order in which the elements of a hash set are visited. -/
structure SetOrder where
  visit : List ℤ → List ℤ
  perm : ∀ xs, (visit xs).Perm xs.dedup

namespace Statements

open Transact

/-- `SELECT application_id, ended_at FROM sessions WHERE id = ?`. -/
def selectOwner (id : ℤ) (d : Database) :
    Except Error (Option (ℤ × Option OffsetDateTime) × Database) :=
  .ok ((d.sessions.find? fun s => s.id = id).map fun s => (s.applicationId, s.endedAt), d)

/-- `DELETE FROM sessions WHERE id = ?`. -/
def deleteRow (d : Database) (id : ℤ) : Except Error Database :=
  Database.execute { d.toTables with sessions := Sql.deleteWhere (fun s => s.id = id) d.sessions }

/-- The first loop: the owners of the listed rows, `none` at an open one. -/
def resolve : List ℤ → Method Database Error (Option (List ℤ))
  | [] => pure (some [])
  | id :: ids => do
    match ← Method.statement (.sql .io) (selectOwner id) with
    | none => resolve ids
    | some (applicationId, endedAt) =>
      if endedAt.isNone then return none
      else do
        let owners ← resolve ids
        return owners.map (applicationId :: ·)

/-- What follows the first loop. -/
def carryOut (order : SetOrder) (ids : List ℤ) :
    Option (List ℤ) → Method Database Error (Ending Error Bool)
  | none =>
    return .rollback (.error (.invariant "cannot delete an open session; stop the game first"))
  | some [] => return .rollback (.ok false)
  | some (owner :: owners) => do
    forM ids fun id =>
      Method.statement (.sql .io) fun d => (deleteRow d id).map fun d => ((), d)
    forM (order.visit (owner :: owners)) fun applicationId =>
      Method.statement (.sql .io) fun d => (recomputeApplication d applicationId).map fun d => ((), d)
    return .commit true

/-- Delete the given session rows and rebuild the aggregates of the applications that own them. -/
def deleteSessionsAndRecompute (order : SetOrder) (ids : List ℤ) : Method Database Error Bool :=
  if ids.isEmpty then pure false
  else Method.transaction (.sql .io) (resolve ids >>= carryOut order ids)

end Statements

/-- The delete as one step, with the owners visited in the given order. -/
def SessionRepo.deleteIn (order : SetOrder) (d : Database) (ids : List ℤ) :
    Except Error (Bool × Database) :=
  match resolveOwners d ids with
  | none => .error (.invariant "cannot delete an open session; stop the game first")
  | some [] => .ok (false, d)
  | some owners =>
    (ids.foldlM Statements.deleteRow d >>= (order.visit owners).foldlM recomputeApplication).map
      fun d => (true, d)

/-! ### The statements do what the step does -/

namespace Statements

open Transact

/-- One turn of the first loop, given what the others find. -/
def resolveOne (rest : Option (List ℤ)) : Option (ℤ × Option OffsetDateTime) → Option (List ℤ)
  | none => rest
  | some (applicationId, endedAt) =>
    if endedAt.isNone then none else rest.map (applicationId :: ·)

theorem resolveOwners_cons (d : Database) (id : ℤ) (ids : List ℤ) :
    resolveOwners d (id :: ids) =
      resolveOne (resolveOwners d ids)
        ((d.sessions.find? fun s => s.id = id).map fun s => (s.applicationId, s.endedAt)) := by
  rw [resolveOwners]
  cases d.sessions.find? fun s => s.id = id <;> rfl

theorem implements_resolve (ids : List ℤ) :
    Implements (.sql .io) (resolve ids) fun d => .ok (resolveOwners d ids, d) := by
  -- by induction on the ids, one statement for each
  induction ids with
  | nil => exact implements_pure _
  | cons id ids ih =>
    -- a row that is still open refuses everything, and one that is missing is passed over
    have h_rest : ∀ row, Implements (.sql .io)
        (match row with
          | none => resolve ids
          | some (applicationId, endedAt) =>
            if endedAt.isNone then return none
            else do
              let owners ← resolve ids
              return owners.map (applicationId :: ·))
        fun d => .ok (resolveOne (resolveOwners d ids) row, d) := by
      rintro (_ | ⟨applicationId, _ | endedAt⟩)
      · exact ih
      · exact implements_pure _
      · exact implements_bind ih fun _ => implements_pure _
    refine (implements_bind (implements_statement (selectOwner id)) h_rest).congr fun d => ?_
    rw [resolveOwners_cons]
    rfl

/-- What the rest of the body does to the working copy. -/
def carriedOut (order : SetOrder) (ids : List ℤ) :
    Option (List ℤ) → Database → Except Error (Ending Error Bool × Database)
  | none => fun d => .ok (.rollback
      (.error (.invariant "cannot delete an open session; stop the game first")), d)
  | some [] => fun d => .ok (.rollback (.ok false), d)
  | some (owner :: owners) => fun d =>
    (ids.foldlM deleteRow d >>= (order.visit (owner :: owners)).foldlM recomputeApplication).map
      fun d => (.commit true, d)

theorem implements_carryOut (order : SetOrder) (ids : List ℤ) (owners : Option (List ℤ)) :
    Implements (.sql .io) (carryOut order ids owners) (carriedOut order ids owners) := by
  cases owners with
  | none => exact implements_pure _
  | some owners =>
    cases owners with
    | nil => exact implements_pure _
    | cons owner owners =>
      -- the deletes come first, and then a statement for each application that was touched
      refine (implements_bind (implements_forM (fun id => implements_statement _) ids) fun _ =>
        implements_bind (implements_forM (fun aid => implements_statement _) _) fun _ =>
          implements_pure _).congr fun d => ?_
      simp only [carriedOut]
      cases ids.foldlM deleteRow d with
      | error e => rfl
      | ok d₁ =>
        simp only [Except.map, bind, Except.bind]
        cases (order.visit (owner :: owners)).foldlM recomputeApplication d₁ <;> rfl

theorem settle_carriedOut (order : SetOrder) (ids : List ℤ) (d : Database) :
    (carriedOut order ids (resolveOwners d ids) d >>= Ending.settle d) = deleteIn order d ids := by
  unfold deleteIn
  cases resolveOwners d ids with
  | none => rfl
  | some owners =>
    cases owners with
    | nil => rfl
    | cons owner owners =>
      simp only [carriedOut]
      cases ids.foldlM deleteRow d >>=
        (order.visit (owner :: owners)).foldlM recomputeApplication <;> rfl

/-- **The delete is atomic.** Whatever happens to its statements, it has the effect of the one step,
or none. -/
theorem settles (order : SetOrder) (ids : List ℤ) (d : Database) (fates : List Fate) :
    Settles (.sql .io) d (deleteIn order d ids) fates
      (deleteSessionsAndRecompute order ids () ⟨d, none⟩ fates) := by
  unfold deleteSessionsAndRecompute
  split
  next h_empty =>
    -- without ids there is no transaction
    obtain rfl := List.isEmpty_iff.mp h_empty
    exact .returned rfl
  next =>
    rw [← settle_carriedOut]
    exact transaction_settles
      (implements_bind (implements_resolve ids) (implements_carryOut order ids)) d fates

end Statements

/-! ### What the one step can do -/

section Result

variable {d d' : Database} {ids : List ℤ}

theorem resolveOwners_eq_none_iff : resolveOwners d ids = none ↔ ListsOpen d ids := by
  refine ⟨?_, ?_⟩
  · intro h_none
    by_contra h_open
    have h_closed : ∀ s ∈ d.sessions, s.id ∈ ids → s.isOpen = false := fun s hs h_id =>
      Bool.eq_false_iff.mpr fun h => h_open ⟨s, hs, h_id, h⟩
    obtain ⟨owners, h_some⟩ := resolveOwners_of_closed h_closed
    exact nomatch h_none.symm.trans h_some
  · rintro ⟨s, hs, h_id, h_open⟩
    cases h_some : resolveOwners d ids with
    | none => rfl
    | some owners =>
      have h_closed := (resolveOwners_eq_some h_some).1 s hs h_id
      rw [Session.isClosed_eq_not_isOpen, h_open] at h_closed
      exact absurd h_closed Bool.false_ne_true

/-- **The rebuild loop goes through** if and only if the counters of every application fit. -/
theorem foldlM_recompute_accepted_iff {owners : List ℤ}
    (h_owners : ∀ aid ∈ owners, ∃ a ∈ d.applications, a.id = aid) :
    (∃ d', owners.foldlM recomputeApplication d = .ok d') ↔
      ∀ aid ∈ owners, CountersFit (closedSessions d.sessions aid) := by
  induction owners generalizing d with
  | nil => exact iff_of_true ⟨d, rfl⟩ fun aid h_aid => absurd h_aid List.not_mem_nil
  | cons owner owners ih =>
    obtain ⟨a, ha, rfl⟩ := h_owners owner List.mem_cons_self
    -- a rebuild changes neither the sessions nor the ids of the applications
    have h_next : ∀ {d₁}, recomputeApplication d a.id = .ok d₁ →
        ((∃ d', owners.foldlM recomputeApplication d₁ = .ok d') ↔
          ∀ aid ∈ owners, CountersFit (closedSessions d.sessions aid)) := by
      intro d₁ h_first
      have h_tables := Database.execute_ok h_first
      have h_sessions : d₁.sessions = d.sessions := by rw [h_tables]
      have h_ids : d₁.applications.map Application.id = d.applications.map Application.id := by
        rw [h_tables]
        exact Sql.map_updateWhere fun _ _ => rfl
      rw [← h_sessions]
      refine ih fun aid h_aid => ?_
      obtain ⟨b, hb, h_id⟩ := h_owners aid (List.mem_cons_of_mem _ h_aid)
      refine List.mem_map.mp ?_
      rw [h_ids, ← h_id]
      exact List.mem_map_of_mem hb
    simp only [List.foldlM_cons, Except.bind_eq_ok, List.forall_mem_cons]
    refine ⟨?_, ?_⟩
    · rintro ⟨d', d₁, h_first, h_rest⟩
      exact ⟨(recomputeApplication_ok_iff ha).mp ⟨d₁, h_first⟩, (h_next h_first).mp ⟨d', h_rest⟩⟩
    · rintro ⟨h_fits, h_rest⟩
      obtain ⟨d₁, h_first⟩ := (recomputeApplication_ok_iff ha).mpr h_fits
      obtain ⟨d', h_last⟩ := (h_next h_first).mpr h_rest
      exact ⟨d', d₁, h_first, h_last⟩

theorem touched_iff {aid : ℤ} :
    touched d ids aid = true ↔ ∃ s ∈ d.sessions, s.id ∈ ids ∧ s.applicationId = aid := by
  simp [touched]

/-- The rebuilds after the rows have been deleted go through exactly when the counters fit. -/
theorem rebuild_accepted_iff {d₁ : Database} {visited : List ℤ}
    (h_visit : ∀ aid, aid ∈ visited ↔ touched d ids aid = true)
    (h_tables : d₁.toTables =
      { d.toTables with sessions := Sql.deleteWhere (fun s => s.id ∈ ids) d.sessions }) :
    (∃ d', visited.foldlM recomputeApplication d₁ = .ok d') ↔ ¬ Overflows d ids := by
  -- the rows that are left are those that the condition is about
  have h_left : ∀ aid, closedSessions d₁.sessions aid = remaining d ids aid := by
    intro aid
    rw [h_tables]
    exact closedSessions_deleteWhere ids d.sessions aid
  -- only an application of a deleted session is visited, and that exists
  have h_exist : ∀ aid ∈ visited, ∃ a ∈ d.applications, a.id = aid := by
    intro aid h_aid
    obtain ⟨s, hs, -, rfl⟩ := touched_iff.mp ((h_visit aid).mp h_aid)
    exact d.exists_owner hs
  have h_apps : d₁.applications = d.applications := by rw [h_tables]
  rw [foldlM_recompute_accepted_iff (by rwa [h_apps])]
  simp only [h_left]
  refine ⟨?_, fun h_fits aid h_aid => ?_⟩
  · rintro h_fits ⟨a, -, h_touched, h_over⟩
    exact h_over (h_fits a.id ((h_visit a.id).mpr h_touched))
  · by_contra h_over
    obtain ⟨a, ha, rfl⟩ := h_exist aid h_aid
    exact h_fits ⟨a, ha, (h_visit a.id).mp h_aid, h_over⟩

/-- **What the delete can return**, in whatever order the owners are visited. -/
theorem deleteIn_result (order : SetOrder) (d : Database) (ids : List ℤ) :
    DeleteResult d ids (deleteIn order d ids) := by
  unfold deleteIn
  split
  next h_none => exact .refused (resolveOwners_eq_none_iff.mp h_none)
  next h_some =>
    obtain ⟨-, h_owner⟩ := resolveOwners_eq_some h_some
    refine .nothing ?_
    rintro ⟨s, hs, h_id⟩
    exact absurd ((h_owner s.applicationId).mpr ⟨s, hs, h_id, rfl⟩) List.not_mem_nil
  next owners h_nonempty h_some =>
    obtain ⟨-, h_owner⟩ := resolveOwners_eq_some h_some
    have h_not_open : ¬ ListsOpen d ids := fun h_open =>
      nomatch h_some.symm.trans (resolveOwners_eq_none_iff.mpr h_open)
    have h_any : ListsAny d ids := by
      obtain ⟨aid, h_aid⟩ := List.exists_mem_of_ne_nil owners fun h_nil => h_nonempty h_nil
      obtain ⟨s, hs, h_id, -⟩ := (h_owner aid).mp h_aid
      exact ⟨s, hs, h_id⟩
    have h_visit : ∀ aid, aid ∈ order.visit owners ↔ touched d ids aid = true := by
      intro aid
      rw [(order.perm owners).mem_iff, List.mem_dedup, h_owner, touched_iff]
    -- the rows are deleted first, which always goes through
    obtain ⟨d₁, h_del⟩ := foldlM_delete_accepted d ids
    have h_del' : ids.foldlM Statements.deleteRow d = .ok d₁ := h_del
    have h_tables := foldlM_delete_ok h_del
    have h_accepted := rebuild_accepted_iff h_visit h_tables
    rw [h_del']
    show DeleteResult d ids (((order.visit owners).foldlM recomputeApplication d₁).map _)
    cases h_rebuilt : (order.visit owners).foldlM recomputeApplication d₁ with
    | error e =>
      refine .overflow h_not_open ?_
      by_contra h_fits
      obtain ⟨d', h_ok⟩ := h_accepted.mpr h_fits
      exact nomatch h_rebuilt.symm.trans h_ok
    | ok d' =>
      refine .deleted h_any h_not_open (h_accepted.mp ⟨d', h_rebuilt⟩) ?_
      have h_nodup : (order.visit owners).Nodup :=
        (order.perm owners).nodup_iff.mpr owners.nodup_dedup
      have h_same : ∀ a : Application,
          decide (a.id ∈ order.visit owners) = touched d ids a.id := by
        intro a
        rw [Bool.eq_iff_iff, decide_eq_true_eq]
        exact h_visit a.id
      rw [foldlM_recompute_ok h_nodup h_rebuilt, h_tables]
      simp only [h_same]
      rfl

/-- The order that removes all but the last of several equal owners. -/
def SetOrder.dedup : SetOrder := ⟨List.dedup, fun _ => List.Perm.refl _⟩

theorem deleteIn_dedup (d : Database) (ids : List ℤ) :
    deleteIn .dedup d ids = deleteSessionsAndRecompute d ids := by
  unfold deleteIn deleteSessionsAndRecompute
  cases ids with
  | nil => rfl
  -- the early exits are the same; then both delete and recompute
  | cons id ids =>
    simp only [List.isEmpty_cons, Bool.false_eq_true, if_false]
    cases resolveOwners d (id :: ids) with
    | none => rfl
    | some owners =>
      cases owners with
      | nil => rfl
      | cons owner owners =>
        show Except.map _ ((id :: ids).foldlM Statements.deleteRow d >>= _) =
          ((id :: ids).foldlM Statements.deleteRow d >>= _)
        cases (id :: ids).foldlM Statements.deleteRow d with
        | error e => rfl
        | ok d₁ =>
          show Except.map _ ((owner :: owners).dedup.foldlM recomputeApplication d₁) =
            ((owner :: owners).dedup.foldlM recomputeApplication d₁ >>= _)
          cases (owner :: owners).dedup.foldlM recomputeApplication d₁ <;> rfl

theorem delete_result (d : Database) (ids : List ℤ) :
    DeleteResult d ids (deleteSessionsAndRecompute d ids) := by
  rw [← deleteIn_dedup]
  exact deleteIn_result .dedup d ids

/-- A call with a result has no other. -/
theorem DeleteResult.unique {b : Bool} {r : Except Error (Bool × Database)}
    (h : DeleteResult d ids (.ok (b, d'))) (h_other : DeleteResult d ids r) : r = .ok (b, d') := by
  -- the four results exclude each other, but for the case of the one at hand
  cases h with
  | nothing h_none =>
    cases h_other with
    | refused h_open =>
      obtain ⟨s, hs, h_id, -⟩ := h_open
      exact absurd ⟨s, hs, h_id⟩ h_none
    | nothing _ => rfl
    | overflow _ h_over =>
      obtain ⟨a, -, h_touched, -⟩ := h_over
      obtain ⟨s, hs, h_id, -⟩ := touched_iff.mp h_touched
      exact absurd ⟨s, hs, h_id⟩ h_none
    | deleted h_any _ _ _ => exact absurd h_any h_none
  | deleted h_any h_not_open h_fits h_tables =>
    cases h_other with
    | refused h_open => exact absurd h_open h_not_open
    | nothing h_none => exact absurd h_any h_none
    | overflow _ h_over => exact absurd h_over h_fits
    | deleted _ _ _ h_tables' => rw [Database.ext_tables (h_tables'.trans h_tables.symm)]

end Result

/-! ### What a delete has done -/

/-- The value is the greatest of the list in the order of the stored texts, NULL when there is
none. -/
def IsLastStored (es : List OffsetDateTime) : Option OffsetDateTime → Prop
  | none => es = []
  | some t => t ∈ es ∧ ∀ e ∈ es, OffsetDateTime.textLt t e = false

/-- The row after its counters and `last_played_at` have been rebuilt from the closed sessions in
`rows`. -/
structure Rebuilt (rows : List Session) (a a' : Application) : Prop where
  frame : a' =
    { a with
      statRunCount := a'.statRunCount
      statTotalFull := a'.statTotalFull
      statTotalInteractive := a'.statTotalInteractive
      statLongestFull := a'.statLongestFull
      lastPlayedAt := a'.lastPlayedAt }
  counters : AggregatesAgree rows a'
  lastPlayed : IsLastStored (endedAts (closedSessions rows a.id)) a'.lastPlayedAt

theorem rebuilt_recompute (rows : List Session) (a : Application) :
    Rebuilt rows a (recompute rows a) where
  frame := rfl
  counters := AggregatesAgree.recomputed rows a
  lastPlayed := by
    show IsLastStored (endedAts (closedSessions rows a.id))
      (Sql.maxAgg OffsetDateTime.textLt (endedAts (closedSessions rows a.id)))
    cases h_max : Sql.maxAgg OffsetDateTime.textLt (endedAts (closedSessions rows a.id)) with
    | none => exact (Sql.maxAgg_eq_none_iff _).mp h_max
    | some t =>
      exact ⟨Sql.mem_of_maxAgg _ h_max, Sql.not_lt_maxAgg _ OffsetDateTime.textLt_asymm
        OffsetDateTime.textLt_trans_false h_max⟩

/-- What a delete that returns true has done. -/
structure Deleted (d : Database) (ids : List ℤ) (d' : Database) : Prop where
  /-- Exactly the listed rows are gone, and the others are as they were. -/
  sessions : d'.sessions = d.sessions.filter fun s => s.id ∉ ids
  /-- The owner of a listed row has its counters rebuilt. -/
  owner : ∀ a ∈ d.applications, (∃ s ∈ d.sessions, s.id ∈ ids ∧ s.applicationId = a.id) →
    ∃ a' ∈ d'.applications, Rebuilt d'.sessions a a'
  /-- The other applications are as they were. -/
  other : ∀ a ∈ d.applications, (∀ s ∈ d.sessions, s.id ∈ ids → s.applicationId ≠ a.id) →
    a ∈ d'.applications
  /-- No application comes or goes. -/
  applications : d'.applications.map Application.id = d.applications.map Application.id
  rest : d'.groups = d.groups ∧ d'.applicationSeq = d.applicationSeq ∧ d'.sessionSeq = d.sessionSeq

theorem deleted_of_tables {d d' : Database} {ids : List ℤ}
    (h : d'.toTables = deletedTables ids d.toTables) : Deleted d ids d' where
  sessions := by
    rw [h]
    exact List.filter_congr fun s _ => by rw [decide_not]
  owner := by
    intro a ha h_owns
    -- the application of a deleted session is among those recomputed
    refine ⟨recompute d'.sessions a, ?_, rebuilt_recompute d'.sessions a⟩
    rw [h]
    exact Sql.mem_updateWhere.mpr ⟨a, ha, if_pos (touched_iff.mpr h_owns)⟩
  other := by
    intro a ha h_none
    rw [h]
    -- of another application no session was deleted
    refine Sql.mem_updateWhere.mpr ⟨a, ha, if_neg fun h_touched => ?_⟩
    obtain ⟨s, hs, h_id, h_own⟩ := touched_iff.mp h_touched
    exact h_none s hs h_id h_own
  applications := by
    rw [h]
    exact Sql.map_updateWhere fun _ _ => rfl
  rest := by
    rw [h]
    exact ⟨rfl, rfl, rfl⟩

/-! ### Two deletes -/

/-- The database a call leaves. -/
def SessionRepo.deleteEffect (d : Database) (ids : List ℤ) : Database :=
  match deleteSessionsAndRecompute d ids with
  | .ok (_, d') => d'
  | .error _ => d

/-- The call fails although no listed session is open: a rebuilt counter does not fit its column. -/
def FailsToFit (d : Database) (ids : List ℤ) : Prop := ¬ ListsOpen d ids ∧ Overflows d ids

section Two

variable {d d' : Database} {ids ids' : List ℤ} {t : Tables}

theorem deleteWhere_append (rows : List Session) (ids ids' : List ℤ) :
    Sql.deleteWhere (fun s => s.id ∈ ids') (Sql.deleteWhere (fun s => s.id ∈ ids) rows)
      = Sql.deleteWhere (fun s => s.id ∈ ids ++ ids') rows := by
  unfold Sql.deleteWhere
  rw [List.filter_filter]
  refine List.filter_congr fun s _ => ?_
  simp only [List.mem_append, Bool.decide_or, Bool.not_or, Bool.and_comm]

/-- What is rebuilt twice is rebuilt from the rows of the second time. -/
theorem recompute_recompute (rows rows' : List Session) (a : Application) :
    recompute rows' (recompute rows a) = recompute rows' a := rfl

/-- A rebuild looks at the closed rows of its application only. -/
theorem recompute_congr {rows rows' : List Session} {a : Application}
    (h : closedSessions rows a.id = closedSessions rows' a.id) :
    recompute rows a = recompute rows' a := by
  unfold recompute
  rw [h]

/-- A row that one of two lists names is named by the first one, or left and named by the second. -/
theorem any_listed_append (rows : List Session) (ids ids' : List ℤ) (aid : ℤ) :
    (rows.any fun s => s.id ∈ ids ++ ids' && s.applicationId = aid) =
      ((rows.any fun s => s.id ∈ ids && s.applicationId = aid) ||
        (Sql.deleteWhere (fun s => s.id ∈ ids) rows).any fun s =>
          s.id ∈ ids' && s.applicationId = aid) := by
  rw [Bool.eq_iff_iff, Bool.or_eq_true]
  simp only [List.any_eq_true, Bool.and_eq_true, decide_eq_true_eq, List.mem_append,
    Sql.deleteWhere, List.mem_filter, Bool.not_eq_true', decide_eq_false_iff_not]
  refine ⟨?_, ?_⟩
  · -- a session is deleted the first time it is listed
    rintro ⟨s, hs, h_listed, h_own⟩
    by_cases h_first : s.id ∈ ids
    · exact Or.inl ⟨s, hs, h_first, h_own⟩
    · exact Or.inr ⟨s, ⟨hs, h_first⟩, h_listed.resolve_left h_first, h_own⟩
  · rintro (⟨s, hs, h_first, h_own⟩ | ⟨s, ⟨hs, -⟩, h_second, h_own⟩)
    · exact ⟨s, hs, Or.inl h_first, h_own⟩
    · exact ⟨s, hs, Or.inr h_second, h_own⟩

/-- A delete that lists no row of an application leaves its closed rows alone. -/
theorem closedSessions_unlisted {rows : List Session} {aid : ℤ}
    (h : (rows.any fun s => s.id ∈ ids && s.applicationId = aid) = false) :
    closedSessions (Sql.deleteWhere (fun s => s.id ∈ ids) rows) aid = closedSessions rows aid := by
  rw [closedSessions_deleteWhere]
  refine List.filter_eq_self.mpr fun s hs => ?_
  obtain ⟨hs, h_own, -⟩ := mem_closedSessions.mp hs
  have h_none := List.any_eq_false.mp h s hs
  simpa [h_own] using h_none

/-- **A delete after a delete** is a delete of both lists. -/
theorem deletedTables_append (t : Tables) (ids ids' : List ℤ) :
    deletedTables ids' (deletedTables ids t) = deletedTables (ids ++ ids') t := by
  let left := Sql.deleteWhere (fun s => s.id ∈ ids) t.sessions
  have h_rows := deleteWhere_append t.sessions ids ids'
  have h_apps : ∀ a : Application,
      (fun a : Application =>
          if (left.any fun s => s.id ∈ ids' && s.applicationId = a.id) = true then
            recompute (Sql.deleteWhere (fun s => s.id ∈ ids') left) a else a)
        (if (t.sessions.any fun s => s.id ∈ ids && s.applicationId = a.id) = true then
          recompute left a else a)
      = if (t.sessions.any fun s => s.id ∈ ids ++ ids' && s.applicationId = a.id) = true then
          recompute (Sql.deleteWhere (fun s => s.id ∈ ids ++ ids') t.sessions) a else a := by
    intro a
    have h_id : (if (t.sessions.any fun s => s.id ∈ ids && s.applicationId = a.id) = true then
        recompute left a else a).id = a.id := by split <;> rfl
    simp only [h_id]
    rw [any_listed_append, ← h_rows]
    cases h_second : left.any fun s => s.id ∈ ids' && s.applicationId = a.id with
    | true =>
      simp only [Bool.or_true, if_true]
      split
      · rw [recompute_recompute]
      · rfl
    | false =>
      -- the second call lists no row that is left of this application
      simp only [Bool.or_false, Bool.false_eq_true, if_false]
      split
      · exact recompute_congr (closedSessions_unlisted h_second).symm
      · rfl
  unfold deletedTables
  rw [← h_rows] at h_apps ⊢
  refine congrArg (fun apps => { t with
    applications := apps
    sessions := Sql.deleteWhere (fun s => s.id ∈ ids') left }) ?_
  rw [Sql.updateWhere, Sql.updateWhere, Sql.updateWhere, List.map_map]
  exact List.map_congr_left fun a _ => h_apps a

/-- The order of the ids, and how often they are listed, does not matter. -/
theorem deletedTables_congr (h : ∀ id, id ∈ ids ↔ id ∈ ids') (t : Tables) :
    deletedTables ids t = deletedTables ids' t := by
  unfold deletedTables
  simp only [h]

theorem deletedTables_comm (t : Tables) (ids ids' : List ℤ) :
    deletedTables ids' (deletedTables ids t) = deletedTables ids (deletedTables ids' t) := by
  rw [deletedTables_append, deletedTables_append]
  exact deletedTables_congr (fun id => by rw [List.mem_append, List.mem_append, or_comm]) t

/-- A call that does not fail for want of room leaves the rows and counters of the delete, unless an
open session is listed. -/
theorem deleteEffect_tables (h : ¬ FailsToFit d ids) :
    (ListsOpen d ids → deleteEffect d ids = d) ∧
      (¬ ListsOpen d ids → (deleteEffect d ids).toTables = deletedTables ids d.toTables) := by
  have h_result := delete_result d ids
  unfold deleteEffect
  generalize deleteSessionsAndRecompute d ids = r at h_result
  cases h_result with
  | refused h_open => exact ⟨fun _ => rfl, fun h_not => absurd h_open h_not⟩
  | nothing h_none =>
    refine ⟨fun _ => rfl, fun _ => ?_⟩
    -- nothing is listed, so nothing is deleted and nothing rebuilt
    have h_rows : Sql.deleteWhere (fun s => s.id ∈ ids) d.sessions = d.sessions :=
      List.filter_eq_self.mpr fun s hs => by
        simpa using fun h_id => h_none ⟨s, hs, h_id⟩
    have h_apps : ∀ rows, Sql.updateWhere
        (fun a => d.sessions.any fun s => s.id ∈ ids && s.applicationId = a.id) (recompute rows)
        d.applications = d.applications := fun rows =>
      Sql.updateWhere_of_forall_not fun a _ => by
        refine List.any_eq_false.mpr fun s hs => ?_
        simpa using fun h_id => absurd ⟨s, hs, h_id⟩ h_none
    unfold deletedTables
    rw [h_rows, h_apps]
  | overflow h_not h_over => exact absurd ⟨h_not, h_over⟩ h
  | deleted _ h_not _ h_tables => exact ⟨fun h_open => absurd h_open h_not, fun _ => h_tables⟩

/-- The open rows are the same after a delete. -/
theorem listsOpen_deleted (h_not : ¬ ListsOpen d ids)
    (h : d'.toTables = deletedTables ids d.toTables) : ListsOpen d' ids' ↔ ListsOpen d ids' := by
  have h_rows : ∀ s, s ∈ d'.sessions ↔ s ∈ d.sessions ∧ s.id ∉ ids := by
    intro s
    rw [(deleted_of_tables h).sessions, List.mem_filter, decide_eq_true_eq]
  refine ⟨?_, ?_⟩
  · rintro ⟨s, hs, h_id, h_open⟩
    exact ⟨s, ((h_rows s).mp hs).1, h_id, h_open⟩
  · rintro ⟨s, hs, h_id, h_open⟩
    exact ⟨s, (h_rows s).mpr ⟨hs, fun h_listed => h_not ⟨s, hs, h_listed, h_open⟩⟩, h_id, h_open⟩

/-- Fewer rows have smaller counters. -/
theorem CountersFit.sublist {rows rows' : List Session} (h : CountersFit rows)
    (h_sub : rows'.Sublist rows) (h_rows : ∀ s ∈ rows, s.Checks) : CountersFit rows' := by
  have h_len := h_sub.length_le
  have h_sum : (rows'.map Session.fullRuntimeSeconds).sum
      ≤ (rows.map Session.fullRuntimeSeconds).sum :=
    (h_sub.map _).sum_le_sum (List.forall_mem_map.mpr fun s hs => (h_rows s hs).2.1)
  exact ⟨by have := h.1; omega, lt_of_le_of_lt h_sum h.2⟩

/-- A call that does not fail for want of room does not do so after another delete. -/
theorem failsToFit_deleted (h_not : ¬ ListsOpen d ids)
    (h : d'.toTables = deletedTables ids d.toTables) (h_fits : ¬ FailsToFit d ids') :
    ¬ FailsToFit d' ids' := by
  rintro ⟨h_not', a', ha', h_touched, h_over⟩
  refine h_fits ⟨fun h_open => h_not' ((listsOpen_deleted h_not h).mpr h_open), ?_⟩
  have h_deleted := deleted_of_tables h
  -- the row of before, and its closed sessions
  obtain ⟨a, ha, h_id⟩ : ∃ a ∈ d.applications, a.id = a'.id := by
    refine List.mem_map.mp ?_
    rw [← h_deleted.applications]
    exact List.mem_map_of_mem ha'
  refine ⟨a, ha, ?_, fun h_before => h_over ?_⟩
  · obtain ⟨s, hs, h_listed, h_own⟩ := touched_iff.mp h_touched
    rw [h_deleted.sessions] at hs
    exact touched_iff.mpr ⟨s, (List.mem_filter.mp hs).1, h_listed, h_own.trans h_id.symm⟩
  · rw [h_id] at h_before
    refine h_before.sublist ?_ fun s hs => ?_
    · unfold remaining closedSessions
      rw [h_deleted.sessions]
      exact ((List.filter_sublist.filter _).filter _)
    · exact d.checks.2 s (mem_closedSessions.mp (List.mem_filter.mp hs).1).1

theorem deleteEffect_comm (h : ¬ FailsToFit d ids) (h' : ¬ FailsToFit d ids') :
    deleteEffect (deleteEffect d ids) ids' = deleteEffect (deleteEffect d ids') ids := by
  obtain ⟨h_same, h_tables⟩ := deleteEffect_tables h
  obtain ⟨h_same', h_tables'⟩ := deleteEffect_tables h'
  by_cases h_open : ListsOpen d ids
  · rw [h_same h_open]
    by_cases h_open' : ListsOpen d ids'
    · rw [h_same' h_open', h_same h_open]
    · -- the first call is refused before and after the second one
      have h_after := (listsOpen_deleted h_open' (h_tables' h_open')).mpr h_open
      exact ((deleteEffect_tables (failsToFit_deleted h_open' (h_tables' h_open') h)).1 h_after).symm
  · have h_second := failsToFit_deleted h_open (h_tables h_open) h'
    by_cases h_open' : ListsOpen d ids'
    · rw [h_same' h_open']
      exact (deleteEffect_tables h_second).1
        ((listsOpen_deleted h_open (h_tables h_open)).mpr h_open')
    · have h_first := failsToFit_deleted h_open' (h_tables' h_open') h
      have h_not := fun h => h_open' ((listsOpen_deleted h_open (h_tables h_open)).mp h)
      have h_not' := fun h => h_open ((listsOpen_deleted h_open' (h_tables' h_open')).mp h)
      refine Database.ext_tables ?_
      rw [(deleteEffect_tables h_second).2 h_not, (deleteEffect_tables h_first).2 h_not',
        h_tables h_open, h_tables' h_open']
      exact deletedTables_comm d.toTables ids ids'

/-- A delete leaves none of the listed rows. -/
theorem delete_again {deleted : Bool}
    (h : deleteSessionsAndRecompute d ids = .ok (deleted, d')) :
    deleteSessionsAndRecompute d' ids = .ok (false, d') := by
  have h_none : ¬ ListsAny d' ids := by
    rintro ⟨s, hs, h_id⟩
    rw [(deleteSessionsAndRecompute_ok h).2] at hs
    simpa [h_id] using (List.mem_filter.mp hs).2
  exact DeleteResult.unique (.nothing h_none) (delete_result d' ids)

/-- Counters that agree with the closed rows have room for fewer of them. -/
theorem not_failsToFit_of_agree (h : ∀ a ∈ d.applications, AggregatesAgree d.sessions a) :
    ¬ FailsToFit d ids := by
  rintro ⟨-, a, ha, -, h_over⟩
  have h_checks := d.checks.1 a ha
  have h_all : CountersFit (closedSessions d.sessions a.id) := by
    refine ⟨?_, ?_⟩
    · rw [← (h a ha).runCount]
      exact h_checks.2.2.1.2
    · rw [← (h a ha).totalFull]
      exact h_checks.2.2.2.2.1.2
  refine h_over (h_all.sublist List.filter_sublist fun s hs => ?_)
  exact d.checks.2 s (mem_closedSessions.mp hs).1

end Two

/-! ### The method -/

open Transact in
/-- An outcome of the method, whatever happens to its statements. -/
inductive DeleteOutcome (d : Database) (ids : List ℤ) (fates : List Fate) :
    Outcome (Connection Database) Unit Error Bool → Prop
  | deleted {d' : Database} {rest : List Fate} : ListsAny d ids → ¬ ListsOpen d ids →
      deleteSessionsAndRecompute d ids = .ok (true, d') → Deleted d ids d' →
      DeleteOutcome d ids fates (.returned true () ⟨d', none⟩ rest)
  | nothing {rest : List Fate} : ¬ ListsAny d ids →
      deleteSessionsAndRecompute d ids = .ok (false, d) →
      DeleteOutcome d ids fates (.returned false () ⟨d, none⟩ rest)
  | failed {e : Error} {rest : List Fate} :
      ListsOpen d ids ∨ FailsToFit d ids ∨ Disturbed fates →
      DeleteOutcome d ids fates (.threw e () ⟨d, none⟩ rest)
  | died {c : Connection Database} : Disturbed fates → c.committed = d →
      DeleteOutcome d ids fates (.died c)

open Transact in
theorem deleteOutcome (order : SetOrder) (d : Database) (ids : List ℤ) (fates : List Fate) :
    DeleteOutcome d ids fates
      (Statements.deleteSessionsAndRecompute order ids () ⟨d, none⟩ fates) := by
  have h_settles := Statements.settles order ids d fates
  generalize Statements.deleteSessionsAndRecompute order ids () ⟨d, none⟩ fates = o at h_settles
  have h_result := deleteIn_result order d ids
  cases h_settles with
  | returned h_ok =>
    rw [h_ok] at h_result
    -- the one step has the same result in every order
    have h_step := h_result.unique (delete_result d ids)
    cases h_result with
    | nothing h_none => exact .nothing h_none h_step
    | deleted h_any h_not _ h_tables => exact .deleted h_any h_not h_step (deleted_of_tables h_tables)
  | refused h_error =>
    rw [h_error] at h_result
    cases h_result with
    | refused h_open => exact .failed (Or.inl h_open)
    | overflow h_not h_over => exact .failed (Or.inr (Or.inl ⟨h_not, h_over⟩))
  | failed h_disturbed => exact .failed (Or.inr (Or.inr h_disturbed))
  | died h_disturbed h_committed => exact .died h_disturbed h_committed

open Transact in
/-- **The delete is atomic and framed.** Whatever happens to its statements and in whatever order the
owners are visited, the method deletes exactly the listed rows and rebuilds exactly their owners, or
it leaves the database alone; it fails only for an open session, for want of room in a rebuilt
counter, or with a statement that is not carried out. Two deletes neither of which fails for want of
room commute, a delete again is a no-op, and counters that agree with the closed rows have room. -/
theorem delete_atomic_framed (d : Database) (ids : List ℤ) :
    (∀ (order : SetOrder) (fates : List Fate), DeleteOutcome d ids fates
        (Statements.deleteSessionsAndRecompute order ids () ⟨d, none⟩ fates)) ∧
      (∀ ids', ¬ FailsToFit d ids → ¬ FailsToFit d ids' →
        deleteEffect (deleteEffect d ids) ids' = deleteEffect (deleteEffect d ids') ids) ∧
      (∀ d', deleteSessionsAndRecompute d ids = .ok (true, d') →
        deleteSessionsAndRecompute d' ids = .ok (false, d')) ∧
      ((∀ a ∈ d.applications, AggregatesAgree d.sessions a) → ¬ FailsToFit d ids) :=
  ⟨fun order fates => deleteOutcome order d ids fates, fun _ h h' => deleteEffect_comm h h',
    fun _ h => delete_again h, not_failsToFit_of_agree⟩

/-- Two sessions of an application are closed for others that were merged into it while they were
playing, so that it is not charged; their runtimes have a sum that does not fit a column. A third one
is its own. -/
def mergedWhilePlaying : List Op :=
  [.create (newSteam "10" (.firstDay 0)), .create (newSteam "20" (.firstDay 1)),
    .begin 2 (.firstDay 100), .mergeInto 2 1,
    .closeAndRollup 1 2 ⟨2 ^ 62, 0, .firstDay 200⟩ .terminated,
    .create (newSteam "20" (.firstDay 201)), .begin 3 (.firstDay 1000), .mergeInto 3 1,
    .closeAndRollup 2 3 ⟨2 ^ 62, 0, .firstDay 1100⟩ .terminated,
    .begin 1 (.firstDay 2000), .closeAndRollup 3 1 ⟨100, 100, .firstDay 2100⟩ .terminated]

/-- The third session can be deleted after the first one, but not before it. -/
theorem mergedWhilePlaying_not_commute :
    ¬ ∀ d : Database, d.Reachable → ∀ ids ids',
      deleteEffect (deleteEffect d ids) ids' = deleteEffect (deleteEffect d ids') ids := by
  intro h
  have h_reach : (Run.final Database.empty (Op.trace .empty mergedWhilePlaying)).Reachable :=
    Database.Reachable.empty.run (Op.isRun_trace _ _) (by decide +kernel)
  have h_comm := congrArg (fun d : Database => d.sessions.map Session.id) (h _ h_reach [3] [1])
  revert h_comm
  decide +kernel

end Ludex
