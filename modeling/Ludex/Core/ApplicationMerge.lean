import Ludex.Lib.Connection
import Ludex.Core.Reachable

/-!
# `merge_into`

`ApplicationRepo` takes the merge as one step. `Statements.mergeInto` is the method statement by
statement, with the `UPDATE` of the metadata built from the columns the source can contribute
(`fillClauses`), in a transaction that an error drops. `Statements.mergeInto_settles` says that it
is atomic.

`mergeInto_ok_iff` says when the one step goes through: source and destination are two rows, they do
not both have an open session, and the columns have room for the sums of their counters. `Merged`
is what it has done then.
-/

namespace Ludex

open ApplicationRepo

/-! ### The metadata columns -/

/-- A nullable metadata column of `applications`. -/
inductive MetadataColumn where
  | publisher
  | version
  | executablePath
  | launcherExePath
  | wineprefixPath
  | installedFlatpakRef
  | groupId
  | icon16
  | icon32
  | icon48
  | icon256

namespace MetadataColumn

/-- What a column holds when it is not NULL. -/
abbrev Value : MetadataColumn → Type
  | publisher | version | executablePath | launcherExePath | wineprefixPath
  | installedFlatpakRef => String
  | groupId => ℤ
  | icon16 | icon32 | icon48 | icon256 => Blob

def get : (c : MetadataColumn) → Application → Option c.Value
  | publisher, a => a.publisher
  | version, a => a.version
  | executablePath, a => a.executablePath
  | launcherExePath, a => a.launcherExePath
  | wineprefixPath, a => a.wineprefixPath
  | installedFlatpakRef, a => a.installedFlatpakRef
  | groupId, a => a.groupId
  | icon16, a => a.icons.icon16
  | icon32, a => a.icons.icon32
  | icon48, a => a.icons.icon48
  | icon256, a => a.icons.icon256

def set : (c : MetadataColumn) → Option c.Value → Application → Application
  | publisher, v, a => { a with publisher := v }
  | version, v, a => { a with version := v }
  | executablePath, v, a => { a with executablePath := v }
  | launcherExePath, v, a => { a with launcherExePath := v }
  | wineprefixPath, v, a => { a with wineprefixPath := v }
  | installedFlatpakRef, v, a => { a with installedFlatpakRef := v }
  | groupId, v, a => { a with groupId := v }
  | icon16, v, a => { a with icons := { a.icons with icon16 := v } }
  | icon32, v, a => { a with icons := { a.icons with icon32 := v } }
  | icon48, v, a => { a with icons := { a.icons with icon48 := v } }
  | icon256, v, a => { a with icons := { a.icons with icon256 := v } }

theorem set_get (c : MetadataColumn) (a : Application) : c.set (c.get a) a = a := by
  cases c <;> rfl

/-- The columns in the order of the statement. -/
def all : List MetadataColumn :=
  [publisher, version, executablePath, launcherExePath, wineprefixPath, installedFlatpakRef, groupId,
    icon16, icon32, icon48, icon256]

end MetadataColumn

/-! ### The dynamic `UPDATE` -/

/-- `column = COALESCE(column, ?)`, if the source has a value. -/
def fillNullable (src : Application) (c : MetadataColumn) : Option (Application → Application) :=
  (c.get src).map fun v dst => c.set ((c.get dst).or (some v)) dst

/-- `graphics_platform = CASE WHEN graphics_platform = 'unknown' THEN ? ELSE graphics_platform END`,
if that of the source is known. -/
def fillGraphicsPlatform (src : Application) : Option (Application → Application) :=
  if src.graphicsPlatform ≠ .unknown then
    some fun dst =>
      { dst with
        graphicsPlatform :=
          if dst.graphicsPlatform = .unknown then src.graphicsPlatform else dst.graphicsPlatform }
  else none

/-- The same for `process_architecture`. -/
def fillProcessArchitecture (src : Application) : Option (Application → Application) :=
  if src.processArchitecture ≠ .unknown then
    some fun dst =>
      { dst with
        processArchitecture :=
          if dst.processArchitecture = .unknown then src.processArchitecture
          else dst.processArchitecture }
  else none

/-- The clauses of the `UPDATE`: one for each column the source can contribute to. -/
def fillClauses (src : Application) : List (Application → Application) :=
  (MetadataColumn.all.map (fillNullable src) ++
    [fillGraphicsPlatform src, fillProcessArchitecture src]).filterMap id

/-- The row after the `UPDATE`. Each clause assigns a column of its own. -/
def applyClauses (clauses : List (Application → Application)) (dst : Application) : Application :=
  clauses.foldl (fun a clause => clause a) dst

theorem applyClauses_filterMap (clauses : List (Option (Application → Application)))
    (dst : Application) :
    applyClauses (clauses.filterMap id) dst = clauses.foldl (fun a clause => clause.elim a (· a)) dst := by
  unfold applyClauses
  induction clauses generalizing dst with
  | nil => rfl
  | cons clause clauses ih =>
    cases clause with
    | none => exact ih dst
    | some clause => exact ih (clause dst)

/-- A clause that is left out would have assigned the old value. -/
theorem fillNullable_elim (src : Application) (c : MetadataColumn) (dst : Application) :
    (fillNullable src c).elim dst (· dst) = c.set ((c.get dst).or (c.get src)) dst := by
  unfold fillNullable
  cases c.get src with
  | none =>
    rw [Option.or_none, c.set_get]
    rfl
  | some v => rfl

theorem fillGraphicsPlatform_elim (src dst : Application) :
    (fillGraphicsPlatform src).elim dst (· dst) =
      { dst with
        graphicsPlatform :=
          if src.graphicsPlatform ≠ .unknown ∧ dst.graphicsPlatform = .unknown then
            src.graphicsPlatform
          else dst.graphicsPlatform } := by
  unfold fillGraphicsPlatform
  by_cases h : src.graphicsPlatform ≠ .unknown
  · simp [h]
  · simp [h]

theorem fillProcessArchitecture_elim (src dst : Application) :
    (fillProcessArchitecture src).elim dst (· dst) =
      { dst with
        processArchitecture :=
          if src.processArchitecture ≠ .unknown ∧ dst.processArchitecture = .unknown then
            src.processArchitecture
          else dst.processArchitecture } := by
  unfold fillProcessArchitecture
  by_cases h : src.processArchitecture ≠ .unknown
  · simp [h]
  · simp [h]

/-- **The dynamic `UPDATE`** is `applyMetadataFill`, whichever clauses it has. -/
theorem applyClauses_fillClauses (src dst : Application) :
    applyClauses (fillClauses src) dst = applyMetadataFill src dst := by
  unfold fillClauses
  rw [applyClauses_filterMap, List.foldl_append, List.foldl_map]
  simp only [fillNullable_elim, MetadataColumn.all, List.foldl_cons, List.foldl_nil,
    fillGraphicsPlatform_elim, fillProcessArchitecture_elim, MetadataColumn.set, MetadataColumn.get,
    applyMetadataFill]

/-! ### The method, statement by statement -/

namespace Statements

open Transact

/-- `SELECT … FROM applications WHERE id = ?`. -/
def selectApplication (id : ℤ) (d : Database) : Except Error (Option Application × Database) :=
  .ok (findById d id, d)

/-- `UPDATE sessions SET application_id = ? WHERE application_id = ?`. -/
def reparentSessions (srcId dstId : ℤ) (d : Database) : Except Error Database :=
  Database.execute { d.toTables with sessions := reparent srcId dstId d.sessions }

/-- `UPDATE applications SET … WHERE id = ?`. -/
def updateApplication (dstId : ℤ) (f : Application → Application) (d : Database) :
    Except Error Database :=
  Database.execute
    { d.toTables with applications := Sql.updateWhere (fun a => a.id = dstId) f d.applications }

/-- `DELETE FROM applications WHERE id = ?`, with `ON DELETE CASCADE`. -/
def deleteApplication (srcId : ℤ) (d : Database) : Except Error Database :=
  Database.execute
    { d.toTables with
      applications := Sql.deleteWhere (fun a => a.id = srcId) d.applications
      sessions := Sql.deleteWhere (fun s => s.applicationId = srcId) d.sessions }

/-- A statement without a result. -/
def run (op : Database → Except Error Database) : Method Database Error Unit :=
  Method.statement (.sql .io) fun d => (op d).map fun d => ((), d)

/-- The `UPDATE` of the metadata, unless it has no clause. -/
def fillMetadata (src : Application) (dstId : ℤ) : Method Database Error Unit :=
  if (fillClauses src).isEmpty then pure ()
  else run (updateApplication dstId (applyClauses (fillClauses src)))

/-- The statements that write. -/
def mergeRows (src : Application) (dstId : ℤ) : Method Database Error Unit := do
  run (reparentSessions src.id dstId)
  run (updateApplication dstId (mergeStats src))
  fillMetadata src dstId
  run (deleteApplication src.id)

/-- The body of the transaction. -/
def mergeBody (srcId dstId : ℤ) : Method Database Error (Ending Error Unit) := do
  match ← Method.statement (.sql .io) (selectApplication srcId) with
  | none => Program.throw (.invariant "merge: source application not found")
  | some src =>
    let dst ← Method.statement (.sql .io) (selectApplication dstId)
    if dst.isNone then Program.throw (.invariant "merge: destination application not found")
    else do
      mergeRows src dstId
      return .commit ()

/-- Fold `srcId` into `dstId`, then delete `srcId`. -/
def mergeInto (srcId dstId : ℤ) : Method Database Error Unit :=
  if srcId = dstId then
    Program.throw (.invariant "merge source and destination are the same application")
  else Method.transaction (.sql .io) (mergeBody srcId dstId)

end Statements

/-! ### The statements do what the step does -/

namespace Statements

open Transact

theorem implements_run (op : Database → Except Error Database) :
    Implements (.sql .io) (run op) fun d => (op d).map fun d => ((), d) :=
  implements_statement _

theorem implements_fillMetadata (src : Application) (dstId : ℤ) :
    Implements (.sql .io) (fillMetadata src dstId) fun d =>
      (updateApplication dstId (applyMetadataFill src) d).map fun d => ((), d) := by
  have h_fill : applyClauses (fillClauses src) = applyMetadataFill src := by
    ext1 dst
    exact applyClauses_fillClauses src dst
  unfold fillMetadata
  split
  next h_empty =>
    -- no clause, no statement: it would have changed nothing
    refine (implements_pure ()).congr fun d => ?_
    have h_same : ∀ a, applyMetadataFill src a = a := by
      intro a
      rw [← h_fill, List.isEmpty_iff.mp h_empty]
      rfl
    have h_rows : Sql.updateWhere (fun a => a.id = dstId) (applyMetadataFill src) d.applications =
        d.applications := by
      unfold Sql.updateWhere
      simp only [h_same, ite_self, List.map_id']
    unfold updateApplication
    rw [h_rows, Database.execute_self]
    rfl
  next =>
    rw [h_fill]
    exact implements_run _

theorem implements_mergeRows (src : Application) (dstId : ℤ) :
    Implements (.sql .io) (mergeRows src dstId) fun d =>
      (ApplicationRepo.mergeRows d src dstId).map fun d => ((), d) := by
  refine (implements_bind (implements_run _) fun _ => implements_bind (implements_run _) fun _ =>
    implements_bind (implements_fillMetadata src dstId) fun _ => implements_run _).congr fun d => ?_
  -- the four statements one after the other, on both sides
  show (reparentSessions src.id dstId d).map _ >>= _ =
    (reparentSessions src.id dstId d >>= fun d => updateApplication dstId (mergeStats src) d >>=
      fun d => updateApplication dstId (applyMetadataFill src) d >>=
        fun d => deleteApplication src.id d).map _
  cases reparentSessions src.id dstId d with
  | error e => rfl
  | ok d₁ =>
    simp only [Except.map, bind, Except.bind]
    cases updateApplication dstId (mergeStats src) d₁ with
    | error e => rfl
    | ok d₂ =>
      simp only
      cases updateApplication dstId (applyMetadataFill src) d₂ <;> rfl

/-- What the body of the transaction does to the working copy. -/
def mergedBody (srcId dstId : ℤ) (d : Database) : Except Error (Ending Error Unit × Database) :=
  match findById d srcId with
  | none => .error (.invariant "merge: source application not found")
  | some src =>
    if (findById d dstId).isNone then
      .error (.invariant "merge: destination application not found")
    else (ApplicationRepo.mergeRows d src dstId).map fun d => (.commit (), d)

theorem implements_mergeBody (srcId dstId : ℤ) :
    Implements (.sql .io) (mergeBody srcId dstId) (mergedBody srcId dstId) := by
  -- what follows the two reads
  have h_write : ∀ (src : Application) (dst : Option Application), Implements (.sql .io)
      (if dst.isNone then
        (Program.throw (.invariant "merge: destination application not found") :
          Method Database Error (Ending Error Unit))
      else do
        mergeRows src dstId
        return .commit ())
      fun d => if dst.isNone then .error (.invariant "merge: destination application not found")
        else (ApplicationRepo.mergeRows d src dstId).map fun d => (.commit (), d) := by
    intro src dst
    cases dst with
    | none => exact implements_throw _
    | some dst =>
      refine (implements_bind (implements_mergeRows src dstId) fun _ =>
        implements_pure _).congr fun d => ?_
      show ((ApplicationRepo.mergeRows d src dstId).map _ >>= _) =
        (ApplicationRepo.mergeRows d src dstId).map _
      cases ApplicationRepo.mergeRows d src dstId <;> rfl
  refine (implements_bind (implements_statement (selectApplication srcId)) (g := fun
    | none => fun _ => .error (.invariant "merge: source application not found")
    | some src => fun d =>
      if (findById d dstId).isNone then
        .error (.invariant "merge: destination application not found")
      else (ApplicationRepo.mergeRows d src dstId).map fun d => (.commit (), d)) ?_).congr ?_
  · rintro (_ | src)
    · exact implements_throw _
    · exact implements_bind (implements_statement (selectApplication dstId)) (h_write src)
  · intro d
    unfold mergedBody selectApplication
    show (match findById d srcId with
      | none => _
      | some src => _ : Database → Except Error (Ending Error Unit × Database)) d = _
    cases findById d srcId <;> rfl

/-- **The merge is atomic.** Whatever happens to its statements, it has the effect of the one step,
or none. -/
theorem mergeInto_settles (srcId dstId : ℤ) (d : Database) (fates : List Fate) :
    Settles (.sql .io) d ((ApplicationRepo.mergeInto d srcId dstId).map fun d => ((), d)) fates
      (mergeInto srcId dstId () ⟨d, none⟩ fates) := by
  unfold mergeInto ApplicationRepo.mergeInto
  by_cases h_same : srcId = dstId
  · rw [if_pos h_same, if_pos h_same]
    exact .refused rfl
  · rw [if_neg h_same, if_neg h_same]
    have h_settles := transaction_settles (implements_mergeBody srcId dstId) d fates
    -- the body commits exactly when both applications exist and the rows can be merged
    have h_result : (mergedBody srcId dstId d >>= Ending.settle d) =
        (match findById d srcId with
          | none => .error (.invariant "merge: source application not found")
          | some src =>
            if (findById d dstId).isNone then
              .error (.invariant "merge: destination application not found")
            else ApplicationRepo.mergeRows d src dstId : Except Error Database).map
          fun d => ((), d) := by
      unfold mergedBody
      cases findById d srcId with
      | none => rfl
      | some src =>
        by_cases h_dst : (findById d dstId).isNone = true
        · simp only [h_dst, if_true]
          rfl
        · simp only [h_dst, Bool.false_eq_true, if_false]
          cases ApplicationRepo.mergeRows d src dstId <;> rfl
    rwa [h_result] at h_settles

end Statements

/-! ### When the one step goes through -/

/-- A statement is accepted if and only if its tables satisfy the schema. -/
theorem Database.execute_accepted_iff {t : Tables} :
    (∃ d, Database.execute t = .ok d) ↔ t.Checks ∧ t.Uniques ∧ t.ForeignKeys := by
  refine ⟨?_, ?_⟩
  · rintro ⟨d, h_ok⟩
    rw [← Database.execute_ok h_ok]
    exact ⟨d.checks, d.uniques, d.foreignKeys⟩
  · rintro ⟨h_checks, h_uniques, h_keys⟩
    exact Exists.imp (fun _ h_ok => h_ok.1) (Database.execute_succeeds h_checks h_uniques h_keys)

/-- The application is playing. -/
def Database.Playing (d : Database) (aid : ℤ) : Prop :=
  ∃ s ∈ d.sessions, s.applicationId = aid ∧ s.isOpen = true

instance (d : Database) (aid : ℤ) : Decidable (d.Playing aid) :=
  inferInstanceAs (Decidable (∃ s ∈ d.sessions, s.applicationId = aid ∧ s.isOpen = true))

/-- The columns have room for the sums of the counters. -/
def MergeFits (src dst : Application) : Prop :=
  dst.statRunCount + src.statRunCount < 2 ^ 63 ∧ dst.statTotalFull + src.statTotalFull < 2 ^ 63

section Accepted

variable {d d' : Database} {srcId dstId : ℤ}

theorem playing_iff {aid : ℤ} : d.Playing aid ↔ aid ∈ d.openSessions.map Session.applicationId := by
  rw [List.mem_map]
  refine exists_congr fun s => ?_
  rw [Tables.openSessions, List.mem_filter, and_comm (a := s.applicationId = aid), and_assoc]

theorem openSessions_reparent (rows : List Session) :
    ((reparent srcId dstId rows).filter Session.isOpen).map Session.applicationId =
      ((rows.filter Session.isOpen).map Session.applicationId).map
        fun aid => if aid = srcId then dstId else aid := by
  rw [reparent_eq_map, List.filter_map, List.map_map, List.map_map]
  -- which rows are open does not depend on the application they are of
  have h_open : Session.isOpen ∘ reparentRow srcId dstId = Session.isOpen := by
    ext s
    show (reparentRow srcId dstId s).isOpen = s.isOpen
    rw [reparentRow_eq]
    rfl
  rw [h_open]
  refine List.map_congr_left fun s _ => ?_
  show (reparentRow srcId dstId s).applicationId = _
  rw [reparentRow_eq]
  rfl

/-- **The sessions can be re-parented** if and only if not both applications are playing. -/
theorem reparent_accepted_iff (hne : srcId ≠ dstId) {dst : Application}
    (h_dst : dst ∈ d.applications) (h_id : dst.id = dstId) :
    (∃ d', Statements.reparentSessions srcId dstId d = .ok d') ↔
      ¬ (d.Playing srcId ∧ d.Playing dstId) := by
  unfold Statements.reparentSessions
  rw [Database.execute_accepted_iff, playing_iff, playing_iff,
    ← Sql.nodup_map_replace_iff d.uniques.2.2.2 hne]
  have h_nodup : ((reparent srcId dstId d.sessions).filter Session.isOpen).map Session.applicationId =
      (d.openSessions.map Session.applicationId).map fun aid => if aid = srcId then dstId else aid :=
    openSessions_reparent d.sessions
  rw [← h_nodup]
  refine ⟨fun h => h.2.1.2.2.2, fun h => ⟨⟨d.checks.1, ?_⟩, ⟨d.uniques.1, ?_, d.uniques.2.2.1, h⟩, ?_,
    d.foreignKeys.2⟩⟩
  · -- the constraints of a row do not mention its owner
    exact Sql.forall_mem_updateWhere d.checks.2 fun s hs _ => d.checks.2 s hs
  · have h_ids : (reparent srcId dstId d.sessions).map Session.id = d.sessions.map Session.id :=
      Sql.map_updateWhere fun _ _ => rfl
    rw [h_ids]
    exact d.uniques.2.1
  · exact Sql.forall_mem_updateWhere d.foreignKeys.1 fun _ _ _ =>
      List.mem_map.mpr ⟨dst, h_dst, h_id⟩

/-- An update of the destination that keeps its identity is accepted if and only if the new row passes
its checks and its group exists. -/
theorem updateApplication_accepted_iff {f : Application → Application}
    (h_key : ∀ a, (f a).id = a.id ∧ (f a).key = a.key) {dst : Application}
    (h_dst : dst ∈ d.applications) :
    (∃ d', Statements.updateApplication dst.id f d = .ok d') ↔
      (f dst).Checks ∧ ∀ g ∈ (f dst).groupId, g ∈ d.groups := by
  unfold Statements.updateApplication
  -- ids and keys stay, so only the checks of the one row that is written are at stake
  have h_ids : (Sql.updateWhere (fun a => a.id = dst.id) f d.applications).map Application.id =
      d.applications.map Application.id := Sql.map_updateWhere fun a _ => (h_key a).1
  have h_keys : (Sql.updateWhere (fun a => a.id = dst.id) f d.applications).map Application.key =
      d.applications.map Application.key := Sql.map_updateWhere fun a _ => (h_key a).2
  have h_row : f dst ∈ Sql.updateWhere (fun a => a.id = dst.id) f d.applications :=
    Sql.mem_updateWhere.mpr ⟨dst, h_dst, by simp⟩
  -- the primary key selects no other row
  have h_one : ∀ a ∈ d.applications, decide (a.id = dst.id) = true → a = dst := fun a ha h_id =>
    d.application_unique ha h_dst (of_decide_eq_true h_id)
  rw [Database.execute_accepted_iff]
  refine ⟨fun h => ⟨h.1.1 _ h_row, h.2.2.2 _ h_row⟩, ?_⟩
  rintro ⟨h_checks, h_group⟩
  refine ⟨⟨?_, d.checks.2⟩, ⟨?_, d.uniques.2.1, ?_, d.uniques.2.2.2⟩, ?_, ?_⟩
  · exact Sql.forall_mem_updateWhere d.checks.1 fun a ha h_id => by
      rw [h_one a ha h_id]
      exact h_checks
  · rw [h_ids]
    exact d.uniques.1
  · rw [h_keys]
    exact d.uniques.2.2.1
  · intro s hs
    rw [h_ids]
    exact d.foreignKeys.1 s hs
  · exact Sql.forall_mem_updateWhere d.foreignKeys.2 fun a ha h_id => by
      rw [h_one a ha h_id]
      exact h_group

/-- **The counters can be added** if and only if the columns have room for their sums. -/
theorem mergeStats_checks_iff {src dst : Application} (h_src : src.Checks) (h_dst : dst.Checks) :
    (mergeStats src dst).Checks ↔ MergeFits src dst := by
  unfold Application.Checks Sql.FitsInteger at *
  unfold MergeFits mergeStats
  simp only [Int.max_def]
  split <;> omega

/-- A row that has no session left can be deleted, and the cascade deletes nothing else. -/
theorem deleteApplication_accepted (h_none : ∀ s ∈ d.sessions, s.applicationId ≠ srcId) :
    ∃ d', Statements.deleteApplication srcId d = .ok d' := by
  have h_apps : (Sql.deleteWhere (fun a => a.id = srcId) d.applications).Sublist d.applications :=
    List.filter_sublist
  have h_rows : Sql.deleteWhere (fun s => s.applicationId = srcId) d.sessions = d.sessions :=
    List.filter_eq_self.mpr fun s hs => by simpa using h_none s hs
  unfold Statements.deleteApplication
  rw [Database.execute_accepted_iff, h_rows]
  refine ⟨⟨fun a ha => d.checks.1 a (h_apps.subset ha), d.checks.2⟩,
    ⟨d.uniques.1.sublist (h_apps.map _), d.uniques.2.1, d.uniques.2.2.1.sublist (h_apps.map _),
      d.uniques.2.2.2⟩, fun s hs => ?_, fun a ha => d.foreignKeys.2 a (h_apps.subset ha)⟩
  obtain ⟨a, ha, h_owner⟩ := d.exists_owner hs
  refine List.mem_map.mpr ⟨a, List.mem_filter.mpr ⟨ha, ?_⟩, h_owner⟩
  simpa [h_owner] using h_none s hs

/-- **The statements of a merge go through** if and only if not both applications are playing and
the columns have room. -/
theorem mergeRows_accepted_iff {src dst : Application} (h_src : src ∈ d.applications)
    (h_dst : dst ∈ d.applications) (hne : src.id ≠ dst.id) :
    (∃ d', mergeRows d src dst.id = .ok d') ↔
      ¬ (d.Playing src.id ∧ d.Playing dst.id) ∧ MergeFits src dst := by
  have h_checks := mergeStats_checks_iff (d.checks.1 src h_src) (d.checks.1 dst h_dst)
  rw [← reparent_accepted_iff hne h_dst rfl, ← h_checks]
  refine ⟨?_, ?_⟩
  · rintro ⟨d', h_ok⟩
    obtain ⟨d₁, h₁, h_ok⟩ := Except.bind_eq_ok.mp h_ok
    obtain ⟨d₂, h₂, -⟩ := Except.bind_eq_ok.mp h_ok
    have h_dst₁ : dst ∈ d₁.applications := by
      rw [Database.execute_ok h₁]
      exact h_dst
    have h_second : ∃ d', Statements.updateApplication dst.id (mergeStats src) d₁ = .ok d' :=
      ⟨d₂, h₂⟩
    exact ⟨⟨d₁, h₁⟩, ((updateApplication_accepted_iff (f := mergeStats src)
      (fun _ => ⟨rfl, rfl⟩) h_dst₁).mp h_second).1⟩
  · rintro ⟨⟨d₁, h₁⟩, h_stats⟩
    have h_tables₁ := Database.execute_ok h₁
    have h_dst₁ : dst ∈ d₁.applications := by
      rw [h_tables₁]
      exact h_dst
    have h_group : ∀ a ∈ d.applications, ∀ g ∈ a.groupId, g ∈ d₁.groups := by
      intro a ha
      rw [h_tables₁]
      exact d.foreignKeys.2 a ha
    obtain ⟨d₂, h₂⟩ := (updateApplication_accepted_iff (f := mergeStats src) (fun _ => ⟨rfl, rfl⟩)
      h_dst₁).mpr ⟨h_stats, h_group dst h_dst⟩
    have h_tables₂ := Database.execute_ok h₂
    have h_dst₂ : mergeStats src dst ∈ d₂.applications := by
      rw [h_tables₂]
      exact Sql.mem_updateWhere.mpr ⟨dst, h_dst₁, by simp⟩
    -- a group the destination takes over is that of the source
    have h_filled : ∀ g ∈ (applyMetadataFill src (mergeStats src dst)).groupId, g ∈ d₂.groups := by
      intro g hg
      rw [h_tables₂]
      rcases Option.or_eq_some_iff.mp hg with h_own | ⟨-, h_other⟩
      · exact h_group dst h_dst g h_own
      · exact h_group src h_src g h_other
    obtain ⟨d₃, h₃⟩ := (updateApplication_accepted_iff (f := applyMetadataFill src)
      (fun _ => ⟨rfl, rfl⟩) h_dst₂).mpr ⟨h_stats, h_filled⟩
    have h_none : ∀ s ∈ d₃.sessions, s.applicationId ≠ src.id := by
      intro s hs
      rw [Database.execute_ok h₃, h_tables₂, h_tables₁] at hs
      exact reparent_ne hne hs
    obtain ⟨d', h₄⟩ := deleteApplication_accepted h_none
    exact ⟨d', Except.bind_eq_ok.mpr ⟨d₁, h₁, Except.bind_eq_ok.mpr ⟨d₂, h₂,
      Except.bind_eq_ok.mpr ⟨d₃, h₃, h₄⟩⟩⟩⟩

theorem findById_eq_none_iff {id : ℤ} :
    findById d id = none ↔ ∀ a ∈ d.applications, a.id ≠ id := by
  unfold findById
  rw [List.find?_eq_none]
  simp

/-- **When a merge goes through.** -/
theorem mergeInto_ok_iff :
    (∃ d', mergeInto d srcId dstId = .ok d') ↔
      srcId ≠ dstId ∧ ∃ src ∈ d.applications, src.id = srcId ∧
        ∃ dst ∈ d.applications, dst.id = dstId ∧
          ¬ (d.Playing srcId ∧ d.Playing dstId) ∧ MergeFits src dst := by
  unfold mergeInto
  -- the refusals of the source, in its order
  by_cases h_same : srcId = dstId
  · rw [if_pos h_same]
    exact iff_of_false (fun ⟨d', h⟩ => nomatch h) fun h => h.1 h_same
  rw [if_neg h_same]
  cases h_src : findById d srcId with
  | none =>
    refine iff_of_false (fun ⟨d', h⟩ => nomatch h) ?_
    rintro ⟨-, src, h_mem, h_id, -⟩
    exact findById_eq_none_iff.mp h_src src h_mem h_id
  | some src =>
    obtain ⟨h_src_mem, rfl⟩ := findById_some h_src
    cases h_dst : findById d dstId with
    | none =>
      refine iff_of_false (fun ⟨d', h⟩ => nomatch h) ?_
      rintro ⟨-, src, -, -, dst, h_mem, h_id, -⟩
      exact findById_eq_none_iff.mp h_dst dst h_mem h_id
    | some dst =>
      obtain ⟨h_dst_mem, rfl⟩ := findById_some h_dst
      -- both applications exist, so it is the constraints of the schema that decide
      simp only [Option.isNone_some, Bool.false_eq_true, if_false]
      rw [mergeRows_accepted_iff h_src_mem h_dst_mem h_same]
      -- and there is no other application with either id
      refine ⟨fun h => ⟨h_same, src, h_src_mem, rfl, dst, h_dst_mem, rfl, h⟩, ?_⟩
      rintro ⟨-, src', h_src', h_id, dst', h_dst', h_id', h⟩
      obtain rfl := d.application_unique h_src' h_src_mem h_id
      obtain rfl := d.application_unique h_dst' h_dst_mem h_id'
      exact h

end Accepted

/-! ### What a merge has done -/

/-- The row `a` is the destination with its metadata filled from the source. -/
structure Filled (src dst a : Application) : Prop where
  identity : a.id = dst.id ∧ a.key = dst.key ∧ a.productName = dst.productName ∧
    a.detectedVia = dst.detectedVia
  nullable : ∀ c : MetadataColumn, c.get a =
    match c.get dst with
    | some v => some v
    | none => c.get src
  graphicsPlatform : a.graphicsPlatform =
    if dst.graphicsPlatform = .unknown then src.graphicsPlatform else dst.graphicsPlatform
  processArchitecture : a.processArchitecture =
    if dst.processArchitecture = .unknown then src.processArchitecture else dst.processArchitecture

/-- What a merge that goes through has done. -/
structure Merged (d : Database) (src dst : Application) (d' : Database) : Prop where
  /-- The source is gone. -/
  gone : ∀ a ∈ d'.applications, a.id ≠ src.id
  /-- Every session is still there, in its place, with the destination for the source as owner. -/
  sessions : d'.sessions = d.sessions.map fun s =>
    if s.applicationId = src.id then { s with applicationId := dst.id } else s
  /-- The destination has its metadata filled. -/
  destination : ∃ a ∈ d'.applications, Filled src dst a
  /-- The other applications are as they were. -/
  other : ∀ a ∈ d.applications, a.id ≠ src.id → a.id ≠ dst.id → a ∈ d'.applications
  /-- No application comes, and no other one goes. -/
  applications : d'.applications.map Application.id =
    (d.applications.map Application.id).filter fun id => id ≠ src.id
  rest : d'.groups = d.groups ∧ d'.applicationSeq = d.applicationSeq ∧ d'.sessionSeq = d.sessionSeq

theorem filled_applyMetadataFill (src dst : Application) :
    Filled src dst (applyMetadataFill src (mergeStats src dst)) where
  identity := ⟨rfl, rfl, rfl, rfl⟩
  -- the nullable columns are filled in all alike
  nullable := by
    intro c
    have h_get : c.get (applyMetadataFill src (mergeStats src dst)) =
        (c.get dst).or (c.get src) := by
      cases c <;> rfl
    rw [h_get]
    cases c.get dst <;> rfl
  -- an unknown platform is no better than what the destination has
  graphicsPlatform := by
    show (if src.graphicsPlatform ≠ .unknown ∧ dst.graphicsPlatform = .unknown then
      src.graphicsPlatform else dst.graphicsPlatform) = _
    by_cases h_dst : dst.graphicsPlatform = .unknown
    · by_cases h_src : src.graphicsPlatform = .unknown
      · simp [h_dst, h_src]
      · simp [h_dst, h_src]
    · simp [h_dst]
  processArchitecture := by
    show (if src.processArchitecture ≠ .unknown ∧ dst.processArchitecture = .unknown then
      src.processArchitecture else dst.processArchitecture) = _
    by_cases h_dst : dst.processArchitecture = .unknown
    · by_cases h_src : src.processArchitecture = .unknown
      · simp [h_dst, h_src]
      · simp [h_dst, h_src]
    · simp [h_dst]

theorem merged_of_ok {d d' : Database} {src dst : Application} (h_src : src ∈ d.applications)
    (h_dst : dst ∈ d.applications) (h : mergeInto d src.id dst.id = .ok d') : Merged d src dst d' := by
  obtain ⟨hne, src', h_src', h_id, -, h_tables⟩ := mergeInto_ok h
  obtain rfl := d.application_unique h_src' h_src h_id
  have h_apps : d'.applications = Sql.deleteWhere (fun a => a.id = src'.id)
      (Sql.updateWhere (fun a => a.id = dst.id)
        (fun a => applyMetadataFill src' (mergeStats src' a)) d.applications) := by rw [h_tables]
  -- what is left is what was there, with the destination filled and without the source
  have h_mem : ∀ a, a ∈ d'.applications ↔
      (∃ a₀ ∈ d.applications, (if decide (a₀.id = dst.id) then
        applyMetadataFill src' (mergeStats src' a₀) else a₀) = a) ∧ a.id ≠ src'.id := by
    intro a
    rw [h_apps, Sql.deleteWhere, List.mem_filter, Sql.mem_updateWhere]
    simp
  refine ⟨fun a ha => ((h_mem a).mp ha).2, ?_, ?_, ?_, ?_, ?_⟩
  · -- the sessions of the source are those of the destination now
    rw [h_tables]
    show reparent src'.id dst.id d.sessions = _
    unfold reparent Sql.updateWhere
    simp only [decide_eq_true_eq]
  · -- the destination, filled
    refine ⟨_, (h_mem _).mpr ⟨⟨dst, h_dst, if_pos (decide_eq_true rfl)⟩, ?_⟩,
      filled_applyMetadataFill src' dst⟩
    exact fun h_eq => hne h_eq.symm
  · -- the others, as they were
    intro a ha h_not_src h_not_dst
    exact (h_mem a).mpr ⟨⟨a, ha, if_neg (by simpa using h_not_dst)⟩, h_not_src⟩
  · -- no primary key has changed
    have h_ids : (Sql.updateWhere (fun a => a.id = dst.id)
        (fun a => applyMetadataFill src' (mergeStats src' a)) d.applications).map Application.id =
          d.applications.map Application.id := Sql.map_updateWhere fun _ _ => rfl
    rw [h_apps, ← h_ids, Sql.deleteWhere, List.filter_map]
    refine congrArg _ (List.filter_congr fun a _ => ?_)
    simp
  · rw [h_tables]
    exact ⟨rfl, rfl, rfl⟩

open Transact in
/-- **A merge conserves history and fills metadata.** Two distinct applications that are not both
playing, and whose counters have sums that fit the columns, are merged: the method that carries out
all its statements returns, and leaves a database in which the merge has been done. -/
theorem mergeInto_conserves (d : Database) {src dst : Application} (h_src : src ∈ d.applications)
    (h_dst : dst ∈ d.applications) (hne : src.id ≠ dst.id)
    (h_playing : ¬ (d.Playing src.id ∧ d.Playing dst.id)) (h_fits : MergeFits src dst) :
    ∃ d', mergeInto d src.id dst.id = .ok d' ∧ Merged d src dst d' ∧
      ∀ fates, ¬ Disturbed fates →
        ∃ rest, Statements.mergeInto src.id dst.id () ⟨d, none⟩ fates =
          .returned () () ⟨d', none⟩ rest := by
  obtain ⟨d', h_ok⟩ := mergeInto_ok_iff.mpr
    ⟨hne, src, h_src, rfl, dst, h_dst, rfl, h_playing, h_fits⟩
  refine ⟨d', h_ok, merged_of_ok h_src h_dst h_ok, fun fates h_fates => ?_⟩
  -- statement by statement, the same happens unless the storage interferes
  have h_settles := Statements.mergeInto_settles src.id dst.id d fates
  rw [h_ok] at h_settles
  generalize Statements.mergeInto src.id dst.id () ⟨d, none⟩ fates = o at h_settles
  cases h_settles with
  | @returned a d₁ rest h_result =>
    obtain rfl : d' = d₁ := congrArg Prod.snd (Except.ok.inj h_result)
    exact ⟨rest, rfl⟩
  | refused h_result => exact nomatch h_result
  | failed h_disturbed => exact absurd h_disturbed h_fates
  | died h_disturbed _ => exact absurd h_disturbed h_fates

/-- A native application about which only its executable is known. -/
def newNative (path : String) (firstSeenAt : OffsetDateTime) : NewApplication :=
  { newSteam path firstSeenAt with launcherType := .native, executablePath := some path }

/-- A game is detected twice and played under both keys, the second time it is still running. -/
def detectedTwice : List Op :=
  [.create (newSteam "10" (.firstDay 0)), .create (newNative "/opt/a" (.firstDay 1)),
    .begin 1 (.firstDay 10), .closeAndRollup 1 1 ⟨90, 70, .firstDay 100⟩ .terminated,
    .begin 2 (.firstDay 200)]

theorem mergeInto_conserves_detectedTwice :
    ∃ src ∈ (Run.final Database.empty (Op.trace .empty detectedTwice)).applications,
      ∃ dst ∈ (Run.final Database.empty (Op.trace .empty detectedTwice)).applications,
        (src.id = 2 ∧ dst.id = 1) ∧
          ∃ d', Merged (Run.final Database.empty (Op.trace .empty detectedTwice)) src dst d' := by
  -- the second detection was never played, the first one once
  have h_rows : ∃ src ∈ (Run.final Database.empty (Op.trace .empty detectedTwice)).applications,
      ∃ dst ∈ (Run.final Database.empty (Op.trace .empty detectedTwice)).applications,
        (src.id = 2 ∧ dst.id = 1) ∧ src.statRunCount = 0 ∧ src.statTotalFull = 0 ∧
          dst.statRunCount = 1 ∧ dst.statTotalFull = 90 := by decide +kernel
  have h_playing : ¬ ((Run.final Database.empty (Op.trace .empty detectedTwice)).Playing 2 ∧
      (Run.final Database.empty (Op.trace .empty detectedTwice)).Playing 1) := by decide +kernel
  obtain ⟨src, h_src, dst, h_dst, ⟨h_two, h_one⟩, h_runs, h_full, h_runs', h_full'⟩ := h_rows
  have h_fits : MergeFits src dst := by
    unfold MergeFits
    omega
  obtain ⟨d', -, h_merged, -⟩ := mergeInto_conserves _ h_src h_dst (by rw [h_two, h_one]; decide)
    (by rw [h_two, h_one]; exact h_playing) h_fits
  exact ⟨src, h_src, dst, h_dst, ⟨h_two, h_one⟩, d', h_merged⟩

/-- The database a call leaves. -/
def mergeEffect (d : Database) (srcId dstId : ℤ) : Database :=
  match mergeInto d srcId dstId with
  | .ok d' => d'
  | .error _ => d

/-- Two applications were played for half of what a column can hold. -/
def playedForLong : List Op :=
  [.create (newSteam "10" (.firstDay 0)), .create (newSteam "20" (.firstDay 1)),
    .begin 1 (.firstDay 10), .closeAndRollup 1 1 ⟨2 ^ 62, 0, .firstDay 100⟩ .terminated,
    .begin 2 (.firstDay 200), .closeAndRollup 2 2 ⟨2 ^ 62, 0, .firstDay 300⟩ .terminated]

/-- Their runtimes have no sum that fits the column, and the source is not gone. -/
theorem playedForLong_not_merged :
    ¬ ∀ (d : Database) (srcId dstId : ℤ), (∃ a ∈ d.applications, a.id = srcId) →
      (∃ a ∈ d.applications, a.id = dstId) → srcId ≠ dstId →
      ¬ (d.Playing srcId ∧ d.Playing dstId) →
        ∀ a ∈ (mergeEffect d srcId dstId).applications, a.id ≠ srcId := by
  intro h
  have h_gone := h (Run.final Database.empty (Op.trace .empty playedForLong)) 2 1
    (by decide +kernel) (by decide +kernel) (by decide) (by decide +kernel)
  revert h_gone
  decide +kernel

/-! ### When a merge fails -/

/-- Why a merge is refused. -/
def MergeRefused (d : Database) (srcId dstId : ℤ) : Prop :=
  srcId = dstId ∨ (∀ a ∈ d.applications, a.id ≠ srcId) ∨ (∀ a ∈ d.applications, a.id ≠ dstId) ∨
    (d.Playing srcId ∧ d.Playing dstId) ∨
    ∃ src ∈ d.applications, src.id = srcId ∧ ∃ dst ∈ d.applications, dst.id = dstId ∧
      ¬ MergeFits src dst

theorem mergeInto_error_iff {d : Database} {srcId dstId : ℤ} :
    (∃ e, mergeInto d srcId dstId = .error e) ↔ MergeRefused d srcId dstId := by
  have h_not_ok : (∃ e, mergeInto d srcId dstId = .error e) ↔
      ¬ ∃ d', mergeInto d srcId dstId = .ok d' := by
    cases mergeInto d srcId dstId with
    | error e => exact iff_of_true ⟨e, rfl⟩ fun ⟨_, h⟩ => nomatch h
    | ok d' => exact iff_of_false (fun ⟨_, h⟩ => nomatch h) fun h => h ⟨d', rfl⟩
  rw [h_not_ok, mergeInto_ok_iff]
  unfold MergeRefused
  refine ⟨?_, ?_⟩
  · intro h
    by_cases h_same : srcId = dstId
    · exact Or.inl h_same
    by_cases h_src : ∃ a ∈ d.applications, a.id = srcId
    · by_cases h_dst : ∃ a ∈ d.applications, a.id = dstId
      · by_cases h_playing : d.Playing srcId ∧ d.Playing dstId
        · exact Or.inr (Or.inr (Or.inr (Or.inl h_playing)))
        · -- nothing is left but the sums
          obtain ⟨src, h_src, h_id⟩ := h_src
          obtain ⟨dst, h_dst, h_id'⟩ := h_dst
          refine Or.inr (Or.inr (Or.inr (Or.inr ⟨src, h_src, h_id, dst, h_dst, h_id', fun h_fits => ?_⟩)))
          exact h ⟨h_same, src, h_src, h_id, dst, h_dst, h_id', h_playing, h_fits⟩
      · exact Or.inr (Or.inr (Or.inl fun a ha h_id => h_dst ⟨a, ha, h_id⟩))
    · exact Or.inr (Or.inl fun a ha h_id => h_src ⟨a, ha, h_id⟩)
  · rintro h ⟨hne, src, h_src, h_id, dst, h_dst, h_id', h_playing, h_fits⟩
    rcases h with h | h | h | h | ⟨src', h_src', h_eq, dst', h_dst', h_eq', h_over⟩
    · exact hne h
    · exact h src h_src h_id
    · exact h dst h_dst h_id'
    · exact h_playing h
    · obtain rfl := d.application_unique h_src h_src' (h_id.trans h_eq.symm)
      obtain rfl := d.application_unique h_dst h_dst' (h_id'.trans h_eq'.symm)
      exact h_over h_fits

open Transact in
/-- An outcome of the method, whatever happens to its statements. -/
inductive MergeOutcome (d : Database) (srcId dstId : ℤ) (fates : List Fate) :
    Outcome (Connection Database) Unit Error Unit → Prop
  | merged {d' : Database} {rest : List Fate} : mergeInto d srcId dstId = .ok d' →
      MergeOutcome d srcId dstId fates (.returned () () ⟨d', none⟩ rest)
  | failed {e : Error} {rest : List Fate} : MergeRefused d srcId dstId ∨ Disturbed fates →
      MergeOutcome d srcId dstId fates (.threw e () ⟨d, none⟩ rest)
  | died {c : Connection Database} : Disturbed fates → c.committed = d →
      MergeOutcome d srcId dstId fates (.died c)

open Transact in
/-- **A merge fails cleanly, and exactly when it must.** It is refused for one application, for one
that does not exist, for two that are playing, and for want of room for the sum of two counters; of a
reachable database that is the sum of the runtimes. An error leaves the database alone, wherever it
comes from. -/
theorem mergeInto_fails_iff (d : Database) (srcId dstId : ℤ) :
    ((∃ e, mergeInto d srcId dstId = .error e) ↔ MergeRefused d srcId dstId) ∧
      (∀ fates, MergeOutcome d srcId dstId fates
        (Statements.mergeInto srcId dstId () ⟨d, none⟩ fates)) ∧
      (d.Reachable → ∀ src ∈ d.applications, ∀ dst ∈ d.applications, src.id ≠ dst.id →
        (MergeFits src dst ↔ dst.statTotalFull + src.statTotalFull < 2 ^ 63)) := by
  refine ⟨mergeInto_error_iff, fun fates => ?_, fun h_reach src h_src dst h_dst hne => ?_⟩
  · -- whatever happens to the statements, they settle what the call settles
    have h_settles := Statements.mergeInto_settles srcId dstId d fates
    generalize Statements.mergeInto srcId dstId () ⟨d, none⟩ fates = o at h_settles
    cases h_settles with
    | returned h_result =>
      obtain ⟨d', h_ok, h_eq⟩ := Except.map_eq_ok.mp h_result
      obtain ⟨-, rfl⟩ := Prod.mk.inj h_eq
      exact .merged h_ok
    -- a refusal is one of those of the call
    | @refused e _ h_result =>
      refine .failed (Or.inl (mergeInto_error_iff.mp ⟨e, ?_⟩))
      cases h_merge : mergeInto d srcId dstId with
      | ok d' =>
        rw [h_merge] at h_result
        exact nomatch h_result
      | error e' =>
        rw [h_merge] at h_result
        obtain rfl := Except.error.inj h_result
        rfl
    | failed h_disturbed => exact .failed (Or.inr h_disturbed)
    | died h_disturbed h_committed => exact .died h_disturbed h_committed
  · -- in a reachable database the run counts are far from their bound, so only the runtimes matter
    exact and_iff_right (h_reach.runCounts_fit h_dst h_src hne.symm)

/-- The two applications are there, and neither is playing; their merge fails all the same. -/
theorem playedForLong_fails :
    ¬ ∀ (d : Database), d.Reachable → ∀ srcId dstId : ℤ,
      (∃ e, mergeInto d srcId dstId = .error e) →
        srcId = dstId ∨ (∀ a ∈ d.applications, a.id ≠ srcId) ∨
          (∀ a ∈ d.applications, a.id ≠ dstId) ∨ d.Playing srcId ∧ d.Playing dstId := by
  -- the run is reachable, and its merge fails for none of the four reasons
  intro h
  have h_reach : (Run.final Database.empty (Op.trace .empty playedForLong)).Reachable :=
    Database.Reachable.empty.run (Op.isRun_trace _ _) (by decide +kernel)
  have h_error : (mergeInto (Run.final Database.empty (Op.trace .empty playedForLong)) 2 1).isOk =
      false := by decide +kernel
  have h_cause := h _ h_reach 2 1 (by
    cases h_merge : mergeInto (Run.final Database.empty (Op.trace .empty playedForLong)) 2 1 with
    | error e => exact ⟨e, rfl⟩
    | ok d' =>
      rw [h_merge] at h_error
      exact absurd h_error (by simp [Except.isOk, Except.toBool]))
  revert h_cause
  decide +kernel

end Ludex
