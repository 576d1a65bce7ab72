import Ludex.Lib.Transact
import Ludex.Core.Types

/-!
# Restoring a snapshot

`restore` of `backup.rs` copies the snapshot to a staging file next to the database, lets SQLite
migrate the copy, removes the sidecars of the database, and renames the copy over it. Every step is a
transaction of `Transact` on the files: it is executed, it fails, or the process dies before it. The
errors of the removals are ignored.

What SQLite makes of files is a parameter (`Sqlite`): the content it finds in a main file and its
WAL, and the main file it leaves when it opens, migrates and closes a database.

The database's content is spread over its main file and its WAL, and the WAL is removed before the
main file is replaced. So the restore is all or nothing exactly if the main file alone already holds
the old content, and the migrated copy can stand next to the old WAL (`restore_allOrNothing_iff`).
-/

namespace Ludex

open Transact

namespace Backup

/-- The files: the snapshot, the database and the staging file, with their sidecars. -/
structure FileSystem where
  source : Option Blob
  main : Option Blob
  wal : Option Blob
  shm : Option Blob
  staging : Option Blob
  stagingWal : Option Blob
  stagingShm : Option Blob
deriving DecidableEq

/-- What SQLite makes of files. -/
structure Sqlite (Content : Type) where
  /-- The content found in a main file whose WAL is replayed. -/
  content : Option Blob → Option Blob → Content
  /-- The main file that is left when the database is opened, migrated and closed, if that succeeds.
  Closing writes the WAL back to the main file. -/
  migrated : Blob → Option Blob → Option Blob

inductive RestoreError where
  /-- "backup file not found" -/
  | notFound
  | io
  /-- The staged copy cannot be opened or migrated. -/
  | database
deriving DecidableEq

/-- A program on the files. -/
abbrev FileProgram (α : Type) := Program FileSystem Unit RestoreError α

/-- An operation on files that fails with an I/O error or does its work. -/
def fileOp (op : FileSystem → FileSystem) : FileProgram Unit :=
  .transact .io fun fs => .ok ((), op fs)

/-- `let _ = fs::remove_file(..)`. -/
def remove (op : FileSystem → FileSystem) : FileProgram Unit := do
  let _ ← Program.attempt (fileOp op)

/-- Is there a snapshot? -/
def findSource : FileProgram Unit :=
  .transact .notFound fun fs => if fs.source.isSome then .ok ((), fs) else .error .notFound

/-- Open the staged copy, run pending migrations, and close it. -/
def migrateStaging {Content : Type} (sqlite : Sqlite Content) : FileProgram Unit :=
  .transact .database fun fs =>
    match fs.staging.bind fun main => sqlite.migrated main fs.stagingWal with
    | some main => .ok ((), { fs with staging := some main, stagingWal := none, stagingShm := none })
    | none => .error .database

/-- Rename the staging file over the database. -/
def renameStaging : FileProgram Unit :=
  .transact .io fun fs =>
    match fs.staging with
    | some main => .ok ((), { fs with main := some main, staging := none })
    | none => .error .io

/-- Replace the database by the staged copy. Sidecars are removed first: SQLite would replay a stale
WAL. -/
def replace : FileProgram Unit := do
  remove fun fs => { fs with wal := none }
  remove fun fs => { fs with shm := none }
  remove fun fs => { fs with stagingWal := none }
  remove fun fs => { fs with stagingShm := none }
  renameStaging

/-- Copy the snapshot, migrate the copy, and replace the database by it. -/
def stage {Content : Type} (sqlite : Sqlite Content) : FileProgram Unit := do
  -- the copy is first an empty file
  fileOp fun fs => { fs with staging := some [] }
  fileOp fun fs => { fs with staging := fs.source }
  migrateStaging sqlite
  replace

/-- Restore the snapshot over the database. -/
def restore {Content : Type} (sqlite : Sqlite Content) : FileProgram Unit := do
  findSource
  -- the parent directory of the database
  fileOp id
  remove fun fs => { fs with staging := none }
  remove fun fs => { fs with stagingWal := none }
  remove fun fs => { fs with stagingShm := none }
  stage sqlite

/-! ### All or nothing -/

section AllOrNothing

variable {Content : Type} (sqlite : Sqlite Content)

/-- The content that the next open of the database finds. -/
def found (fs : FileSystem) : Content := sqlite.content fs.main fs.wal

/-- The content of the snapshot, migrated: `none` if it cannot be opened. -/
def restored (fs : FileSystem) : Option Content :=
  (fs.source.bind fun main => sqlite.migrated main none).map fun main =>
    sqlite.content (some main) none

/-- Either the complete old content or the complete restored content. -/
def OldOrRestored (before : FileSystem) (content : Content) : Prop :=
  content = found sqlite before ∨ restored sqlite before = some content

/-- What the restore may end in. After an error the database holds the old content. -/
def Ends (before : FileSystem) (result : Except RestoreError Unit) (_ : Unit) (after : FileSystem) :
    Prop :=
  match result with
  | .ok _ => OldOrRestored sqlite before (found sqlite after)
  | .error _ => found sqlite after = found sqlite before

/-- What the restore may leave when the process dies. -/
def Leaves (before after : FileSystem) : Prop := OldOrRestored sqlite before (found sqlite after)

/-- Whatever fails, and wherever the process dies: the database holds the old content or the restored
one, and after an error the old one. -/
def AllOrNothing (before : FileSystem) : Prop :=
  wp (restore sqlite) (Ends sqlite before) (Leaves sqlite before) () before

/-- The staged copy may replace the database: the main file alone holds the old content, and the copy
holds one of the two contents, with and without the old WAL. -/
structure Replaceable (before : FileSystem) (main : Blob) : Prop where
  main_alone : sqlite.content before.main none = found sqlite before
  with_wal : OldOrRestored sqlite before (sqlite.content (some main) before.wal)
  alone : OldOrRestored sqlite before (sqlite.content (some main) none)

end AllOrNothing

/-! ### Rules for the operations -/

section Rules

variable {α : Type} {Q : Except RestoreError α → Unit → FileSystem → Prop} {C : FileSystem → Prop}
  {op : FileSystem → FileSystem} {f : Unit → FileProgram α} {fs : FileSystem}

theorem wp_fileOp_bind_iff :
    wp (fileOp op >>= f) Q C () fs ↔ wp (f ()) Q C () (op fs) ∧ Q (.error .io) () fs ∧ C fs := by
  unfold fileOp
  rw [wp_transact_bind_iff]
  refine ⟨?_, ?_⟩
  · rintro ⟨h_ok, _, h_io, h_crash⟩
    exact ⟨h_ok () _ rfl, h_io, h_crash⟩
  · rintro ⟨h_ok, h_io, h_crash⟩
    refine ⟨fun a fs' h_op => ?_, (fun e h_op => nomatch h_op), h_io, h_crash⟩
    obtain ⟨rfl, rfl⟩ := Prod.mk.inj (Except.ok.inj h_op)
    exact h_ok

/-- A removal is made, or is not. -/
theorem wp_remove_bind_iff :
    wp (remove op >>= f) Q C () fs ↔
      wp (f ()) Q C () (op fs) ∧ wp (f ()) Q C () fs ∧ C fs := by
  unfold remove fileOp
  rw [bind_assoc, wp_attempt_transact_bind_iff]
  simp only [pure_bind]
  refine ⟨?_, ?_⟩
  · rintro ⟨h_ok, _, h_io, h_crash⟩
    exact ⟨h_ok () _ rfl, h_io, h_crash⟩
  · rintro ⟨h_ok, h_io, h_crash⟩
    refine ⟨fun a fs' h_op => ?_, (fun e h_op => nomatch h_op), h_io, h_crash⟩
    obtain ⟨rfl, rfl⟩ := Prod.mk.inj (Except.ok.inj h_op)
    exact h_ok

theorem wp_findSource_bind_iff :
    wp (findSource >>= f) Q C () fs ↔
      (fs.source.isSome = true → wp (f ()) Q C () fs) ∧ Q (.error .notFound) () fs ∧ C fs := by
  -- the file is looked up, and the lookup may fail or the machine go down
  unfold findSource
  rw [wp_transact_bind_iff]
  refine ⟨?_, ?_⟩
  · rintro ⟨h_ok, _, h_missing, h_crash⟩
    exact ⟨fun h_some => h_ok () fs (if_pos h_some), h_missing, h_crash⟩
  · rintro ⟨h_ok, h_missing, h_crash⟩
    -- a source that is missing is the same answer as a lookup that fails
    refine ⟨fun a fs' h_op => ?_, fun e h_op => ?_, h_missing, h_crash⟩
    · by_cases h_some : fs.source.isSome = true
      · rw [if_pos h_some] at h_op
        obtain ⟨rfl, rfl⟩ := Prod.mk.inj (Except.ok.inj h_op)
        exact h_ok h_some
      · rw [if_neg h_some] at h_op
        exact nomatch h_op
    · by_cases h_some : fs.source.isSome = true
      · rw [if_pos h_some] at h_op
        exact nomatch h_op
      · rw [if_neg h_some] at h_op
        obtain rfl := Except.error.inj h_op
        exact h_missing

end Rules

/-! ### The exact weakest precondition -/

section Exact

variable {Content : Type} {sqlite : Sqlite Content} {before fs : FileSystem}

/-- The files of the database are still those from before. -/
def Untouched (before fs : FileSystem) : Prop := fs.main = before.main ∧ fs.wal = before.wal

theorem Untouched.ends (h : Untouched before fs) (e : RestoreError) :
    Ends sqlite before (.error e) () fs := by
  show sqlite.content fs.main fs.wal = sqlite.content before.main before.wal
  rw [h.1, h.2]

theorem Untouched.leaves (h : Untouched before fs) : Leaves sqlite before fs :=
  Or.inl (h.ends .io)

/-- The staged copy is ready to replace the old main file, next to a WAL. -/
structure Ready (before : FileSystem) (main : Blob) (wal : Option Blob) (fs : FileSystem) : Prop where
  main_eq : fs.main = before.main
  staging : fs.staging = some main
  wal : fs.wal = wal

/-- With that WAL the old main file holds the old content, and the copy one of the two. -/
def Fits (sqlite : Sqlite Content) (before : FileSystem) (main : Blob) (wal : Option Blob) : Prop :=
  sqlite.content before.main wal = found sqlite before ∧
    OldOrRestored sqlite before (sqlite.content (some main) wal)

theorem Ready.ends_iff {main : Blob} {wal : Option Blob} (h : Ready before main wal fs) :
    Ends sqlite before (.error .io) () fs ↔ sqlite.content before.main wal = found sqlite before := by
  rw [← h.main_eq, ← h.wal]
  exact Iff.rfl

theorem Ready.wp_renameStaging_iff {main : Blob} {wal : Option Blob}
    (h : Ready before main wal fs) :
    wp renameStaging (Ends sqlite before) (Leaves sqlite before) () fs ↔
      Fits sqlite before main wal := by
  unfold renameStaging
  -- the old database was there before the rename, the new one after it
  rw [wp_transact_iff, h.staging, h.ends_iff]
  refine ⟨?_, ?_⟩
  · rintro ⟨h_ok, _, h_old, _⟩
    have h_new : OldOrRestored sqlite before (sqlite.content (some main) fs.wal) := h_ok () _ rfl
    rw [h.wal] at h_new
    exact ⟨h_old, h_new⟩
  · rintro ⟨h_old, h_new⟩
    -- and whether the rename happened is not known when the machine goes down
    refine ⟨fun a fs' h_op => ?_, (fun e h_op => nomatch h_op), h_old, Or.inl (h.ends_iff.mpr h_old)⟩
    obtain ⟨rfl, rfl⟩ := Prod.mk.inj (Except.ok.inj h_op)
    show OldOrRestored sqlite before (sqlite.content (some main) fs.wal)
    rw [h.wal]
    exact h_new

/-- A removal that leaves the copy ready changes nothing for what follows. -/
theorem Ready.wp_remove_bind_iff {main : Blob} {wal : Option Blob} {op : FileSystem → FileSystem}
    {f : Unit → FileProgram Unit} (h : Ready before main wal fs)
    (h_op : Ready before main wal (op fs))
    (h_rest : ∀ fs', Ready before main wal fs' →
      (wp (f ()) (Ends sqlite before) (Leaves sqlite before) () fs' ↔ Fits sqlite before main wal)) :
    wp (remove op >>= f) (Ends sqlite before) (Leaves sqlite before) () fs ↔
      Fits sqlite before main wal := by
  rw [Backup.wp_remove_bind_iff, h_rest _ h_op, h_rest _ h]
  refine ⟨?_, ?_⟩
  · exact fun h_fits => h_fits.1
  · exact fun h_fits => ⟨h_fits, h_fits, Or.inl (h.ends_iff.mpr h_fits.1)⟩

/-- The removals of the other sidecars, and the rename. -/
theorem Ready.wp_sidecars_iff {main : Blob} {wal : Option Blob} (h : Ready before main wal fs) :
    wp (do
        remove fun fs => { fs with shm := none }
        remove fun fs => { fs with stagingWal := none }
        remove fun fs => { fs with stagingShm := none }
        renameStaging) (Ends sqlite before) (Leaves sqlite before) () fs ↔
      Fits sqlite before main wal := by
  refine h.wp_remove_bind_iff ⟨h.main_eq, h.staging, h.wal⟩ fun fs h => ?_
  refine h.wp_remove_bind_iff ⟨h.main_eq, h.staging, h.wal⟩ fun fs h => ?_
  refine h.wp_remove_bind_iff ⟨h.main_eq, h.staging, h.wal⟩ fun fs h => ?_
  exact h.wp_renameStaging_iff

/-- **The replacement** of the database by the staged copy, from the removal of the WAL on. -/
theorem Ready.wp_replace_iff {main : Blob} (h : Ready before main before.wal fs) :
    wp replace (Ends sqlite before) (Leaves sqlite before) () fs ↔
      Replaceable sqlite before main := by
  unfold replace
  have h_removed : Ready before main none { fs with wal := none } := ⟨h.main_eq, h.staging, rfl⟩
  rw [Backup.wp_remove_bind_iff, h_removed.wp_sidecars_iff, h.wp_sidecars_iff]
  refine ⟨?_, ?_⟩
  · rintro ⟨⟨h_old, h_new⟩, ⟨_, h_new_wal⟩, _⟩
    exact ⟨h_old, h_new_wal, h_new⟩
  · rintro ⟨h_old, h_new_wal, h_new⟩
    exact ⟨⟨h_old, h_new⟩, ⟨rfl, h_new_wal⟩, Or.inl (h.ends_iff.mpr rfl)⟩

/-- What a copy of the snapshot is migrated to next to a staging WAL, if it can be opened, may replace
the database. -/
def StagesTo (sqlite : Sqlite Content) (before : FileSystem) (copy : Blob) (wal : Option Blob) : Prop :=
  ∀ main, sqlite.migrated copy wal = some main → Replaceable sqlite before main

/-- **The migration** of the staged copy, and the replacement. -/
theorem wp_migrateStaging_iff {copy : Blob} (h : Untouched before fs) (h_staging : fs.staging = some copy) :
    wp (do
        migrateStaging sqlite
        replace) (Ends sqlite before) (Leaves sqlite before) () fs ↔
      StagesTo sqlite before copy fs.stagingWal := by
  unfold migrateStaging StagesTo
  rw [wp_transact_bind_iff, h_staging]
  show (_ ∧ _ ∧ _ ∧ _) ↔ _
  simp only [Option.bind_some]
  -- a copy that cannot be migrated leaves everything as it was
  cases h_migrated : sqlite.migrated copy fs.stagingWal with
  | none =>
    refine iff_of_true ⟨?_, fun e _ => h.ends e, h.ends .database, h.leaves⟩ ?_
    · exact fun a fs' h_op => nomatch h_op
    · exact fun main h_main => nomatch h_main
  -- the copy is ready, and the rename decides
  | some main =>
    have h_ready : Ready before main before.wal
        { fs with staging := some main, stagingWal := none, stagingShm := none } := ⟨h.1, rfl, h.2⟩
    refine ⟨?_, ?_⟩
    · rintro ⟨h_ok, _⟩ main' h_main
      obtain rfl := Option.some.inj h_main
      exact h_ready.wp_replace_iff.mp (h_ok () _ rfl)
    · intro h_replaceable
      refine ⟨fun a fs' h_op => ?_, fun e _ => h.ends e, h.ends .database, h.leaves⟩
      obtain ⟨rfl, rfl⟩ := Prod.mk.inj (Except.ok.inj h_op)
      exact h_ready.wp_replace_iff.mpr (h_replaceable main rfl)

/-- **The copy**, next to a staging WAL that may be left. -/
theorem wp_stage_iff {copy : Blob} (h : Untouched before fs) (h_source : fs.source = some copy) :
    wp (stage sqlite) (Ends sqlite before) (Leaves sqlite before) () fs ↔
      StagesTo sqlite before copy fs.stagingWal := by
  have h_empty : Untouched before { fs with staging := some [] } := h
  have h_copied : Untouched before { fs with staging := fs.source } := h
  unfold stage
  rw [wp_fileOp_bind_iff, wp_fileOp_bind_iff, and_iff_left ⟨h.ends .io, h.leaves⟩,
    and_iff_left ⟨h_empty.ends .io, h_empty.leaves⟩]
  exact wp_migrateStaging_iff h_copied h_source

/-- **Restore is all or nothing** if and only if there is no snapshot, or whatever the copy of it is
migrated to, alone and next to a staging WAL that is left, may replace the database. -/
theorem restore_allOrNothing_iff {Content : Type} (sqlite : Sqlite Content) (before : FileSystem) :
    AllOrNothing sqlite before ↔
      ∀ copy, before.source = some copy →
        StagesTo sqlite before copy none ∧ StagesTo sqlite before copy before.stagingWal := by
  have h_before : Untouched before before := ⟨rfl, rfl⟩
  unfold AllOrNothing restore
  rw [wp_findSource_bind_iff, and_iff_left ⟨h_before.ends .notFound, h_before.leaves⟩]
  cases h_source : before.source with
  | none => exact iff_of_true (fun h_some => nomatch h_some) fun copy h_copy => nomatch h_copy
  | some copy =>
    -- the last removal changes nothing for the copy
    have h_shm : ∀ fs, Untouched before fs → fs.source = some copy →
        (wp (do
            remove fun fs => { fs with stagingShm := none }
            stage sqlite) (Ends sqlite before) (Leaves sqlite before) () fs ↔
          StagesTo sqlite before copy fs.stagingWal) := by
      intro fs h h_copy
      have h_removed : Untouched before { fs with stagingShm := none } := h
      rw [wp_remove_bind_iff, wp_stage_iff h_removed h_copy, wp_stage_iff h h_copy,
        and_iff_left h.leaves, and_self]
    -- the one before decides which staging WAL there is
    have h_wal : ∀ fs, Untouched before fs → fs.source = some copy →
        (wp (do
            remove fun fs => { fs with stagingWal := none }
            remove fun fs => { fs with stagingShm := none }
            stage sqlite) (Ends sqlite before) (Leaves sqlite before) () fs ↔
          StagesTo sqlite before copy none ∧ StagesTo sqlite before copy fs.stagingWal) := by
      intro fs h h_copy
      have h_removed : Untouched before { fs with stagingWal := none } := h
      rw [wp_remove_bind_iff, h_shm _ h_removed h_copy, h_shm _ h h_copy, and_iff_left h.leaves]
    have h_removed : Untouched before { before with staging := none } := h_before
    rw [wp_fileOp_bind_iff, and_iff_left ⟨h_before.ends .io, h_before.leaves⟩]
    show (_ → wp (remove _ >>= _) _ _ () before) ↔ _
    rw [wp_remove_bind_iff, h_wal _ h_removed h_source, h_wal _ h_before h_source,
      and_iff_left h_before.leaves, and_self]
    refine ⟨?_, ?_⟩
    · intro h_stages copy' h_copy
      obtain rfl := Option.some.inj h_copy
      exact h_stages rfl
    · exact fun h_stages _ => h_stages copy rfl

end Exact

/-- Files as lists of rows: a WAL holds the rows committed since the main file was last written back. -/
def rows : Sqlite Blob where
  content main wal := main.getD [] ++ wal.getD []
  migrated main wal := some (main ++ wal.getD [])

/-- A snapshot with row 1, and a database with row 2 in its main file and row 3 in its WAL. -/
def unwritten : FileSystem where
  source := some [1]
  main := some [2]
  wal := some [3]
  shm := none
  staging := none
  stagingWal := none
  stagingShm := none

/-- If the rename fails, or the process dies before it, row 3 is lost: the database holds neither its
old rows nor those of the snapshot. -/
theorem restore_loses_wal :
    found rows unwritten = [2, 3] ∧ restored rows unwritten = some [1] ∧
      (∃ after, restore rows () unwritten (List.replicate 12 .commits ++ [.fails]) =
          .threw .io () after [] ∧ found rows after = [2]) ∧
      (∃ after, restore rows () unwritten (List.replicate 12 .commits ++ [.dies]) = .died after ∧
          found rows after = [2]) ∧
      ¬ AllOrNothing rows unwritten := by
  refine ⟨rfl, rfl, ⟨_, rfl, rfl⟩, ⟨_, rfl, rfl⟩, fun h => ?_⟩
  have h_fails := h (List.replicate 12 Fate.commits ++ [Fate.fails])
  have h_old : ([2] : Blob) = [2, 3] := h_fails
  exact absurd h_old (by decide)

end Backup

end Ludex
