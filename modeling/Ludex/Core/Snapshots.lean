import Mathlib.Data.List.Lex
import Mathlib.Data.Char
import Ludex.Lib.Ranking
import Ludex.Lib.Text
import Ludex.Core.Types

/-!
# The directory of snapshots

`list_backups`, `prune_backups`, `create_snapshot` and `snapshot_now` of `backup.rs`, on a directory
whose files are known by their names. What the operating system and SQLite answer is given by
`FileIo` and `Vacuum`; the parser of the time in a name, `PrimitiveDateTime::parse`, is a parameter.

A prune keeps the greatest names, and removes the others from the greatest down, until a removal fails
(`mem_pruneBackups_iff`). The names of dated snapshots are ordered like their times, but any other
name that starts and ends like one takes part in that order, too. So the newest snapshots are kept
only under a condition (`prune_keepsNewest_iff`).
-/

namespace Ludex

open Ranking

namespace Backup

/-! ### Names -/

/-- The name of a file. The order of the characters is that of the bytes that encode them. -/
abbrev FileName := List Char

/-- `BACKUP_FILENAME_PREFIX` -/
def backupFilenamePrefix : FileName := "ludex-".toList

/-- `BACKUP_FILENAME_EXTENSION` -/
def backupFilenameExtension : FileName := "sqlite".toList

/-- What follows the last dot of a name, if something precedes it. -/
def extension (name : FileName) : Option FileName :=
  let after := name.reverse.takeWhile (· ≠ '.')
  if after.length + 1 < name.length then some after.reverse else none

/-- Does a name start and end like that of a snapshot? -/
def isBackupName (name : FileName) : Bool :=
  backupFilenamePrefix.isPrefixOf name && extension name == some backupFilenameExtension

/-- The name of the snapshot taken at an instant. -/
def formatBackupFilename (now : OffsetDateTime) : FileName :=
  (backupFilenamePrefix ++ Calendar.basicStamp (now.unixNanos / Calendar.nanosPerSecond) ++ ['Z']) ++
    '.' :: backupFilenameExtension

/-- The instant in a name. -/
def parseBackupFilename (parseStamp : List Char → Option OffsetDateTime) (name : FileName) :
    Option OffsetDateTime := do
  let rest ← Text.stripPrefix backupFilenamePrefix name
  let rest ← Text.stripSuffix ('.' :: backupFilenameExtension) rest
  let rest ← Text.stripSuffix ['Z'] rest
  parseStamp rest

theorem extension_append {stem ext : FileName} (h_stem : stem ≠ []) (h_ext : '.' ∉ ext) :
    extension (stem ++ '.' :: ext) = some ext := by
  have h_after : (stem ++ '.' :: ext).reverse.takeWhile (· ≠ '.') = ext.reverse := by
    rw [List.reverse_append, List.reverse_cons, List.append_assoc, List.takeWhile_append_of_pos]
    · simp
    · intro c hc
      have h_ne : c ≠ '.' := fun h_eq => h_ext (h_eq ▸ List.mem_reverse.mp hc)
      simpa using h_ne
  have h_pos := List.length_pos_iff.mpr h_stem
  unfold extension
  simp only [h_after, List.length_reverse, List.length_append, List.length_cons]
  rw [if_pos (by omega), List.reverse_reverse]

/-- The names that are given to snapshots are listed. -/
theorem isBackupName_formatBackupFilename (now : OffsetDateTime) :
    isBackupName (formatBackupFilename now) = true := by
  unfold isBackupName formatBackupFilename
  rw [extension_append (by simp) (by decide)]
  simp [List.append_assoc]

/-! ### The directory -/

/-- An entry of a directory. -/
inductive Dirent where
  /-- It cannot be read. -/
  | unreadable
  /-- A name that is not UTF-8. -/
  | nonText
  | named (name : FileName)
deriving DecidableEq

/-- The name of an entry. -/
def Dirent.name? : Dirent → Option FileName
  | .named name => some name
  | _ => none

/-- The entries of a directory, in the order in which they are read. -/
structure Directory where
  dirents : List Dirent
  nodup : (dirents.filterMap Dirent.name?).Nodup

namespace Directory

/-- The names in a directory. -/
def names (d : Directory) : List FileName := d.dirents.filterMap Dirent.name?

/-- A directory just made. -/
def empty : Directory := ⟨[], List.nodup_nil⟩

/-- A file is made. -/
def add (d : Directory) (name : FileName) : Directory :=
  if h : name ∈ d.names then d else ⟨.named name :: d.dirents, List.nodup_cons.mpr ⟨h, d.nodup⟩⟩

/-- A file is removed. -/
def remove (d : Directory) (name : FileName) : Directory where
  dirents := d.dirents.filter (· ≠ .named name)
  nodup := d.nodup.sublist (List.filter_sublist.filterMap _)

theorem names_add {d : Directory} {name : FileName} (h : name ∉ d.names) :
    (d.add name).names = name :: d.names := by
  unfold add
  rw [dif_neg h]
  rfl

theorem mem_names_iff {d : Directory} {name : FileName} :
    name ∈ d.names ↔ .named name ∈ d.dirents := by
  unfold names
  rw [List.mem_filterMap]
  refine ⟨?_, ?_⟩
  · rintro ⟨dirent, h_mem, h_name⟩
    cases dirent with
    | named _ =>
      obtain rfl := Option.some.inj h_name
      exact h_mem
    | _ => exact nomatch h_name
  · exact fun h_mem => ⟨_, h_mem, rfl⟩

theorem mem_remove_iff {d : Directory} {name x : FileName} :
    x ∈ (d.remove name).names ↔ x ∈ d.names ∧ x ≠ name := by
  rw [mem_names_iff, mem_names_iff, remove, List.mem_filter]
  simp

end Directory

/-- What is at the path of the backup directory. -/
inductive BackupDir where
  | missing
  | notDir
  | dir (d : Directory)

namespace BackupDir

def names : BackupDir → List FileName
  | .dir d => d.names
  | _ => []

def remove (place : BackupDir) (name : FileName) : BackupDir :=
  match place with
  | .dir d => .dir (d.remove name)
  | _ => place

/-- The names that start and end like those of snapshots. -/
def backups (place : BackupDir) : List FileName := place.names.filter isBackupName

theorem mem_backups_iff {place : BackupDir} {name : FileName} :
    name ∈ place.backups ↔ name ∈ place.names ∧ isBackupName name = true := List.mem_filter

theorem mem_remove_iff {place : BackupDir} {name x : FileName} :
    x ∈ (place.remove name).names ↔ x ∈ place.names ∧ x ≠ name := by
  cases place with
  | dir d => exact Directory.mem_remove_iff
  | _ => simp [remove, names]

end BackupDir

/-- How the removal of a file ends. -/
inductive Removal where
  | removed
  /-- There is no such file any more. -/
  | missing
  | failed
deriving DecidableEq

/-- What the operating system answers. -/
structure FileIo where
  createDirAll : Bool
  readDir : Bool
  /-- The size of a file. -/
  metadata : FileName → Option ℕ
  removeFile : FileName → Removal

inductive SnapshotError where
  | io
  | database
  | invariant (message : String)
deriving DecidableEq

/-! ### Listing and pruning -/

/-- A snapshot file. Its path is its name in the directory. -/
structure BackupEntry where
  name : FileName
  timestamp : Option OffsetDateTime
  sizeBytes : ℕ
deriving DecidableEq

section Pruning

variable (parseStamp : List Char → Option OffsetDateTime) (io : FileIo)

/-- The loop over the entries of the directory. -/
def listDirents : List Dirent → Except SnapshotError (List BackupEntry)
  | [] => .ok []
  | .unreadable :: _ => .error .io
  | .nonText :: dirents => listDirents dirents
  | .named name :: dirents =>
    if isBackupName name then
      match io.metadata name with
      | none => .error .io
      | some size => do
        let entries ← listDirents dirents
        .ok (⟨name, parseBackupFilename parseStamp name, size⟩ :: entries)
    else listDirents dirents

/-- The snapshots in the directory, the greatest name first. -/
def listBackups (place : BackupDir) : Except SnapshotError (List BackupEntry) :=
  match place with
  | .dir d =>
    if io.readDir then do
      let entries ← listDirents parseStamp io d.dirents
      .ok (entries.insertionSort fun a b => b.name ≤ a.name)
    else .error .io
  | _ => .ok []

/-- Remove files until a removal fails. -/
def removeAll : List BackupEntry → BackupDir → Except SnapshotError (List FileName) × BackupDir
  | [], place => (.ok [], place)
  | entry :: entries, place =>
    match io.removeFile entry.name with
    | .failed => (.error .io, place)
    | .removed | .missing =>
      let (removed, after) := removeAll entries (place.remove entry.name)
      (removed.map (entry.name :: ·), after)

/-- Delete every snapshot beyond the first `keep`, but keep one. -/
def pruneBackups (place : BackupDir) (keep : ℕ) :
    Except SnapshotError (List FileName) × BackupDir :=
  let keep := max keep 1
  match listBackups parseStamp io place with
  | .error e => (.error e, place)
  | .ok entries =>
    if entries.length ≤ keep then (.ok [], place)
    else removeAll io (entries.drop keep) place

end Pruning

/-! ### Taking a snapshot -/

/-- How `VACUUM INTO` ends. -/
inductive Vacuum where
  | written
  /-- It may leave a file. -/
  | failed (leavesFile : Bool)
deriving DecidableEq

/-- `create_dir_all` -/
def createDir (io : FileIo) : BackupDir → Option Directory
  | .missing => if io.createDirAll then some .empty else none
  | .notDir => none
  | .dir d => some d

/-- Write a snapshot under a new name. -/
def createSnapshot (io : FileIo) (vacuum : Vacuum) (place : BackupDir) (dst : FileName) :
    Except SnapshotError Unit × BackupDir :=
  if dst ∈ place.names then (.error (.invariant "backup destination already exists"), place)
  else
    match createDir io place with
    | none => (.error .io, place)
    | some d =>
      match vacuum with
      | .written => (.ok (), .dir (d.add dst))
      | .failed leavesFile => (.error .database, .dir (if leavesFile then d.add dst else d))

/-- `usize::MAX` -/
def usizeMax : ℕ := 2 ^ 64 - 1

/-- How many snapshots to keep: the caller's number, or the stored one. -/
def retention (settings : Except SnapshotError ℕ) (retentionOverride : Option ℕ) :
    Except SnapshotError ℕ :=
  match retentionOverride with
  | some n => .ok n
  | none => settings.map (min · usizeMax)

/-- Take a snapshot, then prune. `place` is what is at the path of the directory, if there is such a
path; `settings` is what the database answers when asked for the number of snapshots to keep. -/
def snapshotNow (parseStamp : List Char → Option OffsetDateTime) (io : FileIo) (vacuum : Vacuum)
    (settings : Except SnapshotError ℕ) (retentionOverride : Option ℕ) (now : OffsetDateTime)
    (place : Option BackupDir) : Except SnapshotError FileName × Option BackupDir :=
  match place with
  | none => (.error (.invariant "neither XDG_DATA_HOME nor HOME is set"), none)
  | some place =>
    match retention settings retentionOverride with
    | .error e => (.error e, some place)
    | .ok n =>
      let dst := formatBackupFilename now
      match createSnapshot io vacuum place dst with
      | (.error e, place) => (.error e, some place)
      | (.ok _, place) =>
        match pruneBackups parseStamp io place n with
        | (.error e, place) => (.error e, some place)
        | (.ok _, place) => (.ok dst, some place)

/-! ### What a prune leaves -/

section Pruned

variable {parseStamp : List Char → Option OffsetDateTime} {io : FileIo} {place : BackupDir} {keep : ℕ}
  {name : FileName}

/-- An entry can be read, and the size of a snapshot. -/
def FileIo.Reads (io : FileIo) : Dirent → Prop
  | .unreadable => False
  | .nonText => True
  | .named name => isBackupName name = true → (io.metadata name).isSome = true

theorem listDirents_of_reads (parseStamp : List Char → Option OffsetDateTime)
    {dirents : List Dirent} (h : ∀ dirent ∈ dirents, io.Reads dirent) :
    ∃ entries, listDirents parseStamp io dirents = .ok entries ∧
      entries.map (·.name) = (dirents.filterMap Dirent.name?).filter isBackupName := by
  induction dirents with
  | nil => exact ⟨[], rfl, rfl⟩
  | cons dirent dirents ih =>
    obtain ⟨h_dirent, h_rest⟩ := List.forall_mem_cons.mp h
    obtain ⟨entries, h_entries, h_names⟩ := ih h_rest
    cases dirent with
    -- an entry that cannot be read would have failed, and one that is no text is passed over
    | unreadable => exact h_dirent.elim
    | nonText => exact ⟨entries, h_entries, h_names⟩
    | named name =>
      unfold listDirents
      show ∃ _, _ ∧ _ = List.filter isBackupName (name :: dirents.filterMap Dirent.name?)
      -- only a backup's name is asked for its size
      by_cases h_name : isBackupName name = true
      · obtain ⟨size, h_size⟩ := Option.isSome_iff_exists.mp (h_dirent h_name)
        rw [if_pos h_name, h_size, h_entries, List.filter_cons_of_pos h_name, ← h_names]
        exact ⟨_, rfl, rfl⟩
      · rw [if_neg h_name, List.filter_cons_of_neg h_name]
        exact ⟨entries, h_entries, h_names⟩

/-- **One turn of the loop** that does not fail: the entry can be read, and it is a snapshot whose
entry comes first, or nothing is added. -/
theorem listDirents_cons_ok {dirent : Dirent} {dirents : List Dirent} {entries : List BackupEntry}
    (h : listDirents parseStamp io (dirent :: dirents) = .ok entries) :
    io.Reads dirent ∧ ∃ rest, listDirents parseStamp io dirents = .ok rest ∧
      (entries = rest ∨ ∃ name size,
        entries = ⟨name, parseBackupFilename parseStamp name, size⟩ :: rest) := by
  cases dirent with
  | unreadable => exact nomatch h
  | nonText => exact ⟨trivial, entries, h, Or.inl rfl⟩
  | named name =>
    -- the size is asked for only if the name is that of a snapshot
    unfold listDirents at h
    by_cases h_name : isBackupName name = true
    · rw [if_pos h_name] at h
      cases h_metadata : io.metadata name with
      | none =>
        rw [h_metadata] at h
        exact nomatch h
      | some size =>
        rw [h_metadata] at h
        cases h_rest : listDirents parseStamp io dirents with
        | error e =>
          rw [h_rest] at h
          exact nomatch h
        | ok rest =>
          rw [h_rest] at h
          exact ⟨fun _ => Option.isSome_iff_exists.mpr ⟨size, h_metadata⟩, rest, rfl,
            Or.inr ⟨name, size, (Except.ok.inj h).symm⟩⟩
    · rw [if_neg h_name] at h
      exact ⟨fun h_x => absurd h_x h_name, entries, h, Or.inl rfl⟩

theorem reads_of_listDirents {dirents : List Dirent} {entries : List BackupEntry}
    (h : listDirents parseStamp io dirents = .ok entries) : ∀ dirent ∈ dirents, io.Reads dirent := by
  induction dirents generalizing entries with
  | nil => exact fun _ h_mem => nomatch h_mem
  | cons dirent dirents ih =>
    obtain ⟨h_reads, rest, h_rest, -⟩ := listDirents_cons_ok h
    exact List.forall_mem_cons.mpr ⟨h_reads, ih h_rest⟩

/-- The directory can be listed. -/
def Lists (io : FileIo) : BackupDir → Prop
  | .dir d => io.readDir = true ∧ ∀ dirent ∈ d.dirents, io.Reads dirent
  | _ => True

/-- **A listing** has the names of the snapshots, the greatest first. -/
theorem listBackups_of_lists (parseStamp : List Char → Option OffsetDateTime) (h : Lists io place) :
    ∃ entries, listBackups parseStamp io place = .ok entries ∧
      (entries.map (·.name)).SortedGT ∧ (entries.map (·.name)).Perm place.backups := by
  cases place with
  | dir d =>
    obtain ⟨entries, h_entries, h_names⟩ := listDirents_of_reads parseStamp h.2
    -- the names listed are the backups, before they are sorted
    have h_backups : entries.map (·.name) = (BackupDir.dir d).backups := h_names
    refine ⟨entries.insertionSort fun a b => b.name ≤ a.name, ?_, ?_, ?_⟩
    · show (if io.readDir = true then _ else _) = _
      rw [if_pos h.1, h_entries]
      rfl
    · apply sortedGT_map_insertionSort
      rw [h_backups]
      exact d.nodup.filter _
    · rw [← h_backups]
      exact (List.perm_insertionSort _ entries).map _
  | _ => exact ⟨[], rfl, List.sortedGT_iff_pairwise.mpr List.Pairwise.nil, List.Perm.nil⟩

/-- What a listing of a directory is made of. -/
theorem listBackups_dir_ok {d : Directory} {entries : List BackupEntry}
    (h : listBackups parseStamp io (.dir d) = .ok entries) :
    io.readDir = true ∧ ∃ unsorted, listDirents parseStamp io d.dirents = .ok unsorted ∧
      entries = unsorted.insertionSort fun a b => b.name ≤ a.name := by
  change (if io.readDir = true then _ else _) = _ at h
  by_cases h_dir : io.readDir = true
  · rw [if_pos h_dir] at h
    cases h_entries : listDirents parseStamp io d.dirents with
    | error e =>
      rw [h_entries] at h
      exact nomatch h
    | ok unsorted =>
      rw [h_entries] at h
      exact ⟨h_dir, unsorted, rfl, (Except.ok.inj h).symm⟩
  · rw [if_neg h_dir] at h
    exact nomatch h

theorem lists_of_listBackups {entries : List BackupEntry}
    (h : listBackups parseStamp io place = .ok entries) : Lists io place := by
  cases place with
  | dir d =>
    obtain ⟨h_dir, unsorted, h_entries, -⟩ := listBackups_dir_ok h
    exact ⟨h_dir, reads_of_listDirents h_entries⟩
  | _ => trivial

/-- A removal that does not end the loop. -/
def FileIo.removes (io : FileIo) (name : FileName) : Bool := io.removeFile name ≠ .failed

/-- **The loop** comes to the files before the first one that cannot be removed. -/
theorem mem_removeAll_iff {entries : List BackupEntry} :
    name ∈ (removeAll io entries place).2.names ↔
      name ∈ place.names ∧ name ∉ (entries.map (·.name)).takeWhile io.removes := by
  induction entries generalizing place with
  | nil => simp [removeAll]
  | cons entry entries ih =>
    have h_gone : name ∈ (removeAll io entries (place.remove entry.name)).2.names ↔
        name ∈ place.names ∧
          name ∉ entry.name :: (entries.map (·.name)).takeWhile io.removes := by
      rw [ih, BackupDir.mem_remove_iff, List.mem_cons, not_or, and_assoc]
    -- the first removal that fails ends the loop
    unfold removeAll
    rw [List.map_cons]
    cases h_removal : io.removeFile entry.name with
    | failed =>
      rw [List.takeWhile_cons_of_neg (by simp [FileIo.removes, h_removal])]
      simp
    | removed =>
      rw [List.takeWhile_cons_of_pos (by simp [FileIo.removes, h_removal])]
      exact h_gone
    | missing =>
      rw [List.takeWhile_cons_of_pos (by simp [FileIo.removes, h_removal])]
      exact h_gone

/-- The prune comes to a file: it is in excess, and no removal of a file in excess, from it upwards,
fails. -/
structure Reached (io : FileIo) (place : BackupDir) (keep : ℕ) (name : FileName) : Prop where
  lists : Lists io place
  listed : name ∈ place.backups
  excess : max keep 1 ≤ above place.backups name
  removes : ∀ y ∈ place.backups, name ≤ y → max keep 1 ≤ above place.backups y → io.removes y = true

/-- A prune of a directory that can be listed is the loop over the files in excess. -/
theorem pruneBackups_of_lists (parseStamp : List Char → Option OffsetDateTime) (keep : ℕ)
    (h : Lists io place) :
    ∃ excess : List BackupEntry, pruneBackups parseStamp io place keep = removeAll io excess place ∧
      (excess.map (·.name)).SortedGT ∧
        ∀ x, x ∈ excess.map (·.name) ↔ x ∈ place.backups ∧ max keep 1 ≤ above place.backups x := by
  obtain ⟨entries, h_list, h_sorted, h_perm⟩ := listBackups_of_lists parseStamp h
  -- what is dropped from the sorted names is what has enough names above it
  refine ⟨entries.drop (max keep 1), ?_, ?_, fun x => ?_⟩
  · unfold pruneBackups
    rw [h_list]
    show (if entries.length ≤ max keep 1 then _ else _) = _
    by_cases h_few : entries.length ≤ max keep 1
    · rw [if_pos h_few, List.drop_eq_nil_of_le h_few]
      rfl
    · rw [if_neg h_few]
  · rw [List.map_drop]
    exact (h_sorted.pairwise.sublist (List.drop_sublist _ _)).sortedGT
  · rw [List.map_drop, mem_drop_iff h_sorted, h_perm.mem_iff, above_perm h_perm]

theorem pruneBackups_of_not_lists (parseStamp : List Char → Option OffsetDateTime) (keep : ℕ)
    (h : ¬ Lists io place) :
    ∃ e, pruneBackups parseStamp io place keep = (.error e, place) := by
  unfold pruneBackups
  cases h_list : listBackups parseStamp io place with
  | error e => exact ⟨e, rfl⟩
  | ok entries => exact absurd (lists_of_listBackups h_list) h

/-- **A prune** leaves the files it does not come to. -/
theorem mem_pruneBackups_iff :
    name ∈ (pruneBackups parseStamp io place keep).2.names ↔
      name ∈ place.names ∧ ¬ Reached io place keep name := by
  by_cases h_lists : Lists io place
  · obtain ⟨excess, h_eq, h_sorted, h_excess⟩ :=
      pruneBackups_of_lists parseStamp keep h_lists
    -- it is reached if it is among the first names to go, all of which can be removed
    have h_reached : name ∈ (excess.map (·.name)).takeWhile io.removes ↔
        Reached io place keep name := by
      rw [mem_takeWhile_iff h_sorted, h_excess]
      refine ⟨?_, ?_⟩
      · rintro ⟨⟨h_listed, h_above⟩, h_removes⟩
        exact ⟨h_lists, h_listed, h_above,
          fun y h_y h_le h_le_above => h_removes y ((h_excess y).mpr ⟨h_y, h_le_above⟩) h_le⟩
      · intro h
        refine ⟨⟨h.listed, h.excess⟩, fun y h_y h_le => ?_⟩
        exact h.removes y ((h_excess y).mp h_y).1 h_le ((h_excess y).mp h_y).2
    rw [h_eq, mem_removeAll_iff, h_reached]
  · -- without a listing nothing is removed
    obtain ⟨e, h_eq⟩ := pruneBackups_of_not_lists parseStamp keep h_lists
    rw [h_eq]
    exact (and_iff_left fun h => h_lists h.lists).symm

/-- A loop that ends well has removed every file. -/
theorem removes_of_removeAll {entries : List BackupEntry} {removed : List FileName}
    (h : (removeAll io entries place).1 = .ok removed) :
    ∀ x ∈ entries.map (·.name), io.removes x = true := by
  induction entries generalizing place removed with
  | nil => exact fun x h_x => nomatch h_x
  | cons entry entries ih =>
    have h_cons : io.removeFile entry.name ≠ .failed ∧
        (removeAll io entries (place.remove entry.name)).1.map (entry.name :: ·) = .ok removed := by
      unfold removeAll at h
      cases h_removal : io.removeFile entry.name with
      | failed =>
        rw [h_removal] at h
        exact nomatch h
      | removed =>
        rw [h_removal] at h
        exact ⟨nofun, h⟩
      | missing =>
        rw [h_removal] at h
        exact ⟨nofun, h⟩
    obtain ⟨h_entry, h_map⟩ := h_cons
    -- an error further on is handed on
    cases h_rest : (removeAll io entries (place.remove entry.name)).1 with
    | error e =>
      rw [h_rest] at h_map
      exact nomatch h_map
    | ok rest =>
      rw [List.map_cons, List.forall_mem_cons]
      exact ⟨decide_eq_true h_entry, ih h_rest⟩

/-- **A prune that ends well** comes to every file in excess. -/
theorem reached_iff_of_ok {removed : List FileName}
    (h : (pruneBackups parseStamp io place keep).1 = .ok removed) (h_listed : name ∈ place.backups) :
    Reached io place keep name ↔ max keep 1 ≤ above place.backups name := by
  refine ⟨fun h_reached => h_reached.excess, fun h_above => ?_⟩
  by_cases h_lists : Lists io place
  · obtain ⟨excess, h_eq, _, h_excess⟩ :=
      pruneBackups_of_lists parseStamp keep h_lists
    rw [h_eq] at h
    have h_removes := removes_of_removeAll h
    exact ⟨h_lists, h_listed, h_above,
      fun y h_y _ h_le_above => h_removes y ((h_excess y).mpr ⟨h_y, h_le_above⟩)⟩
  · obtain ⟨e, h_eq⟩ := pruneBackups_of_not_lists parseStamp keep h_lists
    rw [h_eq] at h
    exact nomatch h

end Pruned

/-! ### The newest snapshots are kept -/

section KeepsNewest

variable (parseStamp : List Char → Option OffsetDateTime) (io : FileIo) (place : BackupDir) (keep : ℕ)

/-- A file is dated, and not before `t`. -/
def NotOlder (t : OffsetDateTime) (name : FileName) : Prop :=
  ∃ t', parseBackupFilename parseStamp name = some t' ∧ t ≤ t'

/-- The prune deletes a file dated `t`. -/
structure Deleted (t : OffsetDateTime) (name : FileName) : Prop where
  dated : parseBackupFilename parseStamp name = some t
  present : name ∈ place.names
  gone : name ∉ (pruneBackups parseStamp io place keep).2.names
  removed : io.removeFile name = .removed

/-- With a dated snapshot deleted, no snapshot file is kept that is undated or older. -/
def KeepsNewest : Prop :=
  ∀ t d, Deleted parseStamp io place keep t d → ∀ k ∈ place.backups,
    k ∈ (pruneBackups parseStamp io place keep).2.names → NotOlder parseStamp t k

/-- The prune comes to a file dated `t`, and removes it. -/
structure Doomed (t : OffsetDateTime) (name : FileName) : Prop extends Reached io place keep name where
  dated : parseBackupFilename parseStamp name = some t
  removed : io.removeFile name = .removed

/-- The order of the names is good enough: for every dated snapshot that is removed, those with the
greatest names are not older, and after it no removal fails before all older ones are removed. -/
structure PrunesInOrder : Prop where
  greatest : ∀ t d, Doomed parseStamp io place keep t d → ∀ k ∈ place.backups,
    above place.backups k < max keep 1 → NotOlder parseStamp t k
  older : ∀ t d, Doomed parseStamp io place keep t d → ∀ k ∈ place.backups,
    k < d → ¬ NotOlder parseStamp t k → ∀ y ∈ place.backups, k ≤ y → y < d → io.removes y = true

variable {parseStamp io place keep}

theorem deleted_iff {t : OffsetDateTime} {name : FileName} :
    Deleted parseStamp io place keep t name ↔ Doomed parseStamp io place keep t name := by
  refine ⟨?_, ?_⟩
  · rintro ⟨h_dated, h_present, h_gone, h_removed⟩
    rw [mem_pruneBackups_iff, not_and_not_right] at h_gone
    exact ⟨h_gone h_present, h_dated, h_removed⟩
  · intro h
    refine ⟨h.dated, (BackupDir.mem_backups_iff.mp h.listed).1, ?_, h.removed⟩
    rw [mem_pruneBackups_iff, not_and_not_right]
    exact fun _ => h.toReached

theorem keepsNewest_iff :
    KeepsNewest parseStamp io place keep ↔ PrunesInOrder parseStamp io place keep := by
  unfold KeepsNewest
  simp only [deleted_iff, mem_pruneBackups_iff]
  refine ⟨?_, ?_⟩
  · intro h
    refine ⟨fun t d h_d k h_k h_few => ?_, fun t d h_d k h_k h_lt h_older y h_y h_le h_y_lt => ?_⟩
    · refine h t d h_d k h_k ⟨(BackupDir.mem_backups_iff.mp h_k).1, fun h_reached => ?_⟩
      exact absurd h_reached.excess (not_le.mpr h_few)
    · -- a failure would keep the older file
      by_contra h_fails
      refine h_older (h t d h_d k h_k ⟨(BackupDir.mem_backups_iff.mp h_k).1, fun h_reached => ?_⟩)
      exact h_fails (h_reached.removes y h_y h_le (h_d.excess.trans (above_le_above h_y_lt.le)))
  · rintro ⟨h_greatest, h_older⟩ t d h_d k h_k ⟨h_mem, h_kept⟩
    -- a file is kept for its name, or because a removal has failed
    by_cases h_above : max keep 1 ≤ above place.backups k
    · -- a failure at or above it, and below the deleted one, keeps it
      by_contra h_k_older
      refine h_kept ⟨h_d.lists, h_k, h_above, fun y h_y h_le h_y_above => ?_⟩
      rcases le_or_gt d y with h_d_le | h_lt
      · exact h_d.removes y h_y h_d_le h_y_above
      · exact h_older t d h_d k h_k (h_le.trans_lt h_lt) h_k_older y h_y h_le h_lt
    · exact h_greatest t d h_d k h_k (not_le.mp h_above)

theorem names_createDir {d : Directory} (h : createDir io place = some d) :
    d.names = place.names := by
  cases place with
  | missing =>
    change (if io.createDirAll = true then some Directory.empty else none) = some d at h
    by_cases h_create : io.createDirAll = true
    · rw [if_pos h_create] at h
      obtain rfl := Option.some.inj h
      rfl
    · rw [if_neg h_create] at h
      exact nomatch h
  | notDir => exact nomatch h
  | dir _ =>
    obtain rfl := Option.some.inj h
    rfl

/-- A snapshot that is written is a new file. -/
theorem createSnapshot_ok {vacuum : Vacuum} {dst : FileName} {after : BackupDir}
    (h : createSnapshot io vacuum place dst = (.ok (), after)) :
    dst ∉ place.names ∧ after.names = dst :: place.names := by
  unfold createSnapshot at h
  by_cases h_exists : dst ∈ place.names
  · rw [if_pos h_exists] at h
    exact nomatch h
  · -- the snapshot is written under a name that was free
    rw [if_neg h_exists] at h
    refine ⟨h_exists, ?_⟩
    cases h_dir : createDir io place with
    | none =>
      rw [h_dir] at h
      exact nomatch h
    | some d =>
      rw [h_dir] at h
      cases vacuum with
      | failed leavesFile => exact nomatch h
      | written =>
        obtain rfl := (Prod.mk.inj h).2
        have h_names := names_createDir h_dir
        show (d.add dst).names = _
        rw [← h_names] at h_exists ⊢
        exact Directory.names_add h_exists

/-- A snapshot that is taken is written, and the prune after it ends well. -/
theorem snapshotNow_ok {vacuum : Vacuum} {settings : Except SnapshotError ℕ}
    {retentionOverride : Option ℕ} {now : OffsetDateTime} {name : FileName} {after : BackupDir}
    (h : snapshotNow parseStamp io vacuum settings retentionOverride now (some place) =
      (.ok name, some after)) :
    name = formatBackupFilename now ∧ ∃ n written removed,
      retention settings retentionOverride = .ok n ∧
        createSnapshot io vacuum place name = (.ok (), written) ∧
          pruneBackups parseStamp io written n = (.ok removed, after) := by
  -- each stage has succeeded, since the whole has
  unfold snapshotNow at h
  cases h_retention : retention settings retentionOverride with
  | error e => simp [h_retention] at h
  | ok n =>
    simp only [h_retention] at h
    rcases h_create : createSnapshot io vacuum place (formatBackupFilename now) with ⟨e | _, written⟩
    · simp [h_create] at h
    · simp only [h_create] at h
      rcases h_prune : pruneBackups parseStamp io written n with ⟨e | removed, left⟩
      · simp [h_prune] at h
      · simp only [h_prune] at h
        obtain ⟨h_name, h_after⟩ := Prod.mk.inj h
        obtain rfl := Except.ok.inj h_name
        obtain rfl := Option.some.inj h_after
        exact ⟨rfl, n, written, removed, rfl, h_create, h_prune⟩

/-- A snapshot that is taken is left by its own prune, if fewer names than are kept are above its
own. -/
theorem mem_snapshotNow_iff {vacuum : Vacuum} {settings : Except SnapshotError ℕ}
    {retentionOverride : Option ℕ} {now : OffsetDateTime} {name : FileName} {after : BackupDir}
    (h : snapshotNow parseStamp io vacuum settings retentionOverride now (some place) =
      (.ok name, some after)) :
    name ∈ after.names ↔
      ∃ n, retention settings retentionOverride = .ok n ∧ above place.backups name < max n 1 := by
  obtain ⟨rfl, n, written, removed, h_retention, h_create, h_prune⟩ := snapshotNow_ok h
  obtain ⟨_, h_names⟩ := createSnapshot_ok h_create
  -- the new name is one of those listed, and no name is above it that was not there before
  have h_backups : written.backups = formatBackupFilename now :: place.backups := by
    unfold BackupDir.backups
    rw [h_names, List.filter_cons_of_pos (isBackupName_formatBackupFilename now)]
  have h_listed : formatBackupFilename now ∈ written.backups := by
    rw [h_backups]
    exact List.mem_cons_self
  have h_mem : formatBackupFilename now ∈ written.names :=
    (BackupDir.mem_backups_iff.mp h_listed).1
  have h_ok : (pruneBackups parseStamp io written n).1 = .ok removed := by rw [h_prune]
  have h_left : formatBackupFilename now ∈ after.names ↔
      above place.backups (formatBackupFilename now) < max n 1 := by
    calc formatBackupFilename now ∈ after.names
        ↔ formatBackupFilename now ∈ (pruneBackups parseStamp io written n).2.names := by
          rw [h_prune]
      _ ↔ ¬ Reached io written n (formatBackupFilename now) := by
          rw [mem_pruneBackups_iff, and_iff_right h_mem]
      _ ↔ above place.backups (formatBackupFilename now) < max n 1 := by
          rw [reached_iff_of_ok h_ok h_listed, not_le, h_backups, above_cons_self]
  rw [h_left, h_retention]
  refine ⟨?_, ?_⟩
  · exact fun h_few => ⟨n, rfl, h_few⟩
  · rintro ⟨_, h_eq, h_few⟩
    obtain rfl := Except.ok.inj h_eq
    exact h_few

end KeepsNewest

/-- Nothing fails. -/
def FileIo.sound : FileIo where
  createDirAll := true
  readDir := true
  metadata _ := some 0
  removeFile _ := .removed

/-- The example of the source: 2026-04-23T14:05:32Z. -/
def april23 : OffsetDateTime where
  unixNanos := 1776953132 * Calendar.nanosPerSecond
  inRange := by decide

/-- A parser that knows that time. -/
def parseApril23 (stamp : List Char) : Option OffsetDateTime :=
  if stamp = "20260423T140532".toList then some april23 else none

/-- A directory with a copy that the user has made. -/
def withCopy : BackupDir := .dir ⟨[.named "ludex-old.sqlite".toList], by decide +kernel⟩

/-- The same directory with a dated snapshot. -/
def withBoth : BackupDir :=
  .dir ⟨[.named (formatBackupFilename april23), .named "ludex-old.sqlite".toList],
    by decide +kernel⟩

/-- **The newest snapshots are kept** by a prune, if and only if the order of the names is good
enough; and the snapshot that has just been taken, if and only if fewer names are above its own than
are kept. -/
theorem prune_keepsNewest_iff (parseStamp : List Char → Option OffsetDateTime) (io : FileIo) :
    (∀ place keep, KeepsNewest parseStamp io place keep ↔ PrunesInOrder parseStamp io place keep) ∧
      ∀ vacuum settings retentionOverride now place name after,
        snapshotNow parseStamp io vacuum settings retentionOverride now (some place) =
            (.ok name, some after) →
          (name ∈ after.names ↔ ∃ n, retention settings retentionOverride = .ok n ∧
            above place.backups name < max n 1) :=
  ⟨fun _ _ => keepsNewest_iff, fun _ _ _ _ _ _ _ h => mem_snapshotNow_iff h⟩

/-- With room for both files the prune deletes nothing, and a snapshot that is taken is left. -/
theorem prune_keepsNewest_iff_two :
    KeepsNewest parseApril23 .sound withBoth 2 ∧
      ∃ after, snapshotNow parseApril23 .sound .written (.ok 2) none april23 (some withCopy) =
          (.ok (formatBackupFilename april23), some after) ∧
        formatBackupFilename april23 ∈ after.names := by
  obtain ⟨h_prune, h_taken⟩ := prune_keepsNewest_iff parseApril23 .sound
  have h_room : ∀ d ∈ withBoth.backups, ¬ max 2 1 ≤ above withBoth.backups d := by decide +kernel
  refine ⟨(h_prune withBoth 2).mpr ⟨?_, ?_⟩, _, rfl, ?_⟩
  · exact fun t d h_d => absurd h_d.excess (h_room d h_d.listed)
  · exact fun t d h_d => absurd h_d.excess (h_room d h_d.listed)
  · exact (h_taken .written (.ok 2) none april23 withCopy _ _ rfl).mpr ⟨2, rfl, by decide +kernel⟩

/-- A letter comes after every digit. So the copy is kept: a prune to one file removes the dated
snapshot, and a snapshot that is taken removes itself. -/
theorem prune_deletes_dated :
    ¬ KeepsNewest parseApril23 .sound withBoth 1 ∧
      ∃ after, snapshotNow parseApril23 .sound .written (.ok 1) none april23 (some withCopy) =
          (.ok (formatBackupFilename april23), some after) ∧
        formatBackupFilename april23 ∉ after.names := by
  refine ⟨fun h => ?_, _, rfl, by decide +kernel⟩
  have h_deleted : Deleted parseApril23 .sound withBoth 1 april23 (formatBackupFilename april23) :=
    ⟨by decide +kernel, by decide +kernel, by decide +kernel, rfl⟩
  obtain ⟨t, h_t, _⟩ := h april23 _ h_deleted "ludex-old.sqlite".toList (by decide +kernel)
    (by decide +kernel)
  have h_undated : parseBackupFilename parseApril23 "ludex-old.sqlite".toList = none := by
    decide +kernel
  rw [h_undated] at h_t
  exact nomatch h_t

end Backup

end Ludex
