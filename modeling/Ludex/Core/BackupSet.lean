import Ludex.Lib.Run
import Ludex.Core.Snapshots

/-!
# The backup set

Snapshots and prunes of several tasks and processes on one directory. `VACUUM INTO` writes its output
in place: the file has the name of a snapshot from the moment the statement opens it, is complete
when the statement returns, and may be left behind when it does not. A prune lists the directory once
and then removes one file after the other. `Call.turn` is one step of a call, between which other
calls take theirs; a call that runs alone does what `snapshot_now` and `prune_backups` say
(`prune_alone`).

A prune counts names. So a complete snapshot is kept in a run in which no prune finds more snapshots
than it keeps without a complete one among those it keeps (`backupSet_kept`).
-/

namespace Ludex

open Ranking Run

namespace Backup

/-! ### Files and calls -/

/-- What is in a file with the name of a snapshot. -/
inductive Content where
  | complete
  /-- The statement of a call is writing it. -/
  | writing (call : ℕ)
  /-- A statement has left it that did not return. -/
  | abandoned
deriving DecidableEq

/-- How far a call of `snapshot_now` or `prune_backups` has come. -/
inductive Call where
  /-- The destination is named, and is to be checked. -/
  | checking (now : OffsetDateTime) (keep : ℕ)
  /-- The statement is to be executed. -/
  | vacuuming (now : OffsetDateTime) (keep : ℕ)
  /-- The statement has opened its output. -/
  | writing (now : OffsetDateTime) (keep : ℕ)
  /-- The directory is to be listed. -/
  | pruning (keep : ℕ)
  | removing (excess : List FileName)
  | returned

/-- The files that a call has found in excess, and is still to remove. -/
def Call.excess : Call → List FileName
  | removing excess => excess
  | _ => []

/-- What the calls share. -/
structure BackupSet where
  place : BackupDir
  content : FileName → Content
  /-- A snapshot has been completed, for the observer. -/
  taken : Bool

/-- What the system answers the next step of a call. -/
structure Answer where
  io : FileIo
  vacuum : Vacuum

section Steps

variable (parseStamp : List Char → Option OffsetDateTime)

/-- What a prune removes of the snapshots that are listed. -/
def excessOf (entries : List BackupEntry) (keep : ℕ) : List FileName :=
  (entries.drop (max keep 1)).map (·.name)

/-- The next step of the `i`-th call. -/
def Call.turn (answer : Answer) (i : ℕ) (s : BackupSet) : Call → BackupSet × Call
  | .checking now keep =>
    if s.place.names.contains (formatBackupFilename now) then (s, .returned)
    else
      match createDir answer.io s.place with
      | none => (s, .returned)
      | some d => ({ s with place := .dir d }, .vacuuming now keep)
  | .vacuuming now keep =>
    match s.place with
    | .dir d =>
      -- the statement refuses a file that exists
      if d.names.contains (formatBackupFilename now) then (s, .returned)
      else
        ({ s with
            place := .dir (d.add (formatBackupFilename now))
            content := Function.update s.content (formatBackupFilename now) (.writing i) },
          .writing now keep)
    | _ => (s, .returned)
  | .writing now keep =>
    match answer.vacuum, decide (s.content (formatBackupFilename now) = .writing i) with
    | .written, true =>
      ({ s with
          content := Function.update s.content (formatBackupFilename now) .complete
          taken := true }, .pruning keep)
    -- the file has been removed, and its name given to another one
    | .written, false => ({ s with taken := true }, .pruning keep)
    | .failed true, true =>
      ({ s with content := Function.update s.content (formatBackupFilename now) .abandoned }, .returned)
    | .failed false, true => ({ s with place := s.place.remove (formatBackupFilename now) }, .returned)
    | .failed _, false => (s, .returned)
  | .pruning keep =>
    match listBackups parseStamp answer.io s.place with
    | .error _ => (s, .returned)
    | .ok entries => (s, .removing (excessOf entries keep))
  | .removing [] => (s, .returned)
  | .removing (name :: excess) =>
    match answer.io.removeFile name with
    | .failed => (s, .returned)
    | .removed | .missing => ({ s with place := s.place.remove name }, .removing excess)
  | .returned => (s, .returned)

end Steps

/-- The backup set and the calls on it. -/
structure Backups extends BackupSet where
  calls : List Call := []

/-- A step of the system. -/
inductive Action where
  /-- The scheduler, the bus or the command line takes a snapshot. -/
  | snapshotNow (now : OffsetDateTime) (keep : ℕ)
  | pruneBackups (keep : ℕ)
  /-- A call takes its next step. Where a process dies, its statement fails and its calls take no
  step any more. -/
  | turn (call : ℕ) (answer : Answer)

section Runs

variable (parseStamp : List Char → Option OffsetDateTime)

/-- What a step leads to. -/
def next (s : Backups) : Action → Backups
  | .snapshotNow now keep => { s with calls := s.calls ++ [.checking now keep] }
  | .pruneBackups keep => { s with calls := s.calls ++ [.pruning keep] }
  | .turn i answer =>
    match s.calls[i]? with
    | none => s
    | some call =>
      { toBackupSet := (call.turn parseStamp answer i s.toBackupSet).1
        calls := s.calls.set i (call.turn parseStamp answer i s.toBackupSet).2 }

/-- A step. -/
def Step (s : Backups) (a : Action) (t : Backups) : Prop := t = next parseStamp s a

end Runs

/-! ### What a step of a call does -/

/-- What a step of a call does. -/
inductive Effect (answer : Answer) (i : ℕ) (s : BackupSet) : Call → BackupSet → Call → Prop
  | returns {call : Call} :
      (∀ now keep, call = .writing now keep → s.content (formatBackupFilename now) ≠ .writing i) →
      Effect answer i s call s .returned
  | makesDir {now : OffsetDateTime} {keep : ℕ} {d : Directory} :
      (BackupDir.dir d).names = s.place.names →
      Effect answer i s (.checking now keep) { s with place := .dir d } (.vacuuming now keep)
  | begins {now : OffsetDateTime} {keep : ℕ} {d : Directory} : s.place = .dir d →
      formatBackupFilename now ∉ d.names →
      Effect answer i s (.vacuuming now keep)
        { s with
          place := .dir (d.add (formatBackupFilename now))
          content := Function.update s.content (formatBackupFilename now) (.writing i) }
        (.writing now keep)
  | completes {now : OffsetDateTime} {keep : ℕ} :
      s.content (formatBackupFilename now) = .writing i →
      Effect answer i s (.writing now keep)
        { s with
          content := Function.update s.content (formatBackupFilename now) .complete
          taken := true }
        (.pruning keep)
  /-- The statement has written a file whose name is another one's. -/
  | unlinked {now : OffsetDateTime} {keep : ℕ} :
      s.content (formatBackupFilename now) ≠ .writing i →
      Effect answer i s (.writing now keep) { s with taken := true } (.pruning keep)
  | abandons {now : OffsetDateTime} {keep : ℕ} : answer.vacuum = .failed true →
      s.content (formatBackupFilename now) = .writing i →
      Effect answer i s (.writing now keep)
        { s with content := Function.update s.content (formatBackupFilename now) .abandoned }
        .returned
  | withdraws {now : OffsetDateTime} {keep : ℕ} :
      s.content (formatBackupFilename now) = .writing i →
      Effect answer i s (.writing now keep)
        { s with place := s.place.remove (formatBackupFilename now) } .returned
  | lists {keep : ℕ} {excess : List FileName} :
      (∀ x ∈ excess, x ∈ s.place.backups ∧ max keep 1 ≤ above s.place.backups x) →
      Effect answer i s (.pruning keep) s (.removing excess)
  | removes {name : FileName} {excess : List FileName} :
      Effect answer i s (.removing (name :: excess)) { s with place := s.place.remove name }
        (.removing excess)

section Runs

variable {parseStamp : List Char → Option OffsetDateTime}

/-- What is listed in excess has as many names above it as are kept. -/
theorem mem_excessOf_iff {io : FileIo} {place : BackupDir} {entries : List BackupEntry}
    (h : listBackups parseStamp io place = .ok entries) (keep : ℕ) (x : FileName) :
    x ∈ excessOf entries keep ↔ x ∈ place.backups ∧ max keep 1 ≤ above place.backups x := by
  obtain ⟨entries', h_eq, h_sorted, h_perm⟩ :=
    listBackups_of_lists parseStamp (lists_of_listBackups h)
  obtain rfl : entries = entries' := Except.ok.inj (h.symm.trans h_eq)
  unfold excessOf
  rw [List.map_drop, mem_drop_iff h_sorted, h_perm.mem_iff, above_perm h_perm]

theorem Call.turn_effect (parseStamp : List Char → Option OffsetDateTime) (answer : Answer) (i : ℕ)
    (s : BackupSet) (call : Call) :
    Effect answer i s call (call.turn parseStamp answer i s).1 (call.turn parseStamp answer i s).2 := by
  cases call with
  | checking now keep =>
    simp only [Call.turn]
    split
    · exact .returns fun _ _ h => nomatch h
    · cases h_dir : createDir answer.io s.place with
      | none => exact .returns fun _ _ h => nomatch h
      | some d => exact .makesDir (names_createDir h_dir)
  | vacuuming now keep =>
    simp only [Call.turn]
    split
    · rename_i d h_place
      split
      · exact .returns fun _ _ h => nomatch h
      · rename_i h_new
        exact .begins h_place fun h_mem => h_new (List.contains_iff_mem.mpr h_mem)
    · exact .returns fun _ _ h => nomatch h
  | writing now keep =>
    simp only [Call.turn]
    -- the file under its name may not be its own any more
    by_cases h_content : s.content (formatBackupFilename now) = .writing i
    · rw [decide_eq_true h_content]
      cases h_vacuum : answer.vacuum with
      | written => exact .completes h_content
      | failed leavesFile =>
        cases leavesFile with
        | true => exact .abandons h_vacuum h_content
        | false => exact .withdraws h_content
    · rw [decide_eq_false h_content]
      cases answer.vacuum with
      | written => exact .unlinked h_content
      | failed leavesFile =>
        have h_other : ∀ now' keep', Call.writing now keep = .writing now' keep' →
            s.content (formatBackupFilename now') ≠ .writing i := by
          rintro _ _ ⟨⟩
          exact h_content
        cases leavesFile <;> exact .returns h_other
  | pruning keep =>
    simp only [Call.turn]
    cases h_list : listBackups parseStamp answer.io s.place with
    | error e => exact .returns fun _ _ h => nomatch h
    | ok entries => exact .lists fun x h_x => (mem_excessOf_iff h_list keep x).mp h_x
  | removing excess =>
    cases excess with
    | nil => exact .returns fun _ _ h => nomatch h
    | cons name excess =>
      simp only [Call.turn]
      cases answer.io.removeFile name with
      | failed => exact .returns fun _ _ h => nomatch h
      | removed => exact .removes
      -- a file that another prune has removed counts as removed
      | missing => exact .removes
  | returned => exact .returns fun _ _ h => nomatch h

/-- A step is a new call, a step of a call, or nothing. -/
theorem next_cases (parseStamp : List Char → Option OffsetDateTime) (s : Backups) (a : Action) :
    (∃ call : Call, call.excess = [] ∧ (∀ now keep, call ≠ .writing now keep) ∧
      (∀ i answer, a ≠ .turn i answer) ∧
      next parseStamp s a = { s with calls := s.calls ++ [call] }) ∨
    (∃ i answer, a = .turn i answer ∧ s.calls[i]? = none ∧ next parseStamp s a = s) ∨
    ∃ i answer call after call', a = .turn i answer ∧ s.calls[i]? = some call ∧
      Effect answer i s.toBackupSet call after call' ∧
      next parseStamp s a = { toBackupSet := after, calls := s.calls.set i call' } := by
  -- a new call joins the list; a turn goes to the call at its position, if there is one
  cases a with
  | snapshotNow now keep =>
    have h_writing : ∀ now' keep', Call.checking now keep ≠ .writing now' keep' :=
      fun _ _ h => nomatch h
    exact Or.inl ⟨.checking now keep, rfl, h_writing, fun _ _ h => (nomatch h), rfl⟩
  | pruneBackups keep =>
    have h_writing : ∀ now' keep', Call.pruning keep ≠ .writing now' keep' := fun _ _ h => nomatch h
    exact Or.inl ⟨.pruning keep, rfl, h_writing, fun _ _ h => (nomatch h), rfl⟩
  | turn i answer =>
    cases h_call : s.calls[i]? with
    | none =>
      refine Or.inr (Or.inl ⟨i, answer, rfl, h_call, ?_⟩)
      simp only [next, h_call]
    | some call =>
      refine Or.inr (Or.inr ⟨i, answer, call, _, _, rfl, h_call,
        call.turn_effect parseStamp answer i s.toBackupSet, ?_⟩)
      simp only [next, h_call]

end Runs

/-! ### Keeping a complete snapshot -/

/-- Once a snapshot has been completed, a complete one is listed. -/
def Kept (s : Backups) : Prop :=
  s.taken = true → ∃ x ∈ s.place.backups, s.content x = .complete

/-- No file is listed that a failed snapshot has left, except for those from before. -/
def Unlittered (s₀ s : Backups) : Prop :=
  ∀ x ∈ s.place.backups, s.content x = .abandoned →
    x ∈ s₀.place.backups ∧ s₀.content x = .abandoned

/-- What a snapshot does before it is complete concerns its own file only, and when it fails nothing
of that is listed. -/
def Withdrawn (s : Backups) : Action → Backups → Prop
  | .turn i _, t =>
    match s.calls[i]?, t.calls[i]? with
    | some (.checking _ _), _ => t.place.backups = s.place.backups
    | some (.vacuuming _ _), some .returned => t.place.backups = s.place.backups
    | some (.vacuuming now _), _ => ∀ x, x ≠ formatBackupFilename now →
      (x ∈ t.place.backups ↔ x ∈ s.place.backups)
    | some (.writing now _), some .returned => ∀ x, x ∈ t.place.backups ↔
      x ∈ s.place.backups ∧ ¬ (x = formatBackupFilename now ∧ s.content x = .writing i)
    | _, _ => True
  | _, _ => True

/-- A prune that lists more snapshots than it keeps has a complete one among those it keeps, and a
statement that does not return leaves no file. -/
def Sound (s : Backups) : Action → Prop
  | .turn i answer =>
    match s.calls[i]? with
    | some (.pruning keep) =>
      max keep 1 < s.place.backups.length →
        ∃ x ∈ s.place.backups, s.content x = .complete ∧ above s.place.backups x < max keep 1
    | some (.writing _ _) => answer.vacuum ≠ .failed true
    | _ => True
  | _ => True

instance (s : Backups) : (a : Action) → Decidable (Sound s a)
  | .turn i answer =>
    match h : s.calls[i]? with
    | some (.pruning keep) => decidable_of_iff
        (max keep 1 < s.place.backups.length →
          ∃ x ∈ s.place.backups, s.content x = .complete ∧ above s.place.backups x < max keep 1)
        (by simp only [Sound, h])
    | some (.writing _ _) => decidable_of_iff (answer.vacuum ≠ .failed true)
        (by simp only [Sound, h])
    | none | some (.checking _ _) | some (.vacuuming _ _) | some (.removing _) | some .returned =>
      .isTrue (by simp only [Sound, h])
  | .snapshotNow _ _ | .pruneBackups _ => .isTrue trivial

/-- A complete snapshot that no prune is about to remove: its name is above those still to be
removed. -/
structure Guard (s : Backups) (x : FileName) : Prop where
  listed : x ∈ s.place.backups
  complete : s.content x = .complete
  spared : ∀ call ∈ s.calls, ∀ y ∈ call.excess, y < x

/-- No snapshot has been completed, and nothing has been or is to be removed. -/
structure Fresh (s : Backups) : Prop where
  untaken : s.taken = false
  idle : ∀ call ∈ s.calls, call.excess = []
  written : ∀ i now keep, s.calls[i]? = some (.writing now keep) →
    formatBackupFilename now ∈ s.place.backups ∧ s.content (formatBackupFilename now) = .writing i

/-- The invariant: a complete snapshot is there to stay, or none has been completed. -/
def Inv (s : Backups) : Prop := (∃ x, Guard s x) ∨ Fresh s

theorem Inv.kept {s : Backups} (h : Inv s) : Kept s := by
  intro h_taken
  rcases h with ⟨x, h_guard⟩ | h_fresh
  · exact ⟨x, h_guard.listed, h_guard.complete⟩
  · rw [h_fresh.untaken] at h_taken
    exact nomatch h_taken

theorem Inv.initial {s : Backups} (h_calls : s.calls = []) (h_kept : Kept s) : Inv s := by
  cases h_taken : s.taken with
  | true =>
    obtain ⟨x, h_x, h_complete⟩ := h_kept h_taken
    refine Or.inl ⟨x, h_x, h_complete, ?_⟩
    rw [h_calls]
    exact fun _ h_call => nomatch h_call
  | false =>
    refine Or.inr ⟨h_taken, ?_, ?_⟩
    · rw [h_calls]
      exact fun _ h_call => nomatch h_call
    · intro i now keep h_call
      rw [h_calls] at h_call
      exact nomatch h_call

/-- A new call has nothing to remove, and writes nothing yet. -/
theorem Inv.call {s : Backups} (h : Inv s) {call : Call} (h_excess : call.excess = [])
    (h_writing : ∀ now keep, call ≠ .writing now keep) :
    Inv { s with calls := s.calls ++ [call] } := by
  -- on either side of the invariant the new call has nothing to remove and no file of its own
  rcases h with ⟨x, h_guard⟩ | h_fresh
  · refine Or.inl ⟨x, h_guard.listed, h_guard.complete, ?_⟩
    rw [List.forall_mem_append, List.forall_mem_singleton, h_excess]
    exact ⟨h_guard.spared, fun _ h_y => nomatch h_y⟩
  · refine Or.inr ⟨h_fresh.untaken, ?_, ?_⟩
    · rw [List.forall_mem_append, List.forall_mem_singleton]
      exact ⟨h_fresh.idle, h_excess⟩
    · intro i now keep h_call
      change (s.calls ++ [call])[i]? = _ at h_call
      -- it cannot be one of those that are writing
      rw [List.getElem?_append] at h_call
      split at h_call
      · exact h_fresh.written i now keep h_call
      · exact absurd (List.mem_singleton.mp (List.mem_of_getElem? h_call)).symm (h_writing now keep)

/-! ### One step -/

theorem backups_of_names {place place' : BackupDir} (h : place.names = place'.names) :
    place.backups = place'.backups := by
  unfold BackupDir.backups
  rw [h]

theorem mem_backups_remove {place : BackupDir} {x name : FileName} :
    x ∈ (place.remove name).backups ↔ x ∈ place.backups ∧ x ≠ name := by
  rw [BackupDir.mem_backups_iff, BackupDir.mem_backups_iff, BackupDir.mem_remove_iff]
  exact and_right_comm

theorem mem_backups_add {d : Directory} {now : OffsetDateTime} {x : FileName}
    (h : formatBackupFilename now ∉ d.names) :
    x ∈ (BackupDir.dir (d.add (formatBackupFilename now))).backups ↔
      x = formatBackupFilename now ∨ x ∈ (BackupDir.dir d).backups := by
  unfold BackupDir.backups
  rw [show (BackupDir.dir (d.add (formatBackupFilename now))).names = _ from Directory.names_add h,
    List.filter_cons_of_pos (isBackupName_formatBackupFilename now), List.mem_cons]
  rfl

section Turn

variable {answer : Answer} {s : Backups} {i : ℕ} {call call' : Call} {after : BackupSet}

theorem Guard.turn {x : FileName} (h_listed : x ∈ after.place.backups)
    (h_complete : after.content x = .complete)
    (h_calls : ∀ call ∈ s.calls, ∀ y ∈ call.excess, y < x) (h_call : ∀ y ∈ call'.excess, y < x) :
    Inv { toBackupSet := after, calls := s.calls.set i call' } := by
  refine Or.inl ⟨x, h_listed, h_complete, ?_⟩
  intro call h_mem
  rcases List.mem_or_eq_of_mem_set h_mem with h_old | rfl
  · exact h_calls call h_old
  · exact h_call

theorem Fresh.turn (h : Fresh s) (h_taken : after.taken = false) (h_excess : call'.excess = [])
    (h_writing : ∀ now keep, call' = .writing now keep →
      formatBackupFilename now ∈ after.place.backups ∧
        after.content (formatBackupFilename now) = .writing i)
    (h_others : ∀ j now keep, i ≠ j → s.calls[j]? = some (.writing now keep) →
      formatBackupFilename now ∈ after.place.backups ∧
        after.content (formatBackupFilename now) = .writing j) :
    Inv { toBackupSet := after, calls := s.calls.set i call' } := by
  -- no file was taken yet, so every call that writes still owns the file it writes to
  refine Or.inr ⟨h_taken, ?_, ?_⟩
  · intro call h_mem
    rcases List.mem_or_eq_of_mem_set h_mem with h_old | rfl
    · exact h.idle call h_old
    · exact h_excess
  · intro j now keep h_j
    -- the call that moved has its own premise; the others keep theirs
    rcases eq_or_ne i j with rfl | h_ne
    · have h_eq : call' = .writing now keep := by
        have h_lt := (List.getElem?_eq_some_iff.mp h_j).1
        rw [List.length_set] at h_lt
        rw [show (s.calls.set i call')[i]? = some call' from List.getElem?_set_self h_lt] at h_j
        exact Option.some.inj h_j
      exact h_writing now keep h_eq
    · rw [show (s.calls.set i call')[j]? = s.calls[j]? from List.getElem?_set_ne h_ne] at h_j
      exact h_others j now keep h_ne h_j

/-- What a prune has found in excess is below a complete snapshot, if it has found anything. -/
theorem Sound.lists {keep : ℕ} {excess : List FileName} (h : Sound s (.turn i answer))
    (h_call : s.calls[i]? = some (.pruning keep))
    (h_excess : ∀ x ∈ excess, x ∈ s.place.backups ∧ max keep 1 ≤ above s.place.backups x) :
    excess = [] ∨ ∃ x ∈ s.place.backups, s.content x = .complete ∧ ∀ y ∈ excess, y < x := by
  cases excess with
  | nil => exact Or.inl rfl
  | cons y ys =>
    have h_more : max keep 1 < s.place.backups.length := by
      obtain ⟨h_y, h_above⟩ := h_excess y List.mem_cons_self
      exact h_above.trans_lt (above_lt_length h_y)
    simp only [Sound, h_call] at h
    obtain ⟨x, h_x, h_complete, h_few⟩ := h h_more
    exact Or.inr ⟨x, h_x, h_complete,
      fun z h_z => lt_of_above_lt (h_few.trans_le (h_excess z h_z).2)⟩

theorem Guard.step {x : FileName} (h : Guard s x) (h_call : s.calls[i]? = some call)
    (h_effect : Effect answer i s.toBackupSet call after call') (h_sound : Sound s (.turn i answer)) :
    Inv { toBackupSet := after, calls := s.calls.set i call' } := by
  have h_none : ∀ y ∈ ([] : List FileName), y < x := fun _ h_y => nomatch h_y
  have h_names : x ∈ s.place.names := (BackupDir.mem_backups_iff.mp h.listed).1
  -- the complete snapshot is not one that is being written
  have h_ne : ∀ now, s.content (formatBackupFilename now) = .writing i →
      x ≠ formatBackupFilename now := by
    rintro now h_writing rfl
    rw [h.complete] at h_writing
    exact nomatch h_writing
  cases h_effect with
  | returns _ => exact Guard.turn h.listed h.complete h.spared h_none
  | makesDir h_same =>
    refine Guard.turn ?_ h.complete h.spared h_none
    rw [backups_of_names h_same]
    exact h.listed
  | @begins now keep d h_place h_new =>
    -- nor the one of a new name
    rw [h_place] at h_names
    have h_x : x ≠ formatBackupFilename now := fun h_eq => h_new (h_eq ▸ h_names)
    refine Guard.turn ?_ ?_ h.spared h_none
    · rw [mem_backups_add h_new, ← h_place]
      exact Or.inr h.listed
    · exact (Function.update_of_ne h_x ..).trans h.complete
  | @completes now keep h_writing =>
    refine Guard.turn h.listed ?_ h.spared h_none
    exact (Function.update_of_ne (h_ne now h_writing) ..).trans h.complete
  | unlinked _ => exact Guard.turn h.listed h.complete h.spared h_none
  | @abandons now keep _ h_writing =>
    refine Guard.turn h.listed ?_ h.spared h_none
    exact (Function.update_of_ne (h_ne now h_writing) ..).trans h.complete
  | @withdraws now keep h_writing =>
    refine Guard.turn ?_ h.complete h.spared h_none
    exact mem_backups_remove.mpr ⟨h.listed, h_ne now h_writing⟩
  | @lists keep excess h_excess =>
    rcases h_sound.lists h_call h_excess with rfl | ⟨z, h_z, h_complete, h_below⟩
    · exact Guard.turn h.listed h.complete h.spared h_none
    · -- the greater of the two is above everything that is to be removed
      rcases le_total x z with h_le | h_le
      · exact Guard.turn h_z h_complete
          (fun call h_mem y h_y => (h.spared call h_mem y h_y).trans_le h_le) h_below
      · exact Guard.turn h.listed h.complete h.spared fun y h_y => (h_below y h_y).trans_le h_le
  | @removes name excess =>
    have h_below := h.spared _ (List.mem_of_getElem? h_call)
    refine Guard.turn ?_ h.complete h.spared fun y h_y => h_below y (List.mem_cons_of_mem _ h_y)
    exact mem_backups_remove.mpr ⟨h.listed, (h_below name List.mem_cons_self).ne'⟩

theorem Fresh.step (h : Fresh s) (h_call : s.calls[i]? = some call)
    (h_effect : Effect answer i s.toBackupSet call after call') (h_sound : Sound s (.turn i answer)) :
    Inv { toBackupSet := after, calls := s.calls.set i call' } := by
  have h_spared : ∀ x, ∀ call ∈ s.calls, ∀ y ∈ call.excess, y < x := by
    intro x call h_mem y h_y
    rw [h.idle call h_mem] at h_y
    exact nomatch h_y
  have h_others : ∀ j now keep, i ≠ j → s.calls[j]? = some (.writing now keep) →
      formatBackupFilename now ∈ s.place.backups ∧
        s.content (formatBackupFilename now) = .writing j := fun j now keep _ => h.written j now keep
  -- two statements do not write one file
  have h_ne : ∀ {j now now'}, i ≠ j → s.content (formatBackupFilename now) = .writing i →
      s.content (formatBackupFilename now') = .writing j →
        formatBackupFilename now' ≠ formatBackupFilename now := by
    intro j now now' h_ij h_i h_j h_eq
    rw [h_eq, h_i] at h_j
    exact h_ij (Content.writing.inj h_j)
  cases h_effect with
  | returns _ => exact h.turn h.untaken rfl (fun _ _ h_eq => nomatch h_eq) h_others
  | makesDir h_same =>
    refine h.turn h.untaken rfl (fun _ _ h_eq => nomatch h_eq) ?_
    rw [backups_of_names h_same]
    exact h_others
  | @begins now keep d h_place h_new =>
    refine h.turn h.untaken rfl ?_ ?_
    · rintro _ _ ⟨⟩
      exact ⟨(mem_backups_add h_new).mpr (Or.inl rfl), Function.update_self ..⟩
    · intro j now' keep' h_ij h_j
      obtain ⟨h_listed, h_content⟩ := h.written j now' keep' h_j
      rw [h_place] at h_listed
      have h_other : formatBackupFilename now' ≠ formatBackupFilename now :=
        fun h_eq => h_new (h_eq ▸ (BackupDir.mem_backups_iff.mp h_listed).1)
      refine ⟨(mem_backups_add h_new).mpr (Or.inr h_listed), ?_⟩
      exact (Function.update_of_ne h_other ..).trans h_content
  | @completes now keep _ =>
    -- the first complete snapshot, and no prune knows of it
    exact Guard.turn (h.written i now keep h_call).1 (Function.update_self ..) (h_spared _)
      fun _ h_y => nomatch h_y
  | @unlinked now keep h_unlinked => exact absurd (h.written i now keep h_call).2 h_unlinked
  | @abandons now keep _ h_writing =>
    refine h.turn h.untaken rfl (fun _ _ h_eq => nomatch h_eq) ?_
    intro j now' keep' h_ij h_j
    obtain ⟨h_listed, h_content⟩ := h.written j now' keep' h_j
    refine ⟨h_listed, ?_⟩
    exact (Function.update_of_ne (h_ne h_ij h_writing h_content) ..).trans h_content
  | @withdraws now keep h_writing =>
    refine h.turn h.untaken rfl (fun _ _ h_eq => nomatch h_eq) ?_
    intro j now' keep' h_ij h_j
    obtain ⟨h_listed, h_content⟩ := h.written j now' keep' h_j
    exact ⟨mem_backups_remove.mpr ⟨h_listed, h_ne h_ij h_writing h_content⟩, h_content⟩
  | @lists keep excess h_excess =>
    -- a prune that finds too many files finds a complete one as well
    rcases h_sound.lists h_call h_excess with rfl | ⟨z, h_z, h_complete, h_below⟩
    · exact h.turn h.untaken rfl (fun _ _ h_eq => nomatch h_eq) h_others
    · exact Guard.turn h_z h_complete (h_spared z) h_below
  | @removes name excess => exact nomatch h.idle _ (List.mem_of_getElem? h_call)

theorem Inv.step (h : Inv s) (h_call : s.calls[i]? = some call)
    (h_effect : Effect answer i s.toBackupSet call after call') (h_sound : Sound s (.turn i answer)) :
    Inv { toBackupSet := after, calls := s.calls.set i call' } := by
  rcases h with ⟨x, h_guard⟩ | h_fresh
  · exact h_guard.step h_call h_effect h_sound
  · exact h_fresh.step h_call h_effect h_sound

theorem abandoned_of_update {content : FileName → Content} {name x : FileName} {new : Content}
    (h : Function.update content name new x = .abandoned) (h_new : new ≠ .abandoned) :
    x ≠ name ∧ content x = .abandoned := by
  rcases eq_or_ne x name with rfl | h_ne
  · rw [Function.update_self] at h
    exact absurd h h_new
  · rw [Function.update_of_ne h_ne] at h
    exact ⟨h_ne, h⟩

/-- A step lists no file that is abandoned and was not before. -/
theorem Unlittered.step {s₀ : Backups} {calls : List Call} (h : Unlittered s₀ s)
    (h_call : s.calls[i]? = some call) (h_effect : Effect answer i s.toBackupSet call after call')
    (h_sound : Sound s (.turn i answer)) :
    Unlittered s₀ { toBackupSet := after, calls := calls } := by
  -- an abandoned file is either an old one or the step just abandoned it
  intro x h_x h_abandoned
  cases h_effect with
  | returns _ | unlinked _ | lists _ => exact h x h_x h_abandoned
  -- a new directory is empty
  | makesDir h_same =>
    change x ∈ (BackupDir.dir _).backups at h_x
    rw [backups_of_names h_same] at h_x
    exact h x h_x h_abandoned
  | @begins now keep d h_place h_new =>
    -- the file that was begun is being written, so it is not the abandoned one
    obtain ⟨h_ne, h_old⟩ := abandoned_of_update h_abandoned nofun
    refine h x ?_ h_old
    rw [h_place]
    exact ((mem_backups_add h_new).mp h_x).resolve_left h_ne
  | completes _ => exact h x h_x (abandoned_of_update h_abandoned nofun).2
  -- the only step that abandons a file is a failing VACUUM, which is excluded here
  | @abandons now keep h_vacuum _ =>
    simp only [Sound, h_call] at h_sound
    exact absurd h_vacuum h_sound
  -- an unlinked file is no longer listed
  | withdraws _ | removes => exact h x (mem_backups_remove.mp h_x).1 h_abandoned

theorem withdrawn_turn (h_call : s.calls[i]? = some call)
    (h_effect : Effect answer i s.toBackupSet call after call') (h_sound : Sound s (.turn i answer)) :
    Withdrawn s (.turn i answer) { toBackupSet := after, calls := s.calls.set i call' } := by
  -- the call is at its position again after the turn
  have h_set : (s.calls.set i call')[i]? = some call' :=
    List.getElem?_set_self (List.getElem?_eq_some_iff.mp h_call).1
  simp only [Withdrawn, h_call, h_set]
  cases h_effect with
  | @returns call h_not =>
    -- a call that returns has left the directory as it was
    cases call with
    | checking now keep | vacuuming now keep => rfl
    | writing now keep =>
      intro x
      refine (and_iff_left ?_).symm
      rintro ⟨rfl, h_writing⟩
      exact h_not now keep rfl h_writing
    | pruning | removing | returned => trivial
  | makesDir h_same => exact backups_of_names h_same
  | @begins now keep d h_place h_new =>
    intro x h_ne
    rw [h_place]
    -- the name that was added is the call's own
    exact (mem_backups_add h_new).trans (or_iff_right h_ne)
  | completes _ | unlinked _ | lists _ | removes => trivial
  | abandons h_vacuum _ =>
    simp only [Sound, h_call] at h_sound
    exact absurd h_vacuum h_sound
  -- the snapshot that is withdrawn is the one this call was writing
  | @withdraws now keep h_writing =>
    intro x
    refine mem_backups_remove.trans (and_congr_right fun _ => not_congr ?_)
    exact ⟨fun h_eq => ⟨h_eq, h_eq ▸ h_writing⟩, fun h_both => h_both.1⟩

end Turn

/-! ### Runs -/

section Runs

variable {parseStamp : List Char → Option OffsetDateTime} {s₀ s t : Backups} {a : Action}

/-- What one step preserves. -/
theorem Inv.next (h : Inv s) (h_step : Step parseStamp s a t) (h_sound : Sound s a) : Inv t := by
  rw [show t = _ from h_step]
  rcases next_cases parseStamp s a with ⟨call, h_excess, h_writing, _, h_next⟩ |
    ⟨_, _, _, _, h_next⟩ | ⟨i, answer, call, after, call', rfl, h_call, h_effect, h_next⟩
  all_goals rw [h_next]
  · exact h.call h_excess h_writing
  · exact h
  · exact h.step h_call h_effect h_sound

theorem Unlittered.next (h : Unlittered s₀ s) (h_step : Step parseStamp s a t) (h_sound : Sound s a) :
    Unlittered s₀ t := by
  rw [show t = _ from h_step]
  rcases next_cases parseStamp s a with ⟨call, _, _, _, h_next⟩ |
    ⟨_, _, _, _, h_next⟩ | ⟨i, answer, call, after, call', rfl, h_call, h_effect, h_next⟩
  all_goals rw [h_next]
  · exact h
  · exact h
  · exact h.step h_call h_effect h_sound

theorem withdrawn (h_step : Step parseStamp s a t) (h_sound : Sound s a) : Withdrawn s a t := by
  rw [show t = _ from h_step]
  rcases next_cases parseStamp s a with ⟨call, _, _, h_a, h_next⟩ |
    ⟨i, answer, rfl, h_none, h_next⟩ | ⟨i, answer, call, after, call', rfl, h_call, h_effect, h_next⟩
  · cases a with
    | turn i answer => exact absurd rfl (h_a i answer)
    | snapshotNow | pruneBackups => trivial
  · simp only [Withdrawn, h_none]
  · rw [h_next]
    exact withdrawn_turn h_call h_effect h_sound

/-- Turns of one call only. -/
def alone (parseStamp : List Char → Option OffsetDateTime) (s : Backups) (i : ℕ) (answer : Answer)
    (n : ℕ) : Backups :=
  final s (follow (next parseStamp) s (List.replicate n (.turn i answer)))

theorem alone_succ {i : ℕ} {call : Call} (h_call : s.calls[i]? = some call) (answer : Answer) (n : ℕ) :
    alone parseStamp s i answer (n + 1) =
      alone parseStamp
        { toBackupSet := (call.turn parseStamp answer i s.toBackupSet).1
          calls := s.calls.set i (call.turn parseStamp answer i s.toBackupSet).2 } i answer n := by
  unfold alone
  rw [List.replicate_succ]
  show final (next parseStamp s (.turn i answer)) _ = _
  unfold next
  simp only [h_call]

/-- The loop of a prune, alone. -/
theorem removeAll_alone {i : ℕ} (answer : Answer) (entries : List BackupEntry)
    (h_call : s.calls[i]? = some (.removing (entries.map (·.name)))) :
    ∃ n, (alone parseStamp s i answer n).place = (removeAll answer.io entries s.place).2 ∧
      (alone parseStamp s i answer n).content = s.content := by
  -- induction on the entries: each turn of the call removes one of them
  induction entries generalizing s with
  | nil => exact ⟨0, rfl, rfl⟩
  | cons entry entries ih =>
    unfold removeAll
    have h_lt := (List.getElem?_eq_some_iff.mp h_call).1
    -- an unlink that failed stops the loop in both
    cases h_removal : answer.io.removeFile entry.name with
    | failed => exact ⟨0, rfl, rfl⟩
    -- a file that is already gone counts as removed, as in the source
    | removed | missing =>
      let s' : Backups :=
        { toBackupSet := { s.toBackupSet with place := s.place.remove entry.name }
          calls := s.calls.set i (.removing (entries.map (·.name))) }
      obtain ⟨n, h_place, h_content⟩ := ih (s := s') (List.getElem?_set_self h_lt)
      have h_first : alone parseStamp s i answer (n + 1) = alone parseStamp s' i answer n := by
        rw [alone_succ h_call]
        simp only [List.map_cons, Call.turn, h_removal]
        rfl
      exact ⟨n + 1, by rw [h_first]; exact h_place, by rw [h_first]; exact h_content⟩

/-- **A prune that runs alone** does what `prune_backups` says. -/
theorem prune_alone {i keep : ℕ} (answer : Answer) (h_call : s.calls[i]? = some (.pruning keep)) :
    ∃ n, (alone parseStamp s i answer n).place =
        (pruneBackups parseStamp answer.io s.place keep).2 ∧
      (alone parseStamp s i answer n).content = s.content := by
  have h_lt := (List.getElem?_eq_some_iff.mp h_call).1
  unfold pruneBackups
  cases h_list : listBackups parseStamp answer.io s.place with
  | error e => exact ⟨0, rfl, rfl⟩
  | ok entries =>
    -- with few enough entries neither removes anything
    by_cases h_few : entries.length ≤ max keep 1
    · refine ⟨0, ?_, rfl⟩
      show s.place = (if entries.length ≤ max keep 1 then _ else _ : _ × _).2
      rw [if_pos h_few]
    · -- one turn lists and decides; the rest is the loop above
      let s' : Backups :=
        { s with calls := s.calls.set i (.removing (excessOf entries keep)) }
      obtain ⟨n, h_place, h_content⟩ : ∃ n, (alone parseStamp s' i answer n).place = _ ∧
          (alone parseStamp s' i answer n).content = s'.content :=
        removeAll_alone answer (entries.drop (max keep 1)) (List.getElem?_set_self h_lt)
      have h_first : alone parseStamp s i answer (n + 1) = alone parseStamp s' i answer n := by
        rw [alone_succ h_call]
        simp only [Call.turn, h_list]
        rfl
      refine ⟨n + 1, ?_, by rw [h_first]; exact h_content⟩
      show _ = (if entries.length ≤ max keep 1 then _ else _ : _ × _).2
      rw [h_first, if_neg h_few]
      exact h_place

/-- **The condition on prunes is needed.** A prune that finds more snapshots than it keeps, and no
complete one among those it keeps, leaves no complete snapshot if it runs alone and nothing fails. -/
theorem lost_alone {i keep : ℕ} {answer : Answer} (h_call : s.calls[i]? = some (.pruning keep))
    (h_lists : Lists answer.io s.place) (h_removes : ∀ x, answer.io.removes x = true)
    (h : ¬ Sound s (.turn i answer)) :
    ∃ n, ∀ x ∈ (alone parseStamp s i answer n).place.backups,
      (alone parseStamp s i answer n).content x ≠ .complete := by
  obtain ⟨n, h_place, h_content⟩ : ∃ n, (alone parseStamp s i answer n).place = _ ∧
      (alone parseStamp s i answer n).content = s.content := prune_alone answer h_call
  refine ⟨n, fun x h_x h_complete => h ?_⟩
  rw [h_place, BackupDir.mem_backups_iff, mem_pruneBackups_iff] at h_x
  rw [h_content] at h_complete
  obtain ⟨⟨h_names, h_kept⟩, h_name⟩ := h_x
  have h_listed : x ∈ s.place.backups := BackupDir.mem_backups_iff.mpr ⟨h_names, h_name⟩
  -- it has been kept for its place
  have h_few : above s.place.backups x < max keep 1 := by
    by_contra h_many
    exact h_kept ⟨h_lists, h_listed, not_lt.mp h_many, fun y _ _ _ => h_removes y⟩
  simp only [Sound, h_call]
  exact fun _ => ⟨x, h_listed, h_complete, h_few⟩

end Runs

/-- **A complete snapshot is kept**, whatever calls are made, in whatever order they take their steps
and whatever fails, in a run in which every prune that lists more snapshots than it keeps has a
complete one among those it keeps, and no statement that fails leaves a file. In such a run a snapshot
that fails does not change what is listed, either. -/
theorem backupSet_kept (parseStamp : List Char → Option OffsetDateTime) {s₀ : Backups}
    {tr : List (Action × Backups)} (h_calls : s₀.calls = []) (h_kept : Kept s₀)
    (hrun : IsRun (Step parseStamp) s₀ tr) (h_sound : ∀ x ∈ steps s₀ tr, Sound x.1 x.2.1) :
    (∀ s ∈ states s₀ tr, Kept s ∧ Unlittered s₀ s) ∧
      ∀ x ∈ steps s₀ tr, Withdrawn x.1 x.2.1 x.2.2 := by
  have h_inv := hrun.invariant_of_steps (fun s => Inv s ∧ Unlittered s₀ s) Sound
    (fun _ _ _ h_step h_ok h => ⟨h.1.next h_step h_ok, h.2.next h_step h_ok⟩) h_sound
    ⟨.initial h_calls h_kept, fun _ h_x h_abandoned => ⟨h_x, h_abandoned⟩⟩
  refine ⟨fun s h_s => ⟨(h_inv s h_s).1.kept, (h_inv s h_s).2⟩, ?_⟩
  exact fun x h_x => withdrawn (hrun.step_of_mem x h_x) (h_sound x h_x)

/-- The second after. -/
def april23Later : OffsetDateTime where
  unixNanos := 1776953133 * Calendar.nanosPerSecond
  inRange := by decide

/-- A place without snapshots. -/
def unused : Backups where
  place := .missing
  content _ := .complete
  taken := false

/-- What a step is answered when nothing fails. -/
def Answer.sound : Answer := ⟨.sound, .written⟩

/-- Two snapshots, the second of which prunes to one. -/
def twoSnapshots : List (Action × Backups) :=
  follow (next parseApril23) unused
    (.snapshotNow april23 1 :: List.replicate 5 (.turn 0 .sound) ++
      .snapshotNow april23Later 1 :: List.replicate 6 (.turn 1 .sound))

/-- The rule on them. -/
theorem backupSet_kept_twoSnapshots :
    (∀ x ∈ steps unused twoSnapshots, Sound x.1 x.2.1) ∧
      (final unused twoSnapshots).place.backups = [formatBackupFilename april23Later] ∧
      ((∀ s ∈ states unused twoSnapshots, Kept s ∧ Unlittered unused s) ∧
        ∀ x ∈ steps unused twoSnapshots, Withdrawn x.1 x.2.1 x.2.2) := by
  have h_sound : ∀ x ∈ steps unused twoSnapshots, Sound x.1 x.2.1 := by decide +kernel
  exact ⟨h_sound, by decide +kernel,
    backupSet_kept parseApril23 rfl nofun (isRun_follow (next parseApril23) unused _) h_sound⟩

/-- A snapshot is complete; while the next one is being written, a prune keeps only that. -/
def prunedTooEarly : List (Action × Backups) :=
  follow (next parseApril23) unused
    (.snapshotNow april23 1 :: List.replicate 5 (.turn 0 .sound) ++
      .snapshotNow april23Later 1 :: List.replicate 2 (.turn 1 .sound) ++
      .pruneBackups 1 :: List.replicate 2 (.turn 2 .sound))

/-- A snapshot that fails and leaves its file. -/
def leftBehind : List (Action × Backups) :=
  follow (next parseApril23) unused
    (.snapshotNow april23 1 :: List.replicate 3 (.turn 0 ⟨.sound, .failed true⟩))

/-- Neither holds of every run. -/
theorem not_backupSet_kept :
    ¬ (∀ tr, IsRun (Step parseApril23) unused tr → ∀ s ∈ states unused tr, Kept s) ∧
      ¬ ∀ tr, IsRun (Step parseApril23) unused tr →
        ∀ s ∈ states unused tr, Unlittered unused s := by
  refine ⟨?_, ?_⟩
  · -- a prune that counts a file still being written removes an older complete one
    intro h_all
    have h_last := h_all prunedTooEarly (isRun_follow (next parseApril23) unused _)
    revert h_last
    unfold Kept
    decide +kernel
  · -- a VACUUM that fails after opening its output leaves its file in place
    intro h_all
    have h_last := h_all leftBehind (isRun_follow (next parseApril23) unused _)
    revert h_last
    unfold Unlittered
    decide +kernel

end Backup

end Ludex
