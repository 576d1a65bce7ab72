import Mathlib.Data.Finset.Basic
import Mathlib.Data.List.Nodup
import Ludex.Core.Types

/-!
# The table of blocked applications

`repo/blocked.rs`. A table is a list of rows whose keys are distinct, which is its primary key.
-/

namespace Ludex

/-- A row of `blocked_applications`. -/
structure BlockedRow where
  key : GameKey
  addedAt : OffsetDateTime

/-- The table `blocked_applications`. -/
structure BlockedTable where
  rows : List BlockedRow
  unique : (rows.map BlockedRow.key).Nodup

namespace BlockedRepo

/-- Every blocked key. -/
def list (table : BlockedTable) : Finset GameKey := (table.rows.map BlockedRow.key).toFinset

/-- The key has a blocked row. -/
def contains (table : BlockedTable) (key : GameKey) : Bool :=
  table.rows.any fun row => row.key = key

theorem contains_eq_true {table : BlockedTable} {key : GameKey} :
    contains table key = true ↔ key ∈ table.rows.map BlockedRow.key := by
  unfold contains
  rw [List.any_eq_true, List.mem_map]
  simp only [decide_eq_true_iff]

theorem mem_list {table : BlockedTable} {key : GameKey} :
    key ∈ list table ↔ contains table key = true := by
  unfold list
  rw [List.mem_toFinset, contains_eq_true]

/-- `INSERT OR IGNORE`, and whether a row was added. -/
def insert (table : BlockedTable) (key : GameKey) (at_ : OffsetDateTime) : Bool × BlockedTable :=
  if h : contains table key then (false, table)
  else
    (true, {
      rows := table.rows ++ [⟨key, at_⟩]
      unique := by
        rw [List.map_append, List.nodup_append]
        refine ⟨table.unique, List.nodup_singleton _, ?_⟩
        intro key' h_key' new h_new
        rw [List.mem_singleton.mp h_new]
        rintro rfl
        exact h (contains_eq_true.mpr h_key') })

/-- `DELETE`, and whether a row was deleted. -/
def remove (table : BlockedTable) (key : GameKey) : Bool × BlockedTable :=
  (contains table key, {
    rows := table.rows.filter fun row => row.key ≠ key
    unique := table.unique.sublist (List.filter_sublist.map _) })

/-- A row is added for a key that is not blocked. -/
theorem insert_added {table : BlockedTable} {key : GameKey} {at_ : OffsetDateTime} :
    (insert table key at_).1 = true ↔ key ∉ list table := by
  rw [mem_list]
  unfold insert
  split
  · next h => simp [h]
  · next h => simp [h]

/-- A row is deleted for a key that is blocked. -/
theorem remove_deleted {table : BlockedTable} {key : GameKey} :
    (remove table key).1 = true ↔ key ∈ list table := by
  rw [mem_list]
  rfl

theorem list_insert (table : BlockedTable) (key : GameKey) (at_ : OffsetDateTime) :
    list (insert table key at_).2 = Insert.insert key (list table) := by
  ext key'
  unfold insert
  split
  · next h =>
    rw [Finset.insert_eq_of_mem]
    exact List.mem_toFinset.mpr (contains_eq_true.mp h)
  · unfold list
    simp only [List.map_append, List.map_cons, List.map_nil, List.mem_toFinset, List.mem_append,
      List.mem_singleton, Finset.mem_insert]
    exact or_comm

theorem list_remove (table : BlockedTable) (key : GameKey) :
    list (remove table key).2 = (list table).erase key := by
  ext key'
  unfold list remove
  simp only [List.mem_toFinset, Finset.mem_erase, List.mem_map, List.mem_filter, decide_eq_true_iff]
  refine ⟨?_, ?_⟩
  · rintro ⟨row, ⟨h_row, h_ne⟩, rfl⟩
    exact ⟨h_ne, row, h_row, rfl⟩
  · rintro ⟨h_ne, row, h_row, rfl⟩
    exact ⟨row, ⟨h_row, h_ne⟩, rfl⟩

end BlockedRepo

end Ludex
