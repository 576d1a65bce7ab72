import Mathlib.Algebra.Order.BigOperators.Group.List
import Mathlib.Algebra.BigOperators.Group.Finset.Piecewise
import Mathlib.Data.List.Dedup
import Ludex.Lib.OrderBy
import Ludex.Lib.Sql

/-!
# `GROUP BY`, and sums that overflow

`groupBy` makes a group for each key that a row has. `mem_groupBy` says what the groups are, and
`pairwise_orderBy_groupBy` that listing them by their keys gives every key once, in order.

`coalesceSum` is the aggregate `SUM` of an `INTEGER` column. It adds up 64-bit integers and raises
an error when a partial sum does not fit. Over numbers that are not negative this is the case if and
only if the total does not fit (`coalesceSum_eq`), so it does not depend on the order of the rows.

`sum_lookup` relates a table of rows that are read by key to the list of the rows: reading all keys
of a list that has those of the rows gives the rows.
-/

namespace Sql

variable {ρ κ τ : Type}

/-! ### Sums -/

/-- The running sum with one more value, `none` when it does not fit. -/
def sumStep (running value : ℤ) : Option ℤ :=
  if FitsInteger (running + value) then some (running + value) else none

/-- `COALESCE(SUM(column), 0)` over the values of an `INTEGER` column without NULLs. `none` is the
error "integer overflow". -/
def coalesceSum (values : List ℤ) : Option ℤ := values.foldlM sumStep 0

theorem foldlM_sumStep {values : List ℤ} (h : ∀ x ∈ values, 0 ≤ x) {running : ℤ}
    (h_running : 0 ≤ running) (h_fits : FitsInteger running) :
    values.foldlM sumStep running =
      if FitsInteger (running + values.sum) then some (running + values.sum) else none := by
  induction values generalizing running with
  | nil => rw [List.foldlM_nil, List.sum_nil, add_zero, if_pos h_fits]; rfl
  | cons value values ih =>
    have h_value := h value List.mem_cons_self
    have h_values : ∀ x ∈ values, 0 ≤ x := fun x hx => h x (List.mem_cons_of_mem _ hx)
    have h_rest : 0 ≤ values.sum := List.sum_nonneg h_values
    rw [List.foldlM_cons, List.sum_cons, ← add_assoc]
    unfold sumStep
    by_cases h_step : FitsInteger (running + value)
    · rw [if_pos h_step]
      exact ih h_values (by omega) h_step
    · -- the later values only make it larger
      have h_total : ¬ FitsInteger (running + value + values.sum) := by
        unfold FitsInteger at h_step ⊢
        omega
      rw [if_neg h_step, if_neg h_total]
      rfl

/-- **A sum of numbers that are not negative** is an error if and only if it does not fit. -/
theorem coalesceSum_eq {values : List ℤ} (h : ∀ x ∈ values, 0 ≤ x) :
    coalesceSum values = if FitsInteger values.sum then some values.sum else none := by
  have h_sum := foldlM_sumStep h le_rfl (show FitsInteger 0 by decide)
  rwa [zero_add] at h_sum

/-- A listing whose rows are computed one after the other, each of which can fail. -/
theorem mapM_eq_ite {α β : Type} {p : α → Prop} [DecidablePred p] {f : α → β} {g : α → Option β}
    {xs : List α} (h : ∀ x ∈ xs, g x = if p x then some (f x) else none) :
    xs.mapM g = if ∀ x ∈ xs, p x then some (xs.map f) else none := by
  -- induction on the list: the first that fails makes the whole fail
  induction xs with
  | nil => rfl
  | cons x xs ih =>
    obtain ⟨h_first, h_rest⟩ := List.forall_mem_cons.mp h
    rw [List.mapM_cons, h_first, ih h_rest]
    by_cases h_x : p x
    · rw [if_pos h_x]
      by_cases h_xs : ∀ y ∈ xs, p y
      · rw [if_pos h_xs, if_pos (List.forall_mem_cons.mpr ⟨h_x, h_xs⟩)]
        rfl
      · rw [if_neg h_xs, if_neg fun h => h_xs (List.forall_mem_cons.mp h).2]
        rfl
    · rw [if_neg h_x, if_neg fun h => h_x (List.forall_mem_cons.mp h).1]
      rfl

/-! ### Groups -/

section Groups

variable [DecidableEq κ] {key : ρ → κ} {rows : List ρ}

/-- `GROUP BY key`: each key that a row has, with its rows. -/
def groupBy (key : ρ → κ) (rows : List ρ) : List (κ × List ρ) :=
  (rows.map key).dedup.map fun k => (k, rows.filter fun r => key r = k)

/-- **The groups.** -/
theorem mem_groupBy {group : κ × List ρ} :
    group ∈ groupBy key rows ↔
      (∃ r ∈ rows, key r = group.1) ∧ group.2 = rows.filter fun r => key r = group.1 := by
  obtain ⟨k, members⟩ := group
  unfold groupBy
  simp only [List.mem_map, List.mem_dedup, Prod.mk.injEq]
  refine ⟨?_, ?_⟩
  · rintro ⟨_, h_row, rfl, rfl⟩
    exact ⟨h_row, rfl⟩
  · rintro ⟨h_row, h_members⟩
    exact ⟨k, h_row, rfl, h_members.symm⟩

theorem exists_groupBy {k : κ} :
    (∃ group ∈ groupBy key rows, group.1 = k) ↔ ∃ r ∈ rows, key r = k := by
  refine ⟨?_, ?_⟩
  · rintro ⟨group, h_group, rfl⟩
    exact (mem_groupBy.mp h_group).1
  · intro h_row
    exact ⟨(k, rows.filter fun r => key r = k), mem_groupBy.mpr ⟨h_row, rfl⟩, rfl⟩

theorem groupBy_keys_nodup : ((groupBy key rows).map Prod.fst).Nodup := by
  have h_keys : (groupBy key rows).map Prod.fst = (rows.map key).dedup := by
    unfold groupBy
    rw [List.map_map]
    exact List.map_id _
  rw [h_keys]
  exact List.nodup_dedup _

end Groups

/-! ### Distinct keys in order -/

section Ordered

variable [LinearOrder τ] {key : ρ → τ} {rows : List ρ}

/-- The order of the values themselves. -/
theorem collation_lt : Collation fun a b : τ => decide (a < b) where
  asymm a b h := decide_eq_false (lt_asymm (of_decide_eq_true h))
  trans a b c h_ab h_bc := by
    rw [decide_eq_false_iff_not, not_lt] at h_ab h_bc ⊢
    exact h_bc.trans h_ab

/-- Rows with distinct keys are listed in strictly increasing order. -/
theorem pairwise_lt_orderBy (h_nodup : (rows.map key).Nodup) :
    (orderBy (fun a b => decide (a < b)) key rows).Pairwise fun a b => key a < key b := by
  have h_sorted : (orderBy (fun a b => decide (a < b)) key rows).Pairwise
      fun a b => decide (key b < key a) = false := collation_lt.pairwise_orderBy
  have h_distinct : (orderBy (fun a b => decide (a < b)) key rows).Pairwise
      fun a b => key a ≠ key b :=
    List.pairwise_map.mp ((orderBy_perm.map key).nodup_iff.mpr h_nodup)
  refine h_sorted.imp₂ (fun a b h_le h_ne => ?_) h_distinct
  exact lt_of_le_of_ne (not_lt.mp (decide_eq_false_iff_not.mp h_le)) h_ne

theorem pairwise_orderBy_groupBy :
    (orderBy (fun a b => decide (a < b)) Prod.fst (groupBy key rows)).Pairwise
      fun a b => a.1 < b.1 :=
  pairwise_lt_orderBy groupBy_keys_nodup

/-- Two listings in strictly increasing order with the same keys, whose rows are a function of
their keys, are the same. -/
theorem eq_of_keys {rows' : List ρ} (row : τ → ρ)
    (h_sorted : rows.Pairwise fun a b => key a < key b)
    (h_sorted' : rows'.Pairwise fun a b => key a < key b)
    (h_keys : ∀ k, (∃ r ∈ rows, key r = k) ↔ ∃ r ∈ rows', key r = k)
    (h_row : ∀ r ∈ rows, r = row (key r)) (h_row' : ∀ r ∈ rows', r = row (key r)) :
    rows = rows' := by
  -- two sorted lists with the same keys have them in the same order
  have h_map : rows.map key = rows'.map key := by
    refine List.SortedLT.eq_of_mem_iff ?_ ?_ ?_
    · exact (List.pairwise_map.mpr h_sorted).sortedLT
    · exact (List.pairwise_map.mpr h_sorted').sortedLT
    · intro k
      rw [List.mem_map, List.mem_map]
      exact h_keys k
  calc
    rows = (rows.map key).map row := by
      rw [List.map_map]
      exact (List.map_id _).symm.trans (List.map_congr_left h_row)
    _ = (rows'.map key).map row := by rw [h_map]
    _ = rows' := by
      rw [List.map_map]
      exact ((List.map_id _).symm.trans (List.map_congr_left h_row')).symm

end Ordered

/-! ### Reading rows by their keys -/

section Lookup

variable [DecidableEq κ] {key : ρ → κ} {rows : List ρ}

/-- A sum over distinct keys in which only one key counts. -/
theorem sum_map_single {keys : List κ} (h_nodup : keys.Nodup) {k : κ} (h_mem : k ∈ keys) (x : ℤ) :
    (keys.map fun k' => if k = k' then x else 0).sum = x := by
  rw [← List.sum_toFinset _ h_nodup, Finset.sum_ite_eq, if_pos (List.mem_toFinset.mpr h_mem)]

/-- **Reading all keys** of a list that has those of the rows adds up the rows. -/
theorem sum_lookup {keys : List κ} (h_rows : (rows.map key).Nodup) (h_keys : keys.Nodup)
    (h_mem : ∀ r ∈ rows, key r ∈ keys) (f : ρ → ℤ) :
    (keys.map fun k => ((rows.find? fun r => key r = k).map f).getD 0).sum = (rows.map f).sum := by
  induction rows with
  | nil =>
    rw [List.map_nil, List.sum_nil]
    exact List.sum_eq_zero (List.forall_mem_map.mpr fun _ _ => rfl)
  | cons r rows ih =>
    obtain ⟨h_new, h_rest⟩ := List.nodup_cons.mp h_rows
    obtain ⟨h_r, h_mem⟩ := List.forall_mem_cons.mp h_mem
    -- the first row has its key for itself
    have h_value : ∀ k, (((r :: rows).find? fun r => key r = k).map f).getD 0 =
        (if key r = k then f r else 0) + ((rows.find? fun r => key r = k).map f).getD 0 := by
      intro k
      by_cases h_k : key r = k
      · have h_none : rows.find? (fun r => key r = k) = none := by
          refine List.find?_eq_none.mpr fun r' hr' h_eq => h_new ?_
          rw [h_k, ← of_decide_eq_true h_eq]
          exact List.mem_map_of_mem hr'
        simp [h_k, h_none]
      · simp [h_k]
    simp only [h_value]
    rw [List.sum_map_add, sum_map_single h_keys h_r, ih h_rest h_mem, List.map_cons, List.sum_cons]

end Lookup

end Sql
