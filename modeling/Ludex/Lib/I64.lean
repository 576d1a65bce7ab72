import Mathlib.Algebra.Order.Ring.Int
import Mathlib.Tactic.Common

/-!
# The arithmetic of `i64`

The operations of a signed 64-bit integer, on integers: those that stop at the ends of the range
(`saturatingAdd`, `ofU64`) and those that have no result outside of it (`checkedSub`, `clamp`).

A sum that saturates at each addition (`saturatingSum`) is monotone, and it is the sum itself as far as
that is in range (`saturatingSum_bounds`).
-/

namespace I64

/-- `i64::MAX`. -/
def maxValue : ℤ := 2 ^ 63 - 1

/-- `i64::saturating_add`. -/
def saturatingAdd (a b : ℤ) : ℤ := max (-2 ^ 63) (min maxValue (a + b))

/-- `i64::try_from(n).unwrap_or(i64::MAX)`, of a `u64`. -/
def ofU64 (n : ℕ) : ℤ := if n < 2 ^ 63 then n else maxValue

/-- A non-negative `i64`. -/
def NonNeg (x : ℤ) : Prop := 0 ≤ x ∧ x ≤ maxValue

instance (x : ℤ) : Decidable (NonNeg x) := inferInstanceAs (Decidable (_ ∧ _))

/-- `a - b`, if it is an `i64`. -/
def checkedSub (a b : ℤ) : Option ℤ :=
  if -2 ^ 63 ≤ a - b ∧ a - b ≤ maxValue then some (a - b) else none

/-- `i64::clamp`, if the bounds are ordered. -/
def clamp (x lower upper : ℤ) : Option ℤ :=
  if lower ≤ upper then some (max lower (min upper x)) else none

/-- The difference of two non-negative values is one of the type. -/
theorem checkedSub_eq {a b : ℤ} (ha : NonNeg a) (hb : NonNeg b) :
    checkedSub a b = some (a - b) := by
  unfold NonNeg maxValue at ha hb
  unfold checkedSub maxValue
  rw [if_pos (by omega)]

theorem zero_nonNeg : NonNeg 0 := by decide

theorem ofU64_nonNeg (n : ℕ) : NonNeg (ofU64 n) := by
  unfold NonNeg ofU64 maxValue
  split <;> omega

theorem NonNeg.max {a b : ℤ} (ha : NonNeg a) (hb : NonNeg b) : NonNeg (max a b) := by
  unfold NonNeg at *
  omega

/-! ### Saturated sums -/

theorem saturatingAdd_nonNeg {a b : ℤ} (ha : NonNeg a) (hb : 0 ≤ b) :
    NonNeg (saturatingAdd a b) := by
  unfold NonNeg saturatingAdd maxValue at *
  omega

/-- Adding to a saturated sum of non-negative terms saturates the sum with the new term. -/
theorem saturatingAdd_min {a b : ℤ} (ha : 0 ≤ a) (hb : 0 ≤ b) :
    saturatingAdd (min maxValue a) b = min maxValue (a + b) := by
  unfold saturatingAdd maxValue
  omega

/-- The sum of the values, saturated at each addition. -/
def saturatingSum : List ℤ → ℤ
  | [] => 0
  | x :: xs => xs.foldl saturatingAdd x

theorem saturatingAdd_le {a b a' b' : ℤ} (h : a ≤ a') (h' : b ≤ b') :
    saturatingAdd a b ≤ saturatingAdd a' b' := by
  unfold saturatingAdd
  exact max_le_max le_rfl (min_le_min le_rfl (add_le_add h h'))

/-- A saturated sum of lesser values is less. -/
theorem saturatingSum_le {T : Type} {g g' : T → ℤ} {rows : List T}
    (h : ∀ row ∈ rows, g row ≤ g' row) : saturatingSum (rows.map g) ≤ saturatingSum (rows.map g') := by
  cases rows with
  | nil => exact le_rfl
  | cons row rows =>
    obtain ⟨h_row, h_rows⟩ := List.forall_mem_cons.mp h
    show (rows.map g).foldl saturatingAdd (g row) ≤ (rows.map g').foldl saturatingAdd (g' row)
    generalize g row = a at h_row
    generalize g' row = a' at h_row
    induction rows generalizing a a' with
    | nil => exact h_row
    | cons next rows ih =>
      obtain ⟨h_next, h_rest⟩ := List.forall_mem_cons.mp h_rows
      exact ih (List.forall_mem_cons.mpr ⟨h _ List.mem_cons_self, h_rest⟩) h_rest _ _
        (saturatingAdd_le h_row h_next)

/-- Adding non-negative values to a saturated sum of them gives a saturated sum. -/
theorem foldl_saturatingAdd_bounds {xs : List ℤ} (h : ∀ x ∈ xs, 0 ≤ x) {sum acc : ℤ}
    (h_zero : 0 ≤ acc) (h_min : min maxValue sum ≤ acc) (h_max : acc ≤ sum) :
    min maxValue (sum + xs.sum) ≤ xs.foldl saturatingAdd acc ∧
      xs.foldl saturatingAdd acc ≤ sum + xs.sum := by
  induction xs generalizing sum acc with
  | nil =>
    rw [List.sum_nil, add_zero]
    exact ⟨h_min, h_max⟩
  | cons x xs ih =>
    obtain ⟨h_first, h_rest⟩ := List.forall_mem_cons.mp h
    obtain ⟨h_zero', h_min', h_max'⟩ : 0 ≤ saturatingAdd acc x ∧
        min maxValue (sum + x) ≤ saturatingAdd acc x ∧ saturatingAdd acc x ≤ sum + x := by
      unfold saturatingAdd maxValue at *
      omega
    rw [List.sum_cons, ← add_assoc, List.foldl_cons]
    exact ih h_rest h_zero' h_min' h_max'

/-- **A saturated sum of non-negative values** is at most their sum, and is not below it as far as
that is a 64-bit number. -/
theorem saturatingSum_bounds {xs : List ℤ} (h : ∀ x ∈ xs, 0 ≤ x) :
    min maxValue xs.sum ≤ saturatingSum xs ∧ saturatingSum xs ≤ xs.sum := by
  cases xs with
  | nil => exact ⟨min_le_right _ _, le_rfl⟩
  | cons x xs =>
    obtain ⟨h_first, h_rest⟩ := List.forall_mem_cons.mp h
    rw [List.sum_cons]
    exact foldl_saturatingAdd_bounds h_rest h_first (min_le_right _ _) le_rfl

end I64
