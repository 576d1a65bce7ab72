import Mathlib.Algebra.BigOperators.Group.List.Basic
import Mathlib.Algebra.Order.Monoid.Canonical.Defs
import Mathlib.Order.MinMax

/-!
# Saturating sums

Addition that stops at a greatest value, `satAdd top`, in an ordered monoid whose elements are all
nonnegative. Saturating on the way is saturating at the end: a fold with it is the sum, cut off once
(`foldl_satAdd`). So the order of the summands does not matter.

`foldl_counter` is about a loop over records of which some carry a summand for one field of its state.
-/

namespace Saturating

variable {α S B : Type} [AddCommMonoid α] [LinearOrder α]

/-- Addition that stops at `top`. -/
def satAdd (top a b : α) : α := min top (a + b)

variable {top : α} {step : S → B → S} {field : S → α} {value : B → Option α}

/-- A field that each record adds its value to, if it has one, is a fold of the values. -/
theorem field_foldl
    (h : ∀ s b, field (step s b) = (value b).elim (field s) (satAdd top (field s))) (bs : List B)
    (s : S) : field (bs.foldl step s) = (bs.filterMap value).foldl (satAdd top) (field s) := by
  induction bs generalizing s with
  | nil => rfl
  | cons b bs ih =>
    rw [List.foldl_cons, ih, h, List.filterMap_cons]
    cases value b with
    | none => rfl
    | some x => rfl

variable [CanonicallyOrderedAdd α]

/-- A summand that is cut off makes no difference to a sum that is cut off. -/
theorem satAdd_min (top a b : α) : satAdd top (min top a) b = min top (a + b) := by
  unfold satAdd
  rcases le_total a top with h | h
  · rw [min_eq_right h]
  · -- both sums are at `top` or above it
    rw [min_eq_left h, min_eq_left le_self_add, min_eq_left (h.trans le_self_add)]

/-- **A saturating fold** is the sum, cut off once. -/
theorem foldl_satAdd (top a : α) (xs : List α) :
    xs.foldl (satAdd top) (min top a) = min top (a + xs.sum) := by
  induction xs generalizing a with
  | nil => rw [List.foldl_nil, List.sum_nil, add_zero]
  | cons x xs ih => rw [List.foldl_cons, satAdd_min, ih, List.sum_cons, add_assoc]

/-- **A counter in a loop** holds the sum of the values, cut off once. -/
theorem foldl_counter
    (h : ∀ s b, field (step s b) = (value b).elim (field s) (satAdd top (field s))) (bs : List B)
    {s : S} {a : α} (h_s : field s = min top a) :
    field (bs.foldl step s) = min top (a + (bs.filterMap value).sum) := by
  rw [field_foldl h, h_s, foldl_satAdd]

end Saturating
