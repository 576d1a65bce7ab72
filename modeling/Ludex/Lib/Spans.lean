import Mathlib.Algebra.BigOperators.Group.Finset.Basic
import Mathlib.Algebra.Order.Group.Defs
import Mathlib.Order.Interval.Set.LinearOrder

/-!
# Spans that are cut at boundaries

A span is a half-open interval `[a, b)` in an ordered group, empty when `b ≤ a`. Clipped to the
consecutive spans between boundaries `b 0 ≤ b 1 ≤ …` it loses nothing: the lengths of the parts add
up (`sum_overlap`), and no point is in two of them (`disjoint_cells`).

The length of a part is the distance the clamped boundaries are apart (`overlap_eq_sub`), so the sum
telescopes.
-/

namespace Spans

section Length

variable {α : Type} [AddCommGroup α] [LinearOrder α]

/-- The length of `[a, b)`. -/
def length (a b : α) : α := max 0 (b - a)

/-- The length of the part of `[a, b)` that is in `[c, d)`. -/
def overlap (a b c d : α) : α := length (max a c) (min b d)

/-- The point of `[a, b]` that is closest to `x`. -/
def clamp (a b x : α) : α := max a (min b x)

variable [IsOrderedAddMonoid α] {a b c d : α}

theorem length_of_le (h : a ≤ b) : length a b = b - a := max_eq_right (sub_nonneg.mpr h)

theorem length_of_ge (h : b ≤ a) : length a b = 0 := max_eq_left (sub_nonpos.mpr h)

/-- An empty span has no part anywhere. -/
theorem overlap_of_empty (h : b ≤ a) : overlap a b c d = 0 :=
  length_of_ge ((min_le_left b d).trans (h.trans (le_max_left a c)))

/-- **The part of a span between two points** is as long as these are apart when they are clamped to
the span. -/
theorem overlap_eq_sub (h_ab : a ≤ b) (h_cd : c ≤ d) :
    overlap a b c d = clamp a b d - clamp a b c := by
  unfold overlap clamp
  by_cases h_before : d ≤ a
  · -- both points are before the span
    have h_c : c ≤ a := h_cd.trans h_before
    rw [min_eq_right (h_before.trans h_ab), min_eq_right (h_c.trans h_ab), max_eq_left h_c,
      max_eq_left h_before, length_of_ge h_before, sub_self]
  · by_cases h_after : b ≤ c
    · -- both points are after the span
      have h_d : b ≤ d := h_after.trans h_cd
      rw [min_eq_left h_d, min_eq_left h_after, max_eq_right (h_ab.trans h_after),
        length_of_ge h_after, sub_self]
    · -- the part is not empty
      have h_d : a ≤ min b d := le_min h_ab (not_le.mp h_before).le
      have h_c : max a c ≤ min b d := max_le h_d (le_min (not_le.mp h_after).le h_cd)
      rw [max_eq_right h_d, min_eq_right (not_le.mp h_after).le, length_of_le h_c]

end Length

/-! ### Boundaries -/

section Boundaries

variable {α : Type} [LinearOrder α] {bound : ℕ → α} {n : ℕ}

theorem bound_le (h : ∀ i < n, bound i ≤ bound (i + 1)) {i j : ℕ} (h_ij : i ≤ j) (h_j : j ≤ n) :
    bound i ≤ bound j := by
  induction j, h_ij using Nat.le_induction with
  | base => exact le_rfl
  | succ j _ ih => exact (ih (Nat.le_of_succ_le h_j)).trans (h j h_j)

/-- No point is between two pairs of consecutive boundaries. -/
theorem disjoint_cells (h : ∀ i < n, bound i ≤ bound (i + 1)) {i j : ℕ} (h_ij : i < j)
    (h_j : j < n) {x : α} (h_x : x ∈ Set.Ico (bound i) (bound (i + 1))) :
    x ∉ Set.Ico (bound j) (bound (j + 1)) := by
  have h_le : bound (i + 1) ≤ bound j := bound_le h h_ij h_j.le
  exact fun h_x' => absurd (h_x.2.trans_le h_le) (not_lt.mpr h_x'.1)

/-- Every point between the first boundary and the last one is between two consecutive ones. -/
theorem exists_cell (x : α) (h_first : bound 0 ≤ x) (h_last : x < bound n) :
    ∃ i < n, x ∈ Set.Ico (bound i) (bound (i + 1)) := by
  induction n with
  | zero => exact absurd h_last (not_lt.mpr h_first)
  | succ n ih =>
    by_cases h_n : x < bound n
    · obtain ⟨i, h_i, h_x⟩ := ih h_n
      exact ⟨i, Nat.lt_succ_of_lt h_i, h_x⟩
    · exact ⟨n, Nat.lt_succ_self n, not_lt.mp h_n, h_last⟩

/-- **The parts of a span** between consecutive boundaries are together as long as its part between
the first one and the last one. -/
theorem sum_overlap [AddCommGroup α] [IsOrderedAddMonoid α] (h : ∀ i < n, bound i ≤ bound (i + 1)) (a b : α) :
    ∑ i ∈ Finset.range n, overlap a b (bound i) (bound (i + 1)) =
      overlap a b (bound 0) (bound n) := by
  by_cases h_ab : a ≤ b
  · calc
      ∑ i ∈ Finset.range n, overlap a b (bound i) (bound (i + 1))
        = ∑ i ∈ Finset.range n, (clamp a b (bound (i + 1)) - clamp a b (bound i)) :=
          Finset.sum_congr rfl fun i hi => overlap_eq_sub h_ab (h i (Finset.mem_range.mp hi))
      _ = clamp a b (bound n) - clamp a b (bound 0) :=
          Finset.sum_range_sub (fun i => clamp a b (bound i)) n
      _ = overlap a b (bound 0) (bound n) :=
          (overlap_eq_sub h_ab (bound_le h (Nat.zero_le n) le_rfl)).symm
  · have h_empty := (not_le.mp h_ab).le
    rw [overlap_of_empty h_empty]
    exact Finset.sum_eq_zero fun i _ => overlap_of_empty h_empty

end Boundaries

end Spans
