import Mathlib.Data.List.Induction
import Mathlib.Data.List.Sort

/-!
# Ranks in a sorted list

The place of an element in a descending list is the number of elements `above` it, in whatever order
they were before they were sorted: so many elements have to be dropped before it comes
(`mem_drop_iff`). How far a loop over the list comes is given by the elements from it upwards
(`mem_takeWhile_iff`).

`maxByKey` is the last element with the greatest key: of those before it none has a greater one, and
each of those behind it has a smaller one (`maxByKey_eq_some_iff`).
-/

namespace Ranking

variable {α κ : Type} [LinearOrder κ] {l : List κ} {x : κ}

/-- How many elements are above. -/
def above (l : List κ) (x : κ) : ℕ := l.countP fun y => x < y

theorem above_perm {l' : List κ} (h : l.Perm l') : above l x = above l' x := h.countP_eq _

theorem above_le_above {y : κ} (h : x ≤ y) : above l y ≤ above l x := by
  refine List.countP_mono_left fun z _ h_z => ?_
  exact decide_eq_true (h.trans_lt (of_decide_eq_true h_z))

/-- The element itself is not above. -/
theorem above_cons_self : above (x :: l) x = above l x :=
  List.countP_cons_of_neg (by simp)

/-- One element at least is not above another. -/
theorem above_lt_length (h : x ∈ l) : above l x < l.length := by
  refine lt_of_le_of_ne List.countP_le_length fun h_all => ?_
  exact lt_irrefl x (of_decide_eq_true (List.countP_eq_length.mp h_all x h))

/-- Fewer are above a greater element. -/
theorem lt_of_above_lt {y : κ} (h : above l y < above l x) : x < y := by
  by_contra h_le
  exact absurd (above_le_above (not_lt.mp h_le)) (not_le.mpr h)

/-- **Distinct keys** descend when the list is sorted by them. -/
theorem sortedGT_map_insertionSort (key : α → κ) {l : List α} (h : (l.map key).Nodup) :
    ((l.insertionSort fun a b => key b ≤ key a).map key).SortedGT := by
  have h_total : Std.Total fun a b : α => key b ≤ key a := ⟨fun a b => le_total (key b) (key a)⟩
  have h_trans : IsTrans α fun a b => key b ≤ key a := ⟨fun _ _ _ h_ab h_bc => h_bc.trans h_ab⟩
  have h_sorted : (l.insertionSort fun a b => key b ≤ key a).Pairwise fun a b => key b ≤ key a :=
    List.pairwise_insertionSort _ l
  have h_nodup : ((l.insertionSort fun a b => key b ≤ key a).map key).Nodup :=
    ((List.perm_insertionSort _ l).map key).nodup_iff.mpr h
  rw [List.sortedGT_iff_pairwise]
  refine List.pairwise_map.mpr ((h_sorted.and (List.pairwise_map.mp h_nodup)).imp ?_)
  rintro a b ⟨h_le, h_ne⟩
  exact lt_of_le_of_ne h_le (Ne.symm h_ne)

/-- **Dropping the first elements** leaves those with that many above them. -/
theorem mem_drop_iff (h : l.SortedGT) {n : ℕ} : x ∈ l.drop n ↔ x ∈ l ∧ n ≤ above l x := by
  induction l generalizing n with
  | nil => simp
  | cons a l ih =>
    obtain ⟨h_head, h_tail⟩ := List.pairwise_cons.mp h.pairwise
    cases n with
    | zero => simp
    | succ n =>
      rw [List.drop_succ_cons, ih h_tail.sortedGT, List.mem_cons]
      -- the head is above every other element, and nothing is above the head
      have h_above : ∀ y ∈ l, above (a :: l) y = above l y + 1 := by
        intro y hy
        exact List.countP_cons_of_pos (decide_eq_true (h_head y hy))
      refine ⟨?_, ?_⟩
      · rintro ⟨h_mem, h_le⟩
        rw [h_above x h_mem]
        exact ⟨Or.inr h_mem, Nat.succ_le_succ h_le⟩
      · rintro ⟨rfl | h_mem, h_le⟩
        · have h_none : above l x = 0 := by
            refine List.countP_eq_zero.mpr fun y hy => ?_
            simpa using (h_head y hy).le
          rw [above_cons_self, h_none] at h_le
          exact absurd h_le (Nat.not_succ_le_zero n)
        · rw [h_above x h_mem] at h_le
          exact ⟨h_mem, Nat.le_of_succ_le_succ h_le⟩

/-- **A loop that stops** has come to an element if no element from it upwards has stopped it. -/
theorem mem_takeWhile_iff (h : l.SortedGT) {p : κ → Bool} :
    x ∈ l.takeWhile p ↔ x ∈ l ∧ ∀ y ∈ l, x ≤ y → p y = true := by
  induction l with
  | nil => simp
  | cons a l ih =>
    obtain ⟨h_head, h_tail⟩ := List.pairwise_cons.mp h.pairwise
    by_cases h_a : p a = true
    · rw [List.takeWhile_cons_of_pos h_a, List.mem_cons, ih h_tail.sortedGT, List.mem_cons]
      simp only [List.forall_mem_cons]
      refine ⟨?_, ?_⟩
      · rintro (rfl | ⟨h_mem, h_all⟩)
        · refine ⟨Or.inl rfl, fun _ => h_a, fun y hy h_le => ?_⟩
          exact absurd (h_head y hy) (not_lt.mpr h_le)
        · exact ⟨Or.inr h_mem, fun _ => h_a, h_all⟩
      · rintro ⟨h_mem, _, h_all⟩
        exact h_mem.imp_right fun h_mem => ⟨h_mem, h_all⟩
    · rw [List.takeWhile_cons_of_neg h_a]
      refine iff_of_false List.not_mem_nil ?_
      rintro ⟨h_mem, h_all⟩
      refine h_a (h_all a List.mem_cons_self ?_)
      rcases List.mem_cons.mp h_mem with rfl | h_mem
      · exact le_rfl
      · exact (h_head x h_mem).le

/-! ### The last greatest element -/

/-- The last element with the greatest key. -/
def maxByKey (key : α → κ) : List α → Option α
  | [] => none
  | a :: l => some (l.foldl (fun best b => if key b < key best then best else b) a)

/-- Two elements of a list are the same one, or one of them comes first. -/
theorem eq_or_mem_of_append_cons_eq {pre pre' post post' : List α} {a b : α}
    (h : pre ++ a :: post = pre' ++ b :: post') :
    a = b ∨ (a ∈ pre' ∧ b ∈ post) ∨ (b ∈ pre ∧ a ∈ post') := by
  induction pre generalizing pre' with
  | nil =>
    cases pre' with
    | nil =>
      injection h with h_eq
      exact Or.inl h_eq
    | cons c pre' =>
      obtain ⟨rfl, h_post⟩ := List.cons.inj h
      refine Or.inr (Or.inl ⟨List.mem_cons_self, ?_⟩)
      rw [h_post]
      exact List.mem_append_right _ List.mem_cons_self
  | cons c pre ih =>
    cases pre' with
    | nil =>
      obtain ⟨rfl, h_post⟩ := List.cons.inj h
      refine Or.inr (Or.inr ⟨List.mem_cons_self, ?_⟩)
      rw [← h_post]
      exact List.mem_append_right _ List.mem_cons_self
    | cons d pre' =>
      obtain ⟨-, h_tail⟩ := List.cons.inj h
      exact (ih h_tail).imp_right (Or.imp (And.imp_left (List.mem_cons_of_mem d))
        (And.imp_left (List.mem_cons_of_mem c)))

theorem maxByKey_eq_none_iff {key : α → κ} {l : List α} : maxByKey key l = none ↔ l = [] := by
  cases l with
  | nil => exact iff_of_true rfl rfl
  | cons a l => exact iff_of_false (fun h => nomatch h) (List.cons_ne_nil a l)

theorem maxByKey_append_singleton (key : α → κ) (l : List α) (b : α) :
    maxByKey key (l ++ [b]) =
      some (match maxByKey key l with
        | none => b
        | some best => if key b < key best then best else b) := by
  cases l with
  | nil => rfl
  | cons a l =>
    rw [List.cons_append, maxByKey, List.foldl_append]
    rfl

/-- No later element has a key as great as the one found, and no earlier one a greater key. -/
theorem exists_of_maxByKey {key : α → κ} {l : List α} {best : α} (h : maxByKey key l = some best) :
    ∃ pre post, l = pre ++ best :: post ∧ (∀ a ∈ pre, key a ≤ key best) ∧
      ∀ a ∈ post, key a < key best := by
  -- on the list from its end: the last element is the one that is compared last
  induction l using List.reverseRecOn generalizing best with
  | nil => exact nomatch h
  | append_singleton l b ih =>
    rw [maxByKey_append_singleton] at h
    obtain rfl := Option.some.inj h
    cases h_max : maxByKey key l with
    | none =>
      rw [maxByKey_eq_none_iff.mp h_max]
      exact ⟨[], [], rfl, by simp, by simp⟩
    | some best =>
      obtain ⟨pre, post, h_l, h_pre, h_post⟩ := ih h_max
      simp only
      split
      next h_lt =>
        refine ⟨pre, post ++ [b], by rw [h_l]; simp, h_pre, ?_⟩
        rw [List.forall_mem_append, List.forall_mem_singleton]
        exact ⟨h_post, h_lt⟩
      next h_le =>
        refine ⟨l, [], rfl, ?_, by simp⟩
        rw [h_l, List.forall_mem_append, List.forall_mem_cons]
        exact ⟨fun a ha => (h_pre a ha).trans (not_lt.mp h_le), not_lt.mp h_le,
          fun a ha => (h_post a ha).le.trans (not_lt.mp h_le)⟩

/-- **The last greatest element** is found. -/
theorem maxByKey_eq_some_iff {key : α → κ} {l : List α} {best : α} :
    maxByKey key l = some best ↔
      ∃ pre post, l = pre ++ best :: post ∧ (∀ a ∈ pre, key a ≤ key best) ∧
        ∀ a ∈ post, key a < key best := by
  refine ⟨exists_of_maxByKey, ?_⟩
  rintro ⟨pre, post, rfl, h_pre, h_post⟩
  -- on what follows: an element with a smaller key does not replace it
  induction post using List.reverseRecOn with
  | nil =>
    rw [maxByKey_append_singleton]
    cases h_max : maxByKey key pre with
    | none => rfl
    | some a =>
      obtain ⟨pre', post', h_eq, -, -⟩ := exists_of_maxByKey h_max
      have h_mem : a ∈ pre := by
        rw [h_eq]
        exact List.mem_append_right _ List.mem_cons_self
      simp only
      rw [if_neg (not_lt.mpr (h_pre a h_mem))]
  | append_singleton post b ih =>
    rw [List.forall_mem_append, List.forall_mem_singleton] at h_post
    rw [← List.cons_append, ← List.append_assoc, maxByKey_append_singleton, ih h_post.1]
    simp only
    rw [if_pos h_post.2]

end Ranking
