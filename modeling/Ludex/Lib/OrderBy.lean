import Mathlib.Data.List.MinMax
import Mathlib.Data.List.Sort
import Mathlib.Algebra.Group.Nat.Defs

/-!
# `ORDER BY` and `LIMIT` on encoded values

A selection is sorted by the order `lt` of the encodings of a column (`Collation`), while its
readers think in the order of the values. `Skewed` relates the two: they agree except on the pairs
of a relation `cut`, which `lt` exchanges.

The two results say exactly when a sorted selection is right about the values. Without a limit it is
if and only if no two of its rows are exchanged (`pairwise_orderBy_iff`). With a limit an exchanged
pair is harmless when enough other rows come before it (`latest_orderByDesc_iff`). Rows with equal
values come in any order: the sort keeps the order in which the rows were visited.
-/

namespace Sql

variable {τ ρ : Type}

/-- An order on encodings. Neither of two values is before the other one if they are the same to
it. -/
structure Collation (lt : τ → τ → Bool) : Prop where
  asymm : ∀ a b, lt a b = true → lt b a = false
  trans : ∀ a b c, lt a b = false → lt b c = false → lt a c = false

/-- `ORDER BY key ASC`. -/
def orderBy (lt : τ → τ → Bool) (key : ρ → τ) (rows : List ρ) : List ρ :=
  rows.insertionSort fun a b => lt (key b) (key a) = false

/-- `ORDER BY key DESC`. -/
def orderByDesc (lt : τ → τ → Bool) (key : ρ → τ) (rows : List ρ) : List ρ :=
  rows.insertionSort fun a b => lt (key a) (key b) = false

section

variable {lt : τ → τ → Bool} {key : ρ → τ} {rows : List ρ}

theorem orderBy_perm : (orderBy lt key rows).Perm rows := List.perm_insertionSort _ rows

theorem orderByDesc_perm : (orderByDesc lt key rows).Perm rows := List.perm_insertionSort _ rows

theorem Collation.irrefl (h : Collation lt) (a : τ) : lt a a = false := by
  cases h_aa : lt a a with
  | false => rfl
  | true => rw [← h.asymm a a h_aa, h_aa]

theorem Collation.total (h : Collation lt) (a b : τ) : lt a b = false ∨ lt b a = false := by
  cases h_ab : lt a b with
  | false => exact Or.inl rfl
  | true => exact Or.inr (h.asymm a b h_ab)

/-- A list sorted by `DESC`. -/
theorem Collation.pairwise_orderByDesc (h : Collation lt) :
    (orderByDesc lt key rows).Pairwise fun a b => lt (key a) (key b) = false := by
  have h_total : Std.Total fun a b : ρ => lt (key a) (key b) = false :=
    ⟨fun a b => h.total (key a) (key b)⟩
  have h_trans : IsTrans ρ fun a b => lt (key a) (key b) = false :=
    ⟨fun _ _ _ h_ab h_bc => h.trans _ _ _ h_ab h_bc⟩
  exact List.pairwise_insertionSort _ rows

/-- A list sorted by `ASC`. -/
theorem Collation.pairwise_orderBy (h : Collation lt) :
    (orderBy lt key rows).Pairwise fun a b => lt (key b) (key a) = false := by
  have h_total : Std.Total fun a b : ρ => lt (key b) (key a) = false :=
    ⟨fun a b => h.total (key b) (key a)⟩
  have h_trans : IsTrans ρ fun a b => lt (key b) (key a) = false :=
    ⟨fun _ _ _ h_ab h_bc => h.trans _ _ _ h_bc h_ab⟩
  exact List.pairwise_insertionSort _ rows

/-! ### The place of a row -/

/-- How many rows have a key that comes after the key. -/
def above (lt : τ → τ → Bool) (key : ρ → τ) (rows : List ρ) (k : τ) : ℕ :=
  rows.countP fun r => lt k (key r)

variable {sorted : List ρ} {n : ℕ} {x : ρ}

/-- A row within the limit has fewer rows above it than the limit. -/
theorem Collation.above_lt_of_mem_take (hc : Collation lt)
    (h : sorted.Pairwise fun a b => lt (key a) (key b) = false) (hx : x ∈ sorted.take n) :
    above lt key sorted (key x) < n := by
  induction sorted generalizing n with
  | nil => exact absurd hx (by simp)
  | cons r rest ih =>
    obtain ⟨h_head, h_tail⟩ := List.pairwise_cons.mp h
    cases n with
    | zero => exact absurd hx (by simp)
    | succ n =>
      rw [List.take_succ_cons, List.mem_cons] at hx
      rcases hx with rfl | hx
      · -- nothing is above the first row
        have h_none : above lt key (x :: rest) (key x) = 0 := by
          refine List.countP_eq_zero.mpr fun y hy => ?_
          rcases List.mem_cons.mp hy with rfl | hy
          · simp [hc.irrefl]
          · simp [h_head y hy]
        omega
      · have h_rest := ih h_tail hx
        unfold above at h_rest ⊢
        rw [List.countP_cons]
        split <;> omega

/-- Where a row has fewer rows above it than the limit, it is within the limit, or a row with the
same place in the order is. -/
theorem Collation.exists_mem_take (hc : Collation lt)
    (h : sorted.Pairwise fun a b => lt (key a) (key b) = false) (hx : x ∈ sorted)
    (h_above : above lt key sorted (key x) < n) :
    ∃ y ∈ sorted.take n, lt (key x) (key y) = false ∧ lt (key y) (key x) = false := by
  induction sorted generalizing n with
  | nil => exact absurd hx List.not_mem_nil
  | cons r rest ih =>
    obtain ⟨h_head, h_tail⟩ := List.pairwise_cons.mp h
    obtain ⟨n, rfl⟩ : ∃ m, n = m + 1 := ⟨n - 1, by omega⟩
    rw [List.take_succ_cons]
    unfold above at h_above ih
    rw [List.countP_cons] at h_above
    cases h_r : lt (key x) (key r) with
    | true =>
      rw [h_r, if_pos rfl] at h_above
      rcases List.mem_cons.mp hx with rfl | hx
      · -- the first row is not above itself
        rw [hc.irrefl] at h_r
        exact absurd h_r Bool.false_ne_true
      · obtain ⟨y, hy, h_same⟩ := ih h_tail hx (Nat.lt_of_succ_lt_succ h_above)
        exact ⟨y, List.mem_cons_of_mem _ hy, h_same⟩
    | false =>
      refine ⟨r, List.mem_cons_self, h_r, ?_⟩
      rcases List.mem_cons.mp hx with rfl | hx
      · exact h_r
      · exact h_head x hx

/-- Two rows are in the places their order gives them. -/
theorem forall_of_precedes (precedes : ρ → ρ → Bool) {holds : ρ → ρ → Prop}
    (h_irrefl : ∀ a, precedes a a = false)
    (h_sorted : rows.Pairwise fun a b => precedes b a = false)
    (h_holds : rows.Pairwise holds) : ∀ a ∈ rows, ∀ b ∈ rows, precedes a b = true → holds a b := by
  -- induction on the rows: the first is before all others by the sorting and by the relation
  induction rows with
  | nil =>
    intro a ha
    exact absurd ha List.not_mem_nil
  | cons r rest ih =>
    obtain ⟨h_head, h_tail⟩ := List.pairwise_cons.mp h_sorted
    obtain ⟨h_first, h_rest⟩ := List.pairwise_cons.mp h_holds
    intro a ha b hb h_ab
    -- nothing precedes itself
    rcases List.mem_cons.mp ha with rfl | h_a
    · rcases List.mem_cons.mp hb with rfl | h_b
      · rw [h_irrefl] at h_ab
        exact absurd h_ab Bool.false_ne_true
      · exact h_first b h_b
    · rcases List.mem_cons.mp hb with rfl | h_b
      · -- the head is not preceded, so this pair cannot be in the other order
        rw [h_head a h_a] at h_ab
        exact absurd h_ab Bool.false_ne_true
      · exact ih h_tail h_rest a h_a b h_b h_ab

theorem above_perm {rows' : List ρ} (h : rows.Perm rows') (k : τ) :
    above lt key rows k = above lt key rows' k := h.countP_eq _

end

/-! ### The first row of a descending listing -/

section

variable {lt : τ → τ → Bool} {key : ρ → τ} {rows : List ρ} {x : ρ}

/-- No row comes before the row. -/
def Top (lt : τ → τ → Bool) (key : ρ → τ) (rows : List ρ) (x : ρ) : Prop :=
  x ∈ rows ∧ ∀ y ∈ rows, lt (key x) (key y) = false

instance [DecidableEq ρ] (x : ρ) : Decidable (Top lt key rows x) :=
  inferInstanceAs (Decidable (x ∈ rows ∧ ∀ y ∈ rows, lt (key x) (key y) = false))

theorem Top.perm {rows' : List ρ} (h : rows.Perm rows') (h_top : Top lt key rows x) :
    Top lt key rows' x :=
  ⟨h.mem_iff.mp h_top.1, fun y hy => h_top.2 y (h.mem_iff.mpr hy)⟩

/-- The first row is one that no row comes before. -/
theorem Collation.top_of_orderByDesc (h : Collation lt) {rest : List ρ}
    (h_sorted : orderByDesc lt key rows = x :: rest) : Top lt key rows x := by
  have h_pairs : (orderByDesc lt key rows).Pairwise fun a b => lt (key a) (key b) = false :=
    h.pairwise_orderByDesc
  rw [h_sorted] at h_pairs
  have h_mem : ∀ y, y ∈ rows ↔ y ∈ x :: rest := by
    intro y
    rw [← h_sorted]
    exact orderByDesc_perm.mem_iff.symm
  refine ⟨(h_mem x).mpr List.mem_cons_self, fun y hy => ?_⟩
  rcases List.mem_cons.mp ((h_mem y).mp hy) with rfl | h_rest
  · exact h.irrefl (key y)
  · exact (List.pairwise_cons.mp h_pairs).1 y h_rest

/-- Any such row is the first one when it is visited first. -/
theorem Top.orderByDesc_cons (h : Top lt key (x :: rows) x) :
    orderByDesc lt key (x :: rows) = x :: orderByDesc lt key rows := by
  show List.orderedInsert (fun a b => lt (key a) (key b) = false) x (orderByDesc lt key rows) = _
  cases h_sorted : orderByDesc lt key rows with
  | nil => rfl
  | cons y rest =>
    have hy : y ∈ rows := orderByDesc_perm.mem_iff.mp (h_sorted ▸ List.mem_cons_self)
    exact List.orderedInsert_cons_of_le _ rest (h.2 y (List.mem_cons_of_mem _ hy))

end

/-! ### Encodings that exchange some values -/

section

variable [LinearOrder τ] {lt : τ → τ → Bool} {cut : τ → τ → Prop} {key : ρ → τ} {rows : List ρ}

/-- The order of the encodings is that of the values, except that it exchanges the pairs of `cut`.
What `cut` puts after a value are the values of an interval that begins there, and two of these
intervals are disjoint or nested. -/
structure Skewed (lt : τ → τ → Bool) (cut : τ → τ → Prop) : Prop extends Collation lt where
  lt_iff : ∀ a b, lt a b = true ↔ cut b a ∨ a < b ∧ ¬ cut a b
  lt_of_cut : ∀ a b, cut a b → a < b
  trans_cut : ∀ a b c, cut a b → cut b c → cut a c
  nested : ∀ a b c x, cut a c → cut b c → a ≤ b → a < x → ¬ cut a x → b < x ∧ ¬ cut b x

/-- A pair in the order of the values but not of the encodings is an exchanged one. -/
theorem Skewed.cut_of_lt (h : Skewed lt cut) {a b : τ} (h_lt : a < b) (h_not : lt a b = false) :
    cut a b := by
  by_contra h_cut
  rw [(h.lt_iff a b).mpr (Or.inr ⟨h_lt, h_cut⟩)] at h_not
  exact absurd h_not (by simp)

/-- **Sorting by the encodings** sorts the values if and only if no pair is exchanged. -/
theorem Skewed.pairwise_orderBy_iff (h : Skewed lt cut) :
    ((orderBy lt key rows).Pairwise fun a b => key a ≤ key b) ↔
      ∀ a ∈ rows, ∀ b ∈ rows, ¬ cut (key a) (key b) := by
  -- the comparison goes wrong at the cuts only, and the list is sorted by it
  have h_sorted : (orderBy lt key rows).Pairwise fun a b => lt (key b) (key a) = false :=
    h.pairwise_orderBy
  refine ⟨?_, ?_⟩
  · -- a cut would put the greater key before the smaller one
    intro h_values a ha b hb h_cut
    have h_lt : lt (key b) (key a) = true := (h.lt_iff _ _).mpr (Or.inl h_cut)
    have h_le := forall_of_precedes (fun x y => lt (key x) (key y))
      (fun x => h.irrefl (key x)) h_sorted h_values b (orderBy_perm.mem_iff.mpr hb) a
      (orderBy_perm.mem_iff.mpr ha) h_lt
    exact absurd h_le (not_le.mpr (h.lt_of_cut _ _ h_cut))
  · -- without one, the order of the comparison is that of the keys
    intro h_none
    refine h_sorted.imp_of_mem fun {a b} ha hb h_not => ?_
    by_contra h_lt
    have h_cut := h.cut_of_lt (not_le.mp h_lt) h_not
    exact h_none b (orderBy_perm.mem_iff.mp hb) a (orderBy_perm.mem_iff.mp ha) h_cut

/-- The rows with the latest values, as many as the limit allows, the latest first. -/
structure Latest (key : ρ → τ) (rows : List ρ) (limit : ℕ) (result : List ρ) : Prop where
  sorted : result.Pairwise fun a b => key b ≤ key a
  latest : ∃ rest, (result ++ rest).Perm rows ∧ ∀ a ∈ result, ∀ b ∈ rest, key b ≤ key a
  length : result.length = min limit rows.length

theorem latest_perm {rows' : List ρ} (h : rows.Perm rows') {limit : ℕ} {result : List ρ} :
    Latest key rows limit result ↔ Latest key rows' limit result := by
  refine ⟨?_, ?_⟩
  · rintro ⟨h_sorted, ⟨rest, h_rows, h_rest⟩, h_length⟩
    exact ⟨h_sorted, ⟨rest, h_rows.trans h, h_rest⟩, by rw [h_length, h.length_eq]⟩
  · rintro ⟨h_sorted, ⟨rest, h_rows, h_rest⟩, h_length⟩
    exact ⟨h_sorted, ⟨rest, h_rows.trans h.symm, h_rest⟩, by rw [h_length, h.length_eq]⟩

/-- A sorted selection that is cut off is right when no row within the limit is before a row that it
exchanges with. -/
theorem Skewed.latest_take_iff (h : Skewed lt cut) {sorted : List ρ} {limit : ℕ}
    (h_perm : sorted.Perm rows)
    (h_sorted : sorted.Pairwise fun a b => lt (key a) (key b) = false) :
    Latest key rows limit (sorted.take limit) ↔
      ∀ a ∈ sorted.take limit, ∀ b ∈ sorted, ¬ cut (key a) (key b) := by
  refine ⟨?_, ?_⟩
  · rintro ⟨h_values, ⟨rest, h_all, h_rest⟩, -⟩ a ha b hb h_cut
    have h_lt : lt (key b) (key a) = true := (h.lt_iff _ _).mpr (Or.inl h_cut)
    have h_gt := not_le.mpr (h.lt_of_cut _ _ h_cut)
    -- the other row is within the limit as well, or left out
    have h_mem : b ∈ sorted.take limit ++ rest :=
      h_all.mem_iff.mpr (h_perm.mem_iff.mp hb)
    rcases List.mem_append.mp h_mem with hb | hb
    · exact h_gt (forall_of_precedes (fun x y => lt (key y) (key x))
        (fun x => h.irrefl (key x)) (h_sorted.sublist (List.take_sublist _ _)) h_values a ha b hb
        h_lt)
    · exact h_gt (h_rest a ha b hb)
  · intro h_none
    have h_le : ∀ a ∈ sorted.take limit, ∀ b ∈ sorted, lt (key a) (key b) = false →
        key b ≤ key a := by
      intro a ha b hb h_not
      by_contra h_lt
      exact h_none a ha b hb (h.cut_of_lt (not_le.mp h_lt) h_not)
    refine ⟨?_, ⟨sorted.drop limit, ?_, ?_⟩, ?_⟩
    · refine (h_sorted.sublist (List.take_sublist _ _)).imp_of_mem fun {a b} ha hb h_not => ?_
      exact h_le a ha b (List.mem_of_mem_take hb) h_not
    · rw [List.take_append_drop]
      exact h_perm
    · intro a ha b hb
      rw [← List.take_append_drop limit sorted] at h_sorted
      exact h_le a ha b (List.mem_of_mem_drop hb) ((List.pairwise_append.mp h_sorted).2.2 a ha b hb)
    · rw [List.length_take, h_perm.length_eq]

/-- Values neither of which has the encoding before the other one are the same. -/
theorem Skewed.eq_of_lt_false (h : Skewed lt cut) {a b : τ} (h_ab : lt a b = false)
    (h_ba : lt b a = false) : a = b := by
  rcases lt_trichotomy a b with h_lt | h_eq | h_lt
  · rw [(h.lt_iff b a).mpr (Or.inl (h.cut_of_lt h_lt h_ab))] at h_ba
    exact absurd h_ba (by simp)
  · exact h_eq
  · rw [(h.lt_iff a b).mpr (Or.inl (h.cut_of_lt h_lt h_ba))] at h_ab
    exact absurd h_ab (by simp)

/-- Of the rows exchanged with a value the earliest is in no interval of another row. -/
theorem Skewed.exists_earliest (h : Skewed lt cut) [DecidableRel cut] {a : ρ} (ha : a ∈ rows) {k : τ}
    (h_cut : cut (key a) k) :
    ∃ c ∈ rows, cut (key c) k ∧ key c ≤ key a ∧ ∀ r ∈ rows, ¬ cut (key r) (key c) := by
  -- take the least key among those that are cut from this one
  have h_mem : a ∈ rows.filter fun r => cut (key r) k :=
    List.mem_filter.mpr ⟨ha, decide_eq_true h_cut⟩
  cases h_min : (rows.filter fun r => cut (key r) k).argmin key with
  | none =>
    rw [List.argmin_eq_none.mp h_min] at h_mem
    exact absurd h_mem List.not_mem_nil
  | some c =>
    obtain ⟨hc, h_c⟩ := List.mem_filter.mp (List.argmin_mem h_min)
    refine ⟨c, hc, of_decide_eq_true h_c, List.le_of_mem_argmin h_mem h_min, ?_⟩
    -- a row cut from that one would be cut from the first as well, and would be less
    intro r hr h_rc
    have h_rk := h.trans_cut _ _ _ h_rc (of_decide_eq_true h_c)
    have h_le := List.le_of_mem_argmin (List.mem_filter.mpr ⟨hr, decide_eq_true h_rk⟩) h_min
    exact absurd (h.lt_of_cut _ _ h_rc) (not_lt.mpr h_le)

/-- **The newest rows under a limit** are right if and only if every exchanged pair has as many
rows after the interval of its earlier value as the limit allows. -/
theorem Skewed.latest_orderByDesc_iff (h : Skewed lt cut) [DecidableRel cut] {limit : ℕ} :
    Latest key rows limit ((orderByDesc lt key rows).take limit) ↔
      ∀ a ∈ rows, ∀ b ∈ rows, cut (key a) (key b) →
        limit ≤ rows.countP fun r => key a < key r ∧ ¬ cut (key a) (key r) := by
  have h_sorted : (orderByDesc lt key rows).Pairwise fun a b => lt (key a) (key b) = false :=
    h.pairwise_orderByDesc
  have h_perm : (orderByDesc lt key rows).Perm rows := orderByDesc_perm
  rw [h.latest_take_iff h_perm h_sorted]
  -- what is after the interval of a value is above it in the order of the encodings
  have h_after : ∀ k, rows.countP (fun r => k < key r ∧ ¬ cut k (key r))
      ≤ above lt key (orderByDesc lt key rows) k := by
    intro k
    rw [above_perm h_perm]
    refine List.countP_mono_left fun r _ h_r => ?_
    exact (h.lt_iff _ _).mpr (Or.inr (of_decide_eq_true h_r))
  refine ⟨?_, ?_⟩
  · intro h_none a ha b hb h_cut
    by_contra h_few
    obtain ⟨c, hc, h_cb, h_le, h_first⟩ := h.exists_earliest ha h_cut
    -- what is above the earliest row exchanged with `b` is after its interval, which is the larger
    have h_rank : above lt key (orderByDesc lt key rows) (key c) < limit := by
      rw [above_perm h_perm]
      refine lt_of_le_of_lt (List.countP_mono_left fun r hr h_r => ?_) (not_le.mp h_few)
      rcases (h.lt_iff _ _).mp h_r with h_rc | ⟨h_lt, h_out⟩
      · exact absurd h_rc (h_first r hr)
      · exact decide_eq_true (h.nested _ _ _ _ h_cb h_cut h_le h_lt h_out)
    obtain ⟨y, hy, h_cy, h_yc⟩ := h.exists_mem_take h_sorted (h_perm.mem_iff.mpr hc) h_rank
    rw [h.eq_of_lt_false h_cy h_yc] at h_cb
    exact h_none y hy b (h_perm.mem_iff.mpr hb) h_cb
  · intro h_far a ha b hb h_cut
    have h_rank := h.above_lt_of_mem_take h_sorted ha
    have h_limit := h_far a (h_perm.mem_iff.mp (List.mem_of_mem_take ha)) b (h_perm.mem_iff.mp hb)
      h_cut
    exact absurd (h_limit.trans (h_after (key a))) (not_le.mpr h_rank)

end

end Sql
