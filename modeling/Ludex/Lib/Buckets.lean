import Mathlib.Algebra.Order.BigOperators.Group.List
import Mathlib.Algebra.Ring.Int.Defs
import Mathlib.Data.Finset.Max
import Mathlib.Tactic.Common

/-!
# Rows in buckets

`bucket` goes through rows and puts each into the bucket of its key, as a map that keeps the order
of insertion does: the first row of a key opens its bucket, behind the other ones. `mem_bucket` says
what the buckets are. Where the keys of the rows never go up, the buckets are the rows themselves,
cut between the keys (`bucket_of_antitone`).

The second half is about entries that are booked under one of two keys. The totals by the one key
and by the other agree from some key on if and only if no entry that counts has moved
(`totals_agree_iff`), as long as entries move in one direction only: the totals of the greatest key
that an entry has left do not agree, because nothing makes up for it.
-/

namespace Buckets

/-! ### Buckets -/

section Bucket

variable {ρ κ : Type} [DecidableEq κ]

/-- Put a row into the bucket of its key. -/
def put (key : ρ → κ) (buckets : List (κ × List ρ)) (row : ρ) : List (κ × List ρ) :=
  if buckets.any fun b => b.1 = key row then
    buckets.map fun b => if b.1 = key row then (b.1, b.2 ++ [row]) else b
  else
    buckets ++ [(key row, [row])]

/-- The buckets, in the order of their first rows. -/
def bucket (key : ρ → κ) (rows : List ρ) : List (κ × List ρ) := rows.foldl (put key) []

variable {key : ρ → κ} {rows : List ρ} {row : ρ} {buckets : List (κ × List ρ)} {b : κ × List ρ}

theorem bucket_concat (key : ρ → κ) (rows : List ρ) (row : ρ) :
    bucket key (rows ++ [row]) = put key (bucket key rows) row := by
  unfold bucket
  rw [List.foldl_append, List.foldl_cons, List.foldl_nil]

/-- The buckets of the other keys stay. -/
theorem mem_put_of_ne (h : b.1 ≠ key row) : b ∈ put key buckets row ↔ b ∈ buckets := by
  unfold put
  split
  · rw [List.mem_map]
    refine ⟨?_, fun h_b => ⟨b, h_b, if_neg h⟩⟩
    rintro ⟨c, h_c, rfl⟩
    by_cases h_key : c.1 = key row
    · rw [if_pos h_key] at h
      exact absurd h_key h
    · rwa [if_neg h_key]
  · rw [List.mem_append, List.mem_singleton]
    refine or_iff_left ?_
    rintro rfl
    exact h rfl

/-- **The buckets**: one for each key that a row has, with the rows of the key in order. -/
theorem mem_bucket :
    b ∈ bucket key rows ↔ (∃ r ∈ rows, key r = b.1) ∧ b.2 = rows.filter fun r => key r = b.1 := by
  induction rows using List.reverseRecOn generalizing b with
  | nil => simp [bucket]
  | append_singleton rows row ih =>
    rw [bucket_concat, List.filter_append]
    by_cases h_key : b.1 = key row
    · -- the bucket that the row goes into
      obtain ⟨k, members⟩ := b
      obtain rfl : k = key row := h_key
      rw [List.filter_singleton, decide_eq_true rfl, cond_true]
      have h_row : ∃ r ∈ rows ++ [row], key r = key row :=
        ⟨row, List.mem_append_right _ List.mem_cons_self, rfl⟩
      rw [and_iff_right h_row]
      unfold put
      split
      next h_any =>
        obtain ⟨c, h_c, h_found⟩ := List.any_eq_true.mp h_any
        have h_found := of_decide_eq_true h_found
        have h_members : c.2 = rows.filter fun r => key r = key row := by
          rw [(ih.mp h_c).2, h_found]
        rw [List.mem_map]
        refine ⟨?_, ?_⟩
        · rintro ⟨c', h_c', h_eq⟩
          by_cases h_key' : c'.1 = key row
          · rw [if_pos h_key'] at h_eq
            rw [← congrArg Prod.snd h_eq, (ih.mp h_c').2, h_key']
          · rw [if_neg h_key'] at h_eq
            exact absurd (congrArg Prod.fst h_eq) h_key'
        · intro h_eq
          have h_eq : members = _ := h_eq
          refine ⟨c, h_c, ?_⟩
          rw [if_pos h_found, h_found, h_eq, h_members]
      next h_any =>
        -- no row before has the key
        have h_nil : rows.filter (fun r => key r = key row) = [] := by
          refine List.filter_eq_nil_iff.mpr fun r hr h_r => h_any ?_
          have h_r := of_decide_eq_true h_r
          refine List.any_eq_true.mpr ⟨(key row, rows.filter fun r => key r = key row), ?_, ?_⟩
          · exact ih.mpr ⟨⟨r, hr, h_r⟩, rfl⟩
          · exact decide_eq_true rfl
        have h_absent : (key row, members) ∉ bucket key rows := fun h_mem =>
          h_any (List.any_eq_true.mpr ⟨_, h_mem, decide_eq_true rfl⟩)
        rw [h_nil, List.nil_append, List.mem_append, List.mem_singleton, or_iff_right h_absent,
          Prod.mk.injEq, and_iff_right rfl]
    · rw [mem_put_of_ne h_key, ih, List.filter_singleton, decide_eq_false (Ne.symm h_key),
        cond_false, List.append_nil]
      refine and_congr_left fun _ => exists_congr fun r => ?_
      rw [List.mem_append, List.mem_singleton, or_and_right]
      refine (or_iff_left ?_).symm
      rintro ⟨rfl, h_eq⟩
      exact h_key h_eq.symm

/-- The total of a bucket, if there is one. -/
theorem sum_bucket (key : ρ → κ) (rows : List ρ) (f : ρ → ℤ) (k : κ) :
    (((bucket key rows).find? fun b => b.1 = k).map fun b => (b.2.map f).sum).getD 0 =
      ((rows.filter fun r => key r = k).map f).sum := by
  cases h_find : (bucket key rows).find? fun b => b.1 = k with
  | some b =>
    have h_key : b.1 = k := by simpa using List.find?_some h_find
    rw [Option.map_some, Option.getD_some, (mem_bucket.mp (List.mem_of_find?_eq_some h_find)).2,
      h_key]
  | none =>
    have h_nil : rows.filter (fun r => key r = k) = [] := by
      refine List.filter_eq_nil_iff.mpr fun r hr h_r => ?_
      refine List.find?_eq_none.mp h_find (k, rows.filter fun r => key r = k) ?_
        (decide_eq_true rfl)
      exact mem_bucket.mpr ⟨⟨r, hr, of_decide_eq_true h_r⟩, rfl⟩
    rw [h_nil]
    rfl

end Bucket

/-- The keys go down from bucket to bucket, and the buckets are the rows in their order. -/
structure Cuts {ρ τ : Type} [LinearOrder τ] (rows : List ρ) (buckets : List (τ × List ρ)) :
    Prop where
  descending : buckets.Pairwise fun a b => b.1 < a.1
  flatten : buckets.flatMap Prod.snd = rows

/-- **Rows whose keys never go up** are cut between the keys. -/
theorem bucket_of_antitone {ρ τ : Type} [LinearOrder τ] {key : ρ → τ} {rows : List ρ}
    (h : rows.Pairwise fun a b => key b ≤ key a) : Cuts rows (bucket key rows) := by
  induction rows using List.reverseRecOn with
  | nil => exact ⟨List.Pairwise.nil, rfl⟩
  | append_singleton rows row ih =>
    obtain ⟨h_rows, -, h_last⟩ := List.pairwise_append.mp h
    obtain ⟨h_descending, h_flatten⟩ := ih h_rows
    -- the key of the row is below all keys so far
    have h_below : ∀ b ∈ bucket key rows, key row ≤ b.1 := by
      intro b h_b
      obtain ⟨r, hr, h_r⟩ := (mem_bucket.mp h_b).1
      rw [← h_r]
      exact h_last r hr row List.mem_cons_self
    rw [bucket_concat]
    unfold put
    split
    next h_any =>
      obtain ⟨c, h_c, h_found⟩ := List.any_eq_true.mp h_any
      have h_found := of_decide_eq_true h_found
      -- so its bucket is the last one
      obtain ⟨init, last, h_split⟩ := List.append_of_mem h_c
      obtain rfl : last = [] := by
        refine List.eq_nil_iff_forall_not_mem.mpr fun e h_e => ?_
        rw [h_split, List.pairwise_append, List.pairwise_cons] at h_descending
        refine absurd (h_descending.2.1.1 e h_e) (not_lt.mpr ?_)
        rw [h_found]
        refine h_below e ?_
        rw [h_split]
        exact List.mem_append_right _ (List.mem_cons_of_mem _ h_e)
      have h_init : init.map (fun b => if b.1 = key row then (b.1, b.2 ++ [row]) else b) =
          init := by
        refine (List.map_congr_left fun b h_b => ?_).trans (List.map_id init)
        rw [h_split, List.pairwise_append] at h_descending
        have h_lt := h_descending.2.2 b h_b c List.mem_cons_self
        rw [h_found] at h_lt
        exact if_neg h_lt.ne'
      rw [h_split] at h_descending h_flatten ⊢
      rw [List.map_append, h_init, List.map_cons, List.map_nil, if_pos h_found]
      refine ⟨?_, ?_⟩
      · rw [List.pairwise_append] at h_descending ⊢
        refine ⟨h_descending.1, List.pairwise_singleton _ _, fun b h_b e h_e => ?_⟩
        obtain rfl := List.mem_singleton.mp h_e
        exact h_descending.2.2 b h_b c List.mem_cons_self
      · rw [← h_flatten]
        simp
    next h_any =>
      refine ⟨List.pairwise_append.mpr ⟨h_descending, List.pairwise_singleton _ _, ?_⟩, ?_⟩
      · rintro b h_b e h_e
        obtain rfl := List.mem_singleton.mp h_e
        refine lt_of_le_of_ne (h_below b h_b) fun h_eq => h_any ?_
        exact List.any_eq_true.mpr ⟨b, h_b, decide_eq_true h_eq.symm⟩
      · rw [List.flatMap_append, h_flatten]
        simp

/-! ### Entries under two keys -/

section Totals

variable {ι τ : Type} [LinearOrder τ] {items : List ι} {p q : ι → τ} {w : ι → ℤ}

/-- The total of the entries that are booked under a key. -/
def totalAt (p : ι → τ) (w : ι → ℤ) (items : List ι) (k : τ) : ℤ :=
  ((items.filter fun i => p i = k).map w).sum

theorem sum_filter (p : ι → Prop) [DecidablePred p] (w : ι → ℤ) (items : List ι) :
    ((items.filter fun i => p i).map w).sum = (items.map fun i => if p i then w i else 0).sum := by
  rw [List.sum_map_ite]
  refine (left_eq_add.mpr ?_)
  exact List.sum_eq_zero (List.forall_mem_map.mpr fun _ _ => rfl)

theorem totalAt_eq (p : ι → τ) (w : ι → ℤ) (items : List ι) (k : τ) :
    totalAt p w items k = (items.map fun i => if p i = k then w i else 0).sum :=
  sum_filter (fun i => p i = k) w items

/-- **The totals by two keys agree** from `first` on if and only if no entry that counts has moved
from a key behind `first` to a smaller one. -/
theorem totals_agree_iff (h_le : ∀ i ∈ items, p i ≤ q i) (h_nonneg : ∀ i ∈ items, 0 ≤ w i)
    (first : τ) :
    (∀ k, first ≤ k → totalAt p w items k = totalAt q w items k) ↔
      ∀ i ∈ items, first ≤ q i → w i ≠ 0 → p i = q i := by
  classical
  refine ⟨fun h => ?_, fun h k h_first => ?_⟩
  · by_contra h_moved
    push Not at h_moved
    obtain ⟨i₀, h_i₀, h_first₀, h_w₀, h_ne₀⟩ := h_moved
    -- the greatest key that an entry has left
    let moved := items.toFinset.filter fun i => first ≤ q i ∧ w i ≠ 0 ∧ p i ≠ q i
    obtain ⟨i, h_i, h_max⟩ := moved.exists_max_image q
      ⟨i₀, Finset.mem_filter.mpr ⟨List.mem_toFinset.mpr h_i₀, h_first₀, h_w₀, h_ne₀⟩⟩
    obtain ⟨h_mem, h_first, h_w, h_ne⟩ := Finset.mem_filter.mp h_i
    rw [List.mem_toFinset] at h_mem
    -- no entry has come to it from a greater one
    have h_terms : ∀ j ∈ items,
        (if p j = q i then w j else 0) ≤ if q j = q i then w j else 0 := by
      intro j h_j
      have h_nonneg_j := h_nonneg j h_j
      by_cases h_q : q j = q i
      · rw [if_pos h_q]
        split <;> omega
      · rw [if_neg h_q]
        split
        next h_p =>
          by_contra h_pos
          have h_lt : q i < q j := lt_of_le_of_ne (h_p ▸ h_le j h_j) (Ne.symm h_q)
          refine absurd (h_max j ?_) (not_le.mpr h_lt)
          refine Finset.mem_filter.mpr ⟨List.mem_toFinset.mpr h_j, h_first.trans h_lt.le, ?_, ?_⟩
          · omega
          · rw [h_p]
            exact Ne.symm h_q
        next => exact le_rfl
    have h_strict : (if p i = q i then w i else 0) < if q i = q i then w i else 0 := by
      have h_nonneg_i := h_nonneg i h_mem
      rw [if_neg h_ne, if_pos rfl]
      omega
    have h_eq := h (q i) h_first
    rw [totalAt_eq, totalAt_eq] at h_eq
    exact absurd h_eq (List.sum_lt_sum _ _ h_terms ⟨i, h_mem, h_strict⟩).ne
  · rw [totalAt_eq, totalAt_eq]
    refine congrArg _ (List.map_congr_left fun i h_i => ?_)
    by_cases h_w : w i = 0
    · rw [h_w, ite_self, ite_self]
    · by_cases h_q : first ≤ q i
      · rw [h i h_i h_q h_w]
      · -- the entry is under no key that is looked at
        have h_lt : q i < k := (not_le.mp h_q).trans_le h_first
        rw [if_neg h_lt.ne, if_neg ((h_le i h_i).trans_lt h_lt).ne]

end Totals

end Buckets
