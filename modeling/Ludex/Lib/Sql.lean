import Mathlib.Data.List.Nodup
import Mathlib.Order.Bounds.Basic
import Mathlib.Algebra.BigOperators.Group.List.Basic
import Mathlib.Algebra.Order.Ring.Int
import Mathlib.Tactic.Common

/-!
# Tables, statements and aggregates of SQLite

The fragment of SQLite's semantics a program sees through simple statements over one table at a
time, for an arbitrary row type. A table is the list of its rows in rowid order.

* `updateWhere` and `deleteWhere` are the `UPDATE … WHERE` and `DELETE … WHERE` statements, and
  `newRowid` is the rowid an `AUTOINCREMENT` table chooses.
* `scalarMax` is the two-argument `MAX(a, b)`, which is NULL as soon as one operand is; `maxAgg`
  and `sumAgg` are the aggregates, which are NULL on the empty set.
  The order of `TEXT` values is a parameter `lt`, because it is an order on encodings.

The lemmas say what a statement that addresses one row by its primary key does to the table
(`updateWhere_split`), what a loop of such statements does (`foldl_deleteWhere`,
`foldl_updateWhere`), which statements a selection does not see (`filter_updateWhere`), and how a
selection splits (`filter_or_perm`).
-/

namespace Sql

/-! ### Storage classes -/

/-- The values an `INTEGER` column of a `STRICT` table can hold. A sum that leaves this range
becomes a `REAL`, which such a column refuses. -/
def FitsInteger (x : ℤ) : Prop := -2 ^ 63 ≤ x ∧ x < 2 ^ 63

instance (x : ℤ) : Decidable (FitsInteger x) :=
  inferInstanceAs (Decidable (_ ∧ _))

/-! ### Functions on nullable values -/

section Nullable

variable {α : Type} (lt : α → α → Bool)

/-- The greater of two values, the first one on a tie. -/
def maxBy (a b : α) : α := if lt a b then b else a

/-- The smaller of two values, the first one on a tie. -/
def minBy (a b : α) : α := if lt b a then b else a

/-- The scalar `MAX(a, b)`: NULL when either operand is NULL. -/
def scalarMax : Option α → Option α → Option α
  | some a, some b => some (maxBy lt a b)
  | _, _ => none

/-- The aggregate `MAX(column)` over the non-NULL values of a selection: the first value no later
one is greater than, NULL when there is none. -/
def maxAgg : List α → Option α
  | [] => none
  | x :: xs => some (xs.foldl (maxBy lt) x)

@[simp] theorem scalarMax_none_left (b : Option α) : scalarMax lt none b = none := rfl

@[simp] theorem scalarMax_none_right (a : Option α) : scalarMax lt a none = none := by
  cases a <;> rfl

@[simp] theorem scalarMax_some (a b : α) :
    scalarMax lt (some a) (some b) = some (maxBy lt a b) := rfl

/-- The value a fold of `MAX` ends on is one of the values folded over. -/
theorem foldl_maxBy_mem (xs : List α) (x : α) : xs.foldl (maxBy lt) x ∈ x :: xs := by
  induction xs generalizing x with
  | nil => exact List.mem_singleton.mpr rfl
  | cons y ys ih =>
    rw [List.foldl_cons]
    -- the fold goes on from the greater of the first two values, which is one of them
    rcases List.mem_cons.mp (ih (maxBy lt x y)) with h | h
    · rw [h, maxBy]
      split
      · exact List.mem_cons_of_mem _ List.mem_cons_self
      · exact List.mem_cons_self
    · exact List.mem_cons_of_mem _ (List.mem_cons_of_mem _ h)

/-- The aggregate `MAX` is one of the values it ranges over. -/
theorem mem_of_maxAgg {xs : List α} {m : α} (h : maxAgg lt xs = some m) : m ∈ xs := by
  cases xs with
  | nil => exact absurd h (by simp [maxAgg])
  | cons x xs =>
    obtain rfl := Option.some.inj h
    exact foldl_maxBy_mem lt xs x

/-- The aggregate `MAX` is NULL exactly on the empty selection. -/
theorem maxAgg_eq_none_iff {xs : List α} : maxAgg lt xs = none ↔ xs = [] := by
  cases xs <;> simp [maxAgg]

/-- The value a fold of `MAX` ends on is not less than any of the values folded over. -/
theorem not_lt_foldl_maxBy (h_asymm : ∀ a b, lt a b = true → lt b a = false)
    (h_trans : ∀ a b c, lt a b = false → lt b c = false → lt a c = false) (xs : List α) (x : α) :
    ∀ y ∈ x :: xs, lt (xs.foldl (maxBy lt) x) y = false := by
  have h_irrefl : ∀ a, lt a a = false := by
    intro a
    cases h : lt a a with
    | false => rfl
    | true => rw [← h_asymm a a h, h]
  induction xs generalizing x with
  | nil =>
    intro y hy
    rw [List.mem_singleton.mp hy]
    exact h_irrefl x
  | cons z zs ih =>
    intro y hy
    rw [List.foldl_cons]
    -- the fold does not fall below the greater of the first two values, and neither of them is
    -- above that
    have h_kept : lt (zs.foldl (maxBy lt) (maxBy lt x z)) (maxBy lt x z) = false :=
      ih _ _ List.mem_cons_self
    have h_head : lt (maxBy lt x z) x = false ∧ lt (maxBy lt x z) z = false := by
      unfold maxBy
      split
      next h => exact ⟨h_asymm x z h, h_irrefl z⟩
      next h => exact ⟨h_irrefl x, by simpa using h⟩
    rcases List.mem_cons.mp hy with rfl | hy
    · exact h_trans _ _ _ h_kept h_head.1
    rcases List.mem_cons.mp hy with rfl | hy
    · exact h_trans _ _ _ h_kept h_head.2
    · exact ih _ y (List.mem_cons_of_mem _ hy)

/-- No value of the selection is greater than the aggregate `MAX`. -/
theorem not_lt_maxAgg (h_asymm : ∀ a b, lt a b = true → lt b a = false)
    (h_trans : ∀ a b c, lt a b = false → lt b c = false → lt a c = false) {xs : List α} {m : α}
    (h : maxAgg lt xs = some m) : ∀ y ∈ xs, lt m y = false := by
  cases xs with
  | nil => exact absurd h (by simp [maxAgg])
  | cons x xs =>
    obtain rfl := Option.some.inj h
    exact not_lt_foldl_maxBy lt h_asymm h_trans xs x

end Nullable

/-- The aggregate `SUM(column)` over an integer column: NULL on the empty selection. -/
def sumAgg : List ℤ → Option ℤ
  | [] => none
  | x :: xs => some (x :: xs).sum

/-- `COALESCE(SUM(column), 0)` is the sum of the selection. -/
@[simp] theorem coalesce_sumAgg (xs : List ℤ) : (sumAgg xs).getD 0 = xs.sum := by
  cases xs <;> rfl

/-! ### Statements -/

section Statements

variable {ρ κ : Type}

/-- `UPDATE table SET f WHERE p`. -/
def updateWhere (p : ρ → Bool) (f : ρ → ρ) (rows : List ρ) : List ρ :=
  rows.map fun r => if p r then f r else r

/-- `DELETE FROM table WHERE p`. -/
def deleteWhere (p : ρ → Bool) (rows : List ρ) : List ρ :=
  rows.filter fun r => !p r

/-- The rowid an `AUTOINCREMENT` table gives its next row: one more than every rowid the table
holds and than the largest one it has ever held. -/
def newRowid (seq : ℤ) (ids : List ℤ) : ℤ := ids.foldl max seq + 1

theorem le_foldl_max (ids : List ℤ) (seq : ℤ) :
    seq ≤ ids.foldl max seq ∧ ∀ i ∈ ids, i ≤ ids.foldl max seq := by
  induction ids generalizing seq with
  | nil => simp
  | cons j js ih =>
    obtain ⟨h_seq, h_ids⟩ := ih (max seq j)
    refine ⟨le_trans (le_max_left _ _) h_seq, fun i hi => ?_⟩
    rcases List.mem_cons.mp hi with rfl | hi
    · exact le_trans (le_max_right _ _) h_seq
    · exact h_ids i hi

/-- A new rowid exceeds every rowid of the table. -/
theorem lt_newRowid {seq : ℤ} {ids : List ℤ} {i : ℤ} (hi : i ∈ ids) : i < newRowid seq ids :=
  lt_of_le_of_lt ((le_foldl_max ids seq).2 i hi) (Int.lt_succ _)

/-- A new rowid is not in the table. -/
theorem newRowid_notMem (seq : ℤ) (ids : List ℤ) : newRowid seq ids ∉ ids :=
  fun h => absurd (lt_newRowid h) (lt_irrefl _)

/-- What a statement does to the largest rowid that an `AUTOINCREMENT` table has held, and to those it
holds: an insert adds the next one, any other statement adds none. -/
inductive RowidChange (seq : ℤ) (ids : List ℤ) : ℤ → List ℤ → Prop
  | kept {ids' : List ℤ} : ids'.Sublist ids → RowidChange seq ids seq ids'
  | inserted : RowidChange seq ids (newRowid seq ids) (ids ++ [newRowid seq ids])

theorem RowidChange.of_eq {seq : ℤ} {ids ids' : List ℤ} (h : ids' = ids) :
    RowidChange seq ids seq ids' := .kept (h ▸ List.Sublist.refl _)

theorem RowidChange.seq_le {seq seq' : ℤ} {ids ids' : List ℤ} (h : RowidChange seq ids seq' ids') :
    seq ≤ seq' := by
  cases h with
  | kept _ => exact le_rfl
  | inserted => exact (le_foldl_max ids seq).1.trans (Int.le_add_one le_rfl)

/-- A rowid was there, or is the new one. -/
theorem RowidChange.mem {seq seq' : ℤ} {ids ids' : List ℤ} (h : RowidChange seq ids seq' ids') {i : ℤ}
    (hi : i ∈ ids') : i ∈ ids ∨ seq < i ∧ i = seq' := by
  cases h with
  | kept h_sub => exact Or.inl (h_sub.subset hi)
  | inserted =>
    refine (List.mem_append.mp hi).imp_right fun hi => ?_
    rw [List.mem_singleton.mp hi]
    exact ⟨Int.lt_add_one_of_le (le_foldl_max ids seq).1, rfl⟩

variable {p : ρ → Bool} {f : ρ → ρ} {rows : List ρ}

theorem mem_updateWhere {r : ρ} :
    r ∈ updateWhere p f rows ↔ ∃ r₀ ∈ rows, (if p r₀ then f r₀ else r₀) = r :=
  List.mem_map

theorem forall_mem_updateWhere {P : ρ → Prop} (h : ∀ r ∈ rows, P r)
    (h_f : ∀ r ∈ rows, p r = true → P (f r)) : ∀ r ∈ updateWhere p f rows, P r := by
  intro r' hr'
  obtain ⟨r, hr, rfl⟩ := mem_updateWhere.mp hr'
  split
  next hp => exact h_f r hr hp
  next => exact h r hr

/-- A column an `UPDATE` does not assign keeps its values. -/
theorem map_updateWhere {β : Type} {g : ρ → β} (h : ∀ r, p r = true → g (f r) = g r) :
    (updateWhere p f rows).map g = rows.map g := by
  rw [updateWhere, List.map_map]
  refine List.map_congr_left fun r _ => ?_
  by_cases hp : p r = true
  · simp [hp, h r hp]
  · simp [hp]

/-- **An update by what a view shows** gives tables that the view shows alike. -/
theorem map_updateWhere_congr {β : Type} {view : ρ → β} {q : ρ → Bool} {g : ρ → ρ}
    {rows' : List ρ} (h_pq : ∀ r r', view r = view r' → p r = q r')
    (h_fg : ∀ r r', view r = view r' → view (f r) = view (g r'))
    (h : rows.map view = rows'.map view) :
    (updateWhere p f rows).map view = (updateWhere q g rows').map view := by
  -- induction on both tables at once: they agree row by row
  induction rows generalizing rows' with
  | nil =>
    obtain rfl := List.map_eq_nil_iff.mp h.symm
    rfl
  | cons r rows ih =>
    cases rows' with
    | nil => exact nomatch h
    | cons r' rows' =>
      obtain ⟨h_r, h_rows⟩ := List.cons.inj h
      -- the row is changed in both or in neither
      have h_head : view (if p r then f r else r) = view (if q r' then g r' else r') := by
        rw [h_pq r r' h_r]
        split
        · exact h_fg r r' h_r
        · exact h_r
      exact congrArg₂ List.cons h_head (ih h_rows)

/-- A delete by what a view shows. -/
theorem map_deleteWhere_congr {β : Type} {view : ρ → β} {q : ρ → Bool} {rows' : List ρ}
    (h_pq : ∀ r r', view r = view r' → p r = q r') (h : rows.map view = rows'.map view) :
    (deleteWhere p rows).map view = (deleteWhere q rows').map view := by
  -- likewise, with rows that may go
  induction rows generalizing rows' with
  | nil =>
    obtain rfl := List.map_eq_nil_iff.mp h.symm
    rfl
  | cons r rows ih =>
    cases rows' with
    | nil => exact nomatch h
    | cons r' rows' =>
      obtain ⟨h_r, h_rows⟩ := List.cons.inj h
      unfold deleteWhere at ih ⊢
      rw [List.filter_cons, List.filter_cons, h_pq r r' h_r]
      split
      · rw [List.map_cons, List.map_cons, h_r, ih h_rows]
      · exact ih h_rows

/-- An `UPDATE` that matches nothing changes nothing. -/
theorem updateWhere_of_forall_not (h : ∀ r ∈ rows, p r = false) : updateWhere p f rows = rows := by
  rw [updateWhere, List.map_congr_left (g := id) fun r hr => by simp [h r hr], List.map_id]

theorem updateWhere_append (rows₁ rows₂ : List ρ) :
    updateWhere p f (rows₁ ++ rows₂) = updateWhere p f rows₁ ++ updateWhere p f rows₂ :=
  List.map_append

/-- A row of a table with a primary key splits the table: every other row has another key. -/
theorem exists_split {key : ρ → κ} (hnd : (rows.map key).Nodup) {r : ρ} (hr : r ∈ rows) :
    ∃ pre post, rows = pre ++ r :: post ∧ (∀ x ∈ pre, key x ≠ key r) ∧
      ∀ x ∈ post, key x ≠ key r := by
  obtain ⟨pre, post, rfl⟩ := List.append_of_mem hr
  rw [List.map_append, List.map_cons, List.nodup_append, List.nodup_cons] at hnd
  -- without duplicates, the key of the row is neither among those before nor among those after
  obtain ⟨-, ⟨h_post, -⟩, h_disj⟩ := hnd
  refine ⟨pre, post, rfl, fun x hx h_eq => ?_, fun x hx h_eq => ?_⟩
  · exact h_disj _ (List.mem_map_of_mem hx) _ List.mem_cons_self h_eq
  · exact h_post (h_eq ▸ List.mem_map_of_mem hx)

/-- Two rows with one primary key are the same row. -/
theorem eq_of_key_eq {key : ρ → κ} (hnd : (rows.map key).Nodup) {r r' : ρ} (hr : r ∈ rows)
    (hr' : r' ∈ rows) (h : key r = key r') : r = r' :=
  List.inj_on_of_nodup_map hnd hr hr' h

/-- An `UPDATE` of the one row that has a given primary key, as a split of the table. -/
theorem updateWhere_split {pre post : List ρ} {r : ρ} (hpre : ∀ x ∈ pre, p x = false)
    (hpost : ∀ x ∈ post, p x = false) (hr : p r = true) :
    updateWhere p f (pre ++ r :: post) = pre ++ f r :: post := by
  have h_cons : updateWhere p f (r :: post) = f r :: updateWhere p f post := by
    simp [updateWhere, hr]
  rw [updateWhere_append, h_cons, updateWhere_of_forall_not hpre, updateWhere_of_forall_not hpost]

/-- One `DELETE` for each key of a list deletes the rows whose key is in the list. -/
theorem foldl_deleteWhere [DecidableEq κ] (key : ρ → κ) (ks : List κ) (rows : List ρ) :
    ks.foldl (fun rows k => deleteWhere (fun r => key r = k) rows) rows
      = deleteWhere (fun r => key r ∈ ks) rows := by
  induction ks generalizing rows with
  | nil => simp [deleteWhere]
  | cons k ks ih =>
    rw [List.foldl_cons, ih, deleteWhere, deleteWhere, deleteWhere, List.filter_filter]
    refine List.filter_congr fun r _ => ?_
    by_cases h : key r = k <;> simp [h]

/-- One `UPDATE` that keeps the key for each key of a list without duplicates updates the rows
whose key is in the list, once each. -/
theorem foldl_updateWhere [DecidableEq κ] {key : ρ → κ} (hf : ∀ r, key (f r) = key r) {ks : List κ}
    (hnd : ks.Nodup) (rows : List ρ) :
    ks.foldl (fun rows k => updateWhere (fun r => key r = k) f rows) rows
      = updateWhere (fun r => key r ∈ ks) f rows := by
  induction ks generalizing rows with
  | nil => simp [updateWhere]
  | cons k ks ih =>
    obtain ⟨h_notMem, h_nodup⟩ := List.nodup_cons.mp hnd
    rw [List.foldl_cons, ih h_nodup, updateWhere, updateWhere, updateWhere, List.map_map]
    refine List.map_congr_left fun r _ => ?_
    by_cases h : key r = k
    · -- the row is updated now, and its key does not come again
      simp [h, hf, h_notMem]
    · simp [h]

/-! ### Selections -/

/-- A selection by a unique key is the one row that has it. -/
theorem filter_key_eq [DecidableEq κ] {key : ρ → κ} {r : ρ}
    (hnd : (rows.map key).Nodup) (hr : r ∈ rows) :
    rows.filter (fun x => key x = key r) = [r] := by
  induction rows with
  | nil => exact absurd hr List.not_mem_nil
  | cons x rows ih =>
    obtain ⟨h_notMem, h_nodup⟩ := List.nodup_cons.mp hnd
    rcases List.mem_cons.mp hr with rfl | hr
    · -- no other row has the key of the first one
      rw [List.filter_cons_of_pos (by simp), List.filter_eq_nil_iff.mpr]
      intro y hy h_eq
      exact h_notMem (List.mem_map.mpr ⟨y, hy, of_decide_eq_true h_eq⟩)
    · have h_ne : ¬ key x = key r := fun h_eq => h_notMem (List.mem_map.mpr ⟨r, hr, h_eq.symm⟩)
      rw [List.filter_cons_of_neg (by simpa using h_ne), ih h_nodup hr]

/-- An `UPDATE` is not seen by a selection that its rows are outside of, before and after. -/
theorem filter_updateWhere {q : ρ → Bool}
    (h : ∀ r ∈ rows, p r = true → q r = false ∧ q (f r) = false) :
    (updateWhere p f rows).filter q = rows.filter q := by
  induction rows with
  | nil => rfl
  | cons r rows ih =>
    have h_ih := ih fun x hx => h x (List.mem_cons_of_mem _ hx)
    have h_cons : updateWhere p f (r :: rows) = (if p r then f r else r) :: updateWhere p f rows :=
      rfl
    by_cases hp : p r = true
    · obtain ⟨h_before, h_after⟩ := h r List.mem_cons_self hp
      rw [h_cons, if_pos hp, List.filter_cons_of_neg (by simp [h_after]),
        List.filter_cons_of_neg (by simp [h_before]), h_ih]
    · rw [h_cons, if_neg hp, List.filter_cons, List.filter_cons, h_ih]

/-- An `UPDATE` that keeps the condition of a selection and a column keeps the column of the
selection. -/
theorem map_filter_updateWhere {β : Type} {q : ρ → Bool} {g : ρ → β}
    (h : ∀ r, p r = true → q (f r) = q r ∧ g (f r) = g r) :
    ((updateWhere p f rows).filter q).map g = (rows.filter q).map g := by
  have h_row : ∀ r, q (if p r then f r else r) = q r ∧ g (if p r then f r else r) = g r := by
    intro r
    by_cases hp : p r = true
    · rw [if_pos hp]
      exact h r hp
    · rw [if_neg hp]
      exact ⟨rfl, rfl⟩
  -- the rows selected after the update are the images of those selected before
  have h_select : rows.filter (q ∘ fun r => if p r then f r else r) = rows.filter q :=
    List.filter_congr fun r _ => (h_row r).1
  rw [updateWhere, List.filter_map, List.map_map, h_select]
  exact List.map_congr_left fun r _ => (h_row r).2

/-- An `UPDATE` that takes its rows out of a selection leaves the others in it. -/
theorem filter_updateWhere_out {q : ρ → Bool} (h : ∀ r, p r = true → q (f r) = false) :
    (updateWhere p f rows).filter q = rows.filter fun r => q r && !p r := by
  have h_row : ∀ r, q (if p r then f r else r) = (q r && !p r) := by
    intro r
    by_cases hp : p r = true
    · rw [if_pos hp, h r hp, hp, Bool.not_true, Bool.and_false]
    · rw [if_neg hp, Bool.eq_false_iff.mpr hp, Bool.not_false, Bool.and_true]
  have h_select : rows.filter (q ∘ fun r => if p r then f r else r) =
      rows.filter fun r => q r && !p r := List.filter_congr fun r _ => h_row r
  rw [updateWhere, List.filter_map, h_select]
  -- the rows left in the selection are rows that the update does not match
  refine (List.map_congr_left fun r hr => ?_).trans (List.map_id _)
  obtain ⟨-, h_kept⟩ := Bool.and_eq_true_iff.mp (List.mem_filter.mp hr).2
  rw [if_neg (by simpa using h_kept)]
  rfl

/-- A column without duplicates in which one value is replaced by another has none afterwards, unless
it has both. -/
theorem nodup_map_replace_iff [DecidableEq κ] {ks : List κ} (hnd : ks.Nodup) {old new : κ}
    (hne : old ≠ new) :
    (ks.map fun k => if k = old then new else k).Nodup ↔ ¬ (old ∈ ks ∧ new ∈ ks) := by
  refine ⟨?_, ?_⟩
  · rintro h_nodup ⟨h_old, h_new⟩
    refine hne (List.inj_on_of_nodup_map h_nodup h_old h_new ?_)
    rw [if_pos rfl, if_neg hne.symm]
  · intro h_not
    refine List.Nodup.map_on (fun x hx y hy h_eq => ?_) hnd
    -- two values have one image only if they are the two values
    by_cases h_x : x = old
    · by_cases h_y : y = old
      · rw [h_x, h_y]
      · rw [if_pos h_x, if_neg h_y] at h_eq
        exact absurd ⟨h_x ▸ hx, h_eq ▸ hy⟩ h_not
    · by_cases h_y : y = old
      · rw [if_neg h_x, if_pos h_y] at h_eq
        exact absurd ⟨h_y ▸ hy, h_eq ▸ hx⟩ h_not
      · rwa [if_neg h_x, if_neg h_y] at h_eq

/-- A selection by the disjunction of two exclusive conditions is the two selections together. -/
theorem filter_or_perm {q₁ q₂ : ρ → Bool} (hex : ∀ r, q₁ r = true → q₂ r = false) (rows : List ρ) :
    (rows.filter fun r => q₁ r || q₂ r).Perm (rows.filter q₁ ++ rows.filter q₂) := by
  induction rows with
  | nil => exact List.Perm.refl _
  | cons r rows ih =>
    -- the row goes to the one part or the other, or to neither
    cases h₁ : q₁ r with
    | true =>
      rw [List.filter_cons_of_pos (by simp [h₁]), List.filter_cons_of_pos h₁,
        List.filter_cons_of_neg (by simp [hex r h₁])]
      exact ih.cons r
    | false =>
      cases h₂ : q₂ r with
      | true =>
        rw [List.filter_cons_of_pos (by simp [h₂]), List.filter_cons_of_neg (by simp [h₁]),
          List.filter_cons_of_pos h₂]
        exact (ih.cons r).trans List.perm_middle.symm
      | false =>
        rw [List.filter_cons_of_neg (by simp [h₁, h₂]), List.filter_cons_of_neg (by simp [h₁]),
          List.filter_cons_of_neg (by simp [h₂])]
        exact ih

/-- The total of a selection, with one of its rows taken out. -/
theorem sum_filter_split [DecidableEq κ] {key : ρ → κ} {q : ρ → Bool} {g : ρ → ℤ}
    (hnd : (rows.map key).Nodup) {r : ρ} (hr : r ∈ rows) (hq : q r = true) :
    ((rows.filter q).map g).sum =
      g r + ((rows.filter fun x => q x && decide (key x ≠ key r)).map g).sum := by
  -- no other row has the key of this one
  obtain ⟨pre, post, rfl, h_pre, h_post⟩ := exists_split hnd hr
  -- so nothing else is left out
  have h_out : ∀ part : List ρ, (∀ x ∈ part, key x ≠ key r) →
      (part.filter fun x => q x && decide (key x ≠ key r)) = part.filter q := by
    intro part h
    refine List.filter_congr fun x hx => ?_
    rw [decide_eq_true (h x hx), Bool.and_true]
  have h_self : ((r :: post).filter fun x => q x && decide (key x ≠ key r)) = post.filter q := by
    rw [List.filter_cons_of_neg (by simp), h_out post h_post]
  rw [List.filter_append, List.filter_append, List.filter_cons_of_pos hq, h_self, h_out pre h_pre]
  simp only [List.map_append, List.map_cons, List.sum_append, List.sum_cons]
  omega

end Statements

/-! ### `COALESCE(MAX(column), 0)` -/

/-- Over non-negative values `COALESCE(MAX(column), 0)` is a fold from 0. -/
theorem coalesce_max? {xs : List ℤ} (h : ∀ x ∈ xs, 0 ≤ x) : xs.max?.getD 0 = xs.foldr max 0 := by
  induction xs with
  | nil => rfl
  | cons x xs ih =>
    have h_tail := ih fun y hy => h y (List.mem_cons_of_mem _ hy)
    have h_x : 0 ≤ x := h x List.mem_cons_self
    rw [List.max?_cons, List.foldr_cons, ← h_tail]
    -- of a single value the fold also sees the 0
    cases xs.max? with
    | none => simp [h_x]
    | some m => rfl

/-- The fold ignores the order of the rows. -/
theorem foldr_max_perm {xs ys : List ℤ} (h : xs.Perm ys) : xs.foldr max 0 = ys.foldr max 0 :=
  h.foldr_eq 0

/-- The fold over two selections together is the greater of the two folds. -/
theorem foldr_max_append {xs ys : List ℤ} :
    (xs ++ ys).foldr max 0 = max (xs.foldr max 0) (ys.foldr max 0) := by
  induction xs with
  | nil =>
    have h_nonneg : ∀ zs : List ℤ, 0 ≤ zs.foldr max 0 := by
      intro zs
      induction zs with
      | nil => exact le_refl 0
      | cons z zs ih => exact le_trans ih (le_max_right _ _)
    rw [List.nil_append, List.foldr_nil, max_eq_right (h_nonneg ys)]
  | cons x xs ih => rw [List.cons_append, List.foldr_cons, ih, List.foldr_cons, max_assoc]

end Sql
