import Mathlib.Algebra.BigOperators.Intervals
import Mathlib.Algebra.BigOperators.Ring.Finset
import Mathlib.Data.Int.Interval
import Mathlib.Order.Interval.Finset.Nat
import Mathlib.Tactic.Linarith

/-!
# Two-valued signals on a discrete time axis

A signal is driven by edges, each setting it to a value at a time; repeated values are allowed.
`valueAt` is its value at a time and `spansFrom` are the maximal stretches on which it is up, in
order, the last one possibly still open.

`card_up` connects the two: on a window the signal is up for as many instants as the overlaps of
the spans add up to. `spansFrom_append` cuts the spans at a point of the edge list.

The second half charges the spans by whole units. `charge` is the part of a span inside a window,
after a grace that is forgiven once for the whole span. Over windows that do not overlap the
charges of one span telescope (`sum_charge_le`), and a single charge is within one unit of the
overlap (`mul_charge_lt`, `overlap_lt_charge`).
-/

namespace Signal

/-- The signal takes a value at a time. -/
structure Edge where
  value : Bool
  time : ℕ

/-- A stretch on which the signal is up: from `rise` on, and before `fall`. -/
structure Span where
  rise : ℕ
  fall : Option ℕ
deriving DecidableEq

namespace Span

/-- The time is in the stretch. -/
def contains (σ : Span) (t : ℕ) : Bool := σ.rise ≤ t && σ.fall.all fun u => t < u

/-- How much of the stretch lies before a time. -/
def elapsed (σ : Span) (t : ℕ) : ℕ := (σ.fall.elim t (min t)) - σ.rise

/-- How much of the stretch lies in the window from `a` to `b`. -/
def overlap (σ : Span) (a b : ℕ) : ℕ := σ.elapsed b - σ.elapsed a

theorem elapsed_mono (σ : Span) {a b : ℕ} (h : a ≤ b) : σ.elapsed a ≤ σ.elapsed b := by
  unfold elapsed
  cases σ.fall with
  | none => exact Nat.sub_le_sub_right h _
  | some u => exact Nat.sub_le_sub_right (min_le_min_right u h) _

/-- A stretch that begins later has not elapsed at all. -/
theorem elapsed_of_le {σ : Span} {t : ℕ} (h : t ≤ σ.rise) : σ.elapsed t = 0 := by
  unfold elapsed
  cases σ.fall with
  | none => exact Nat.sub_eq_zero_of_le h
  | some u => exact Nat.sub_eq_zero_of_le (le_trans (min_le_left t u) h)

/-- A stretch that has ended elapses no more. -/
theorem elapsed_closed {r u t : ℕ} (h : u ≤ t) : elapsed ⟨r, some u⟩ t = u - r := by
  change min t u - r = u - r
  rw [min_eq_right h]

/-- A stretch that has not ended yet elapses like an open one. -/
theorem elapsed_running {r t : ℕ} {fall : Option ℕ} (h : ∀ u ∈ fall, t ≤ u) :
    elapsed ⟨r, fall⟩ t = t - r := by
  cases fall with
  | none => rfl
  | some u =>
    change min t u - r = t - r
    rw [min_eq_left (h u rfl)]

/-- The overlap counts the instants of the window that are in the stretch. -/
theorem card_contains (σ : Span) {a b : ℕ} (h : a ≤ b) :
    ((Finset.Ico a b).filter fun t => σ.contains t).card = σ.overlap a b := by
  obtain ⟨r, fall⟩ := σ
  -- the instants of the window that are in the stretch are an interval again
  cases fall with
  | none =>
    have h_set : (Finset.Ico a b).filter (fun t => contains ⟨r, none⟩ t)
        = Finset.Ico (max a r) b := by
      ext t
      simp only [contains, Finset.mem_filter, Finset.mem_Ico, Option.all_none, Bool.and_true,
        decide_eq_true_eq, max_le_iff]
      omega
    rw [h_set, Nat.card_Ico]
    change b - max a r = b - r - (a - r)
    omega
  | some u =>
    have h_set : (Finset.Ico a b).filter (fun t => contains ⟨r, some u⟩ t)
        = Finset.Ico (max a r) (min b u) := by
      ext t
      simp only [contains, Finset.mem_filter, Finset.mem_Ico, Option.all_some, Bool.and_eq_true,
        decide_eq_true_eq, max_le_iff, lt_min_iff]
      omega
    rw [h_set, Nat.card_Ico]
    change min b u - max a r = min b u - r - (min a u - r)
    omega

end Span

/-! ### Values and spans of an edge list -/

/-- The value at a time, of a signal that starts from `init`. -/
def valueAt (init : Bool) : List Edge → ℕ → Bool
  | [], _ => init
  | e :: es, t => valueAt (if e.time ≤ t then e.value else init) es t

/-- The stretches on which the signal is up. The first argument is where the current one began, if
the signal is up at the start. -/
def spansFrom : Option ℕ → List Edge → List Span
  | none, [] => []
  | some r, [] => [⟨r, none⟩]
  | none, ⟨true, t⟩ :: es => spansFrom (some t) es
  | none, ⟨false, _⟩ :: es => spansFrom none es
  | some r, ⟨true, _⟩ :: es => spansFrom (some r) es
  | some r, ⟨false, t⟩ :: es => ⟨r, some t⟩ :: spansFrom none es

/-- The stretches that have ended. -/
def closedFrom : Option ℕ → List Edge → List Span
  | _, [] => []
  | none, ⟨true, t⟩ :: es => closedFrom (some t) es
  | none, ⟨false, _⟩ :: es => closedFrom none es
  | some r, ⟨true, _⟩ :: es => closedFrom (some r) es
  | some r, ⟨false, t⟩ :: es => ⟨r, some t⟩ :: closedFrom none es

/-- Where the current stretch began, after the edges. -/
def riseAfter : Option ℕ → List Edge → Option ℕ
  | s, [] => s
  | none, ⟨true, t⟩ :: es => riseAfter (some t) es
  | none, ⟨false, _⟩ :: es => riseAfter none es
  | some r, ⟨true, _⟩ :: es => riseAfter (some r) es
  | some _, ⟨false, _⟩ :: es => riseAfter none es

/-- The spans, cut at a point of the edge list. -/
theorem spansFrom_append (s : Option ℕ) (es es' : List Edge) :
    spansFrom s (es ++ es') = closedFrom s es ++ spansFrom (riseAfter s es) es' := by
  induction es generalizing s with
  | nil => rw [List.nil_append, closedFrom, riseAfter, List.nil_append]
  | cons e es ih =>
    obtain ⟨v, t⟩ := e
    -- one case for each equation of the three functions; only a fall closes a span
    cases s with
    | none =>
      cases v with
      | false => exact ih none
      | true => exact ih (some t)
    | some r =>
      cases v with
      | false => exact congrArg (_ :: ·) (ih none)
      | true => exact ih (some r)

/-- A signal that is down rises at an edge. -/
theorem rise_mem {es : List Edge} {σ : Span} (h : σ ∈ spansFrom none es) :
    ∃ e ∈ es, σ.rise = e.time := by
  -- the statement for a signal that is up, whose first span may rise before the edges
  have h_general : ∀ (es : List Edge) (s : Option ℕ), ∀ σ ∈ spansFrom s es,
      σ.rise ∈ s ∨ ∃ e ∈ es, σ.rise = e.time := by
    intro es
    induction es with
    | nil =>
      intro s σ hσ
      cases s with
      | none => exact absurd hσ List.not_mem_nil
      | some r =>
        rw [List.mem_singleton.mp hσ]
        exact Or.inl rfl
    | cons e es ih =>
      intro s σ hσ
      obtain ⟨v, t⟩ := e
      -- a span of the rest rises at an edge of the rest, or where the rest started from
      have h_tail : ∀ {s'}, σ ∈ spansFrom s' es → (σ.rise ∈ s' → σ.rise ∈ s ∨ σ.rise = t) →
          σ.rise ∈ s ∨ ∃ e ∈ (⟨v, t⟩ : Edge) :: es, σ.rise = e.time := by
        intro s' hσ' h_s'
        rcases ih s' σ hσ' with h_rise | ⟨e, he, h_time⟩
        · rcases h_s' h_rise with h_rise | h_rise
          · exact Or.inl h_rise
          · exact Or.inr ⟨_, List.mem_cons_self, h_rise⟩
        · exact Or.inr ⟨e, List.mem_cons_of_mem _ he, h_time⟩
      cases s with
      | none =>
        cases v with
        | false => exact h_tail hσ fun h_rise => Or.inl h_rise
        | true => exact h_tail hσ fun h_rise => Or.inr (Option.some.inj h_rise).symm
      | some r =>
        cases v with
        | false =>
          rcases List.mem_cons.mp hσ with rfl | hσ
          · exact Or.inl rfl
          · exact h_tail hσ fun h_rise => absurd h_rise (by simp)
        | true => exact h_tail hσ fun h_rise => Or.inl h_rise
  rcases h_general es none σ h with h_rise | h_edge
  · exact absurd h_rise (by simp)
  · exact h_edge

/-- A signal that is up falls at an edge, or not at all, and what follows starts from down. -/
theorem spansFrom_some (r : ℕ) (es : List Edge) :
    ∃ fall es', spansFrom (some r) es = ⟨r, fall⟩ :: spansFrom none es' ∧
      (∀ u ∈ fall, ∃ e ∈ es, e.time = u) ∧ ∀ e ∈ es', e ∈ es := by
  induction es with
  | nil => exact ⟨none, [], rfl, by simp, by simp⟩
  | cons e es ih =>
    obtain ⟨v, t⟩ := e
    cases v with
    | false =>
      -- the signal falls here
      refine ⟨some t, es, rfl, fun u hu => ?_, fun e he => List.mem_cons_of_mem _ he⟩
      exact ⟨⟨false, t⟩, List.mem_cons_self, Option.some.inj hu⟩
    | true =>
      obtain ⟨fall, es', h_eq, h_fall, h_sub⟩ := ih
      refine ⟨fall, es', h_eq, fun u hu => ?_, fun e he => List.mem_cons_of_mem _ (h_sub e he)⟩
      obtain ⟨e, he, h_time⟩ := h_fall u hu
      exact ⟨e, List.mem_cons_of_mem _ he, h_time⟩

/-- A stretch that has ended fell at an edge. -/
theorem closedFrom_fall {s : Option ℕ} {es : List Edge} {σ : Span} (h : σ ∈ closedFrom s es) :
    ∃ e ∈ es, σ.fall = some e.time := by
  -- induction on the edges, for any start of an open span
  induction es generalizing s with
  | nil =>
    unfold closedFrom at h
    exact absurd h List.not_mem_nil
  | cons e es ih =>
    obtain ⟨v, t⟩ := e
    -- a span of the rest
    have h_tail : ∀ {s'}, σ ∈ closedFrom s' es →
        ∃ e ∈ (⟨v, t⟩ : Edge) :: es, σ.fall = some e.time := by
      intro s' h'
      obtain ⟨e, he, h_fall⟩ := ih h'
      exact ⟨e, List.mem_cons_of_mem _ he, h_fall⟩
    -- a fall closes the open span; every other edge leaves it to the rest
    cases s with
    | none =>
      cases v with
      | false => exact h_tail h
      | true => exact h_tail h
    | some r =>
      cases v with
      | false =>
        rcases List.mem_cons.mp h with rfl | h
        · exact ⟨_, List.mem_cons_self, rfl⟩
        · exact h_tail h
      | true => exact h_tail h

/-! ### The spans are where the signal is up -/

/-- Edges in the order of their times. -/
def Chronological (es : List Edge) : Prop := es.Pairwise fun e f => e.time ≤ f.time

/-- Before its edges a signal keeps its value. -/
theorem valueAt_of_lt {init : Bool} {es : List Edge} {t : ℕ} (h : ∀ e ∈ es, t < e.time) :
    valueAt init es t = init := by
  induction es with
  | nil => rfl
  | cons e es ih =>
    rw [valueAt, if_neg (Nat.not_le.mpr (h e List.mem_cons_self))]
    exact ih fun f hf => h f (List.mem_cons_of_mem _ hf)

/-- How many of the stretches a time is in. -/
def countAt (L : List Span) (t : ℕ) : ℕ := (L.map fun σ => (σ.contains t).toNat).sum

@[simp] theorem countAt_nil (t : ℕ) : countAt [] t = 0 := rfl

@[simp] theorem countAt_cons (σ : Span) (L : List Span) (t : ℕ) :
    countAt (σ :: L) t = (σ.contains t).toNat + countAt L t := by
  simp [countAt]

/-- Before the edges of a signal that is down there is no stretch. -/
theorem countAt_of_lt {es : List Edge} {t : ℕ} (h : ∀ e ∈ es, t < e.time) :
    countAt (spansFrom none es) t = 0 := by
  refine List.sum_eq_zero fun n hn => ?_
  obtain ⟨σ, hσ, rfl⟩ := List.mem_map.mp hn
  obtain ⟨e, he, h_rise⟩ := rise_mem hσ
  have h_after : ¬ σ.rise ≤ t := by
    rw [h_rise]
    exact Nat.not_le.mpr (h e he)
  simp [Span.contains, h_after]

/-- A time is in one stretch if the signal is up then, and in none if it is down. -/
theorem countAt_spansFrom {es : List Edge} {t : ℕ} (h : Chronological es) {s : Option ℕ}
    (hs : ∀ r ∈ s, r ≤ t) : countAt (spansFrom s es) t = (valueAt s.isSome es t).toNat := by
  induction es generalizing s with
  | nil =>
    cases s with
    | none => rfl
    | some r =>
      have h_r : r ≤ t := hs r rfl
      simp [spansFrom, valueAt, Span.contains, h_r]
  | cons e es ih =>
    obtain ⟨h_le, h_es⟩ := List.pairwise_cons.mp h
    obtain ⟨v, u⟩ := e
    -- before this edge is before all of them
    have h_late : t < u → ∀ e ∈ es, t < e.time := fun h_lt e he => lt_of_lt_of_le h_lt (h_le e he)
    cases s with
    | none =>
      cases v with
      | false =>
        change countAt (spansFrom none es) t = (valueAt (if u ≤ t then false else false) es t).toNat
        rw [ite_self]
        exact ih h_es (by simp)
      | true =>
        change countAt (spansFrom (some u) es) t
          = (valueAt (if u ≤ t then true else false) es t).toNat
        by_cases h_u : u ≤ t
        · rw [if_pos h_u]
          exact ih h_es (by simpa using h_u)
        · -- the rise is still ahead
          have h_all := h_late (Nat.lt_of_not_le h_u)
          obtain ⟨fall, es', h_eq, -, h_sub⟩ := spansFrom_some u es
          rw [if_neg h_u, valueAt_of_lt h_all, h_eq, countAt_cons,
            countAt_of_lt fun e he => h_all e (h_sub e he)]
          simp [Span.contains, h_u]
    | some r =>
      have h_r : r ≤ t := hs r rfl
      cases v with
      | true =>
        change countAt (spansFrom (some r) es) t = (valueAt (if u ≤ t then true else true) es t).toNat
        rw [ite_self]
        exact ih h_es hs
      | false =>
        change countAt (⟨r, some u⟩ :: spansFrom none es) t
          = (valueAt (if u ≤ t then false else true) es t).toNat
        by_cases h_u : u ≤ t
        · rw [if_pos h_u, countAt_cons, ih h_es (by simp)]
          simp [Span.contains, Nat.not_lt.mpr h_u]
        · -- the fall is still ahead
          have h_all := h_late (Nat.lt_of_not_le h_u)
          rw [if_neg h_u, valueAt_of_lt h_all, countAt_cons, countAt_of_lt h_all]
          simp [Span.contains, h_r, Nat.lt_of_not_le h_u]

/-- Sums over a finite set and over a list commute. -/
theorem sum_list_comm {ι α M : Type} [AddCommMonoid M] (s : Finset ι) (L : List α)
    (f : ι → α → M) :
    ∑ i ∈ s, (L.map (f i)).sum = (L.map fun x => ∑ i ∈ s, f i x).sum := by
  induction L with
  | nil => simp
  | cons x L ih =>
    simp only [List.map_cons, List.sum_cons]
    rw [Finset.sum_add_distrib, ih]

/-- **The time a signal is up in a window** is the sum of the overlaps of its spans. -/
theorem card_up {es : List Edge} (h : Chronological es) {a b : ℕ} (hab : a ≤ b) :
    ((Finset.Ico a b).filter fun t => valueAt false es t).card
      = ((spansFrom none es).map fun σ => σ.overlap a b).sum := by
  -- count the instants at which the signal is up
  calc ((Finset.Ico a b).filter fun t => valueAt false es t).card
      = ∑ t ∈ Finset.Ico a b, (valueAt false es t).toNat := by
        rw [Finset.card_filter]
        refine Finset.sum_congr rfl fun t _ => ?_
        cases valueAt false es t <;> rfl
    -- each instant lies in one span of the signal at most
    _ = ∑ t ∈ Finset.Ico a b, ((spansFrom none es).map fun σ => (σ.contains t).toNat).sum :=
        Finset.sum_congr rfl fun t _ => (countAt_spansFrom (s := none) h (by simp)).symm
    -- and exchange the two sums
    _ = ((spansFrom none es).map fun σ => ∑ t ∈ Finset.Ico a b, (σ.contains t).toNat).sum :=
        sum_list_comm _ _ _
    _ = ((spansFrom none es).map fun σ => σ.overlap a b).sum := by
        refine congrArg List.sum (List.map_congr_left fun σ _ => ?_)
        rw [← σ.card_contains hab, Finset.card_filter]
        refine Finset.sum_congr rfl fun t _ => ?_
        cases σ.contains t <;> rfl

/-! ### Charging by whole units -/

/-- Intervals that do not overlap fit into any interval that holds them all. -/
theorem sum_sub_le {ι : Type} (s : Finset ι) {lo hi : ι → ℤ} {L U : ℤ} (hLU : L ≤ U)
    (h_le : ∀ i ∈ s, lo i ≤ hi i) (h_lo : ∀ i ∈ s, L ≤ lo i) (h_hi : ∀ i ∈ s, hi i ≤ U)
    (h_disj : ∀ i ∈ s, ∀ j ∈ s, i ≠ j → hi i ≤ lo j ∨ hi j ≤ lo i) :
    ∑ i ∈ s, (hi i - lo i) ≤ U - L := by
  -- count the integers in the intervals: they are disjoint sets inside the one from `L` to `U`
  have h_pairwise : (s : Set ι).PairwiseDisjoint fun i => Finset.Ico (lo i) (hi i) := by
    intro i hi' j hj' hne
    refine Finset.disjoint_left.mpr fun x hx hx' => ?_
    rw [Finset.mem_Ico] at hx hx'
    rcases h_disj i hi' j hj' hne with h | h <;> omega
  have h_subset : (s.biUnion fun i => Finset.Ico (lo i) (hi i)) ⊆ Finset.Ico L U := by
    intro x hx
    obtain ⟨i, hi', hx⟩ := Finset.mem_biUnion.mp hx
    rw [Finset.mem_Ico] at hx ⊢
    exact ⟨le_trans (h_lo i hi') hx.1, lt_of_lt_of_le hx.2 (h_hi i hi')⟩
  have h_card := Finset.card_le_card h_subset
  rw [Finset.card_biUnion h_pairwise, Int.card_Ico] at h_card
  calc ∑ i ∈ s, (hi i - lo i)
      = ∑ i ∈ s, ((Finset.Ico (lo i) (hi i)).card : ℤ) := by
        refine Finset.sum_congr rfl fun i hi' => ?_
        rw [Int.card_Ico, Int.toNat_of_nonneg (by linarith [h_le i hi'])]
    _ = ((∑ i ∈ s, (Finset.Ico (lo i) (hi i)).card : ℕ) : ℤ) := by rw [Nat.cast_sum]
    _ ≤ ((U - L).toNat : ℤ) := by exact_mod_cast h_card
    _ = U - L := Int.toNat_of_nonneg (by linarith)

namespace Span

variable (unit : ℕ)

/-- The whole units of the stretch before a time. -/
def units (σ : Span) (t : ℕ) : ℤ := (σ.elapsed t / unit : ℕ)

/-- What a window is charged for the stretch: its units inside the window, without those of the
first `grace` units of the stretch. -/
def charge (grace : ℤ) (σ : Span) (a b : ℕ) : ℤ :=
  max 0 (σ.units unit b - max (σ.units unit a) grace)

theorem units_mono (σ : Span) {a b : ℕ} (h : a ≤ b) : σ.units unit a ≤ σ.units unit b :=
  Int.ofNat_le.mpr (Nat.div_le_div_right (σ.elapsed_mono h))

theorem charge_nonneg (grace : ℤ) (σ : Span) (a b : ℕ) : 0 ≤ σ.charge unit grace a b :=
  le_max_left _ _

theorem charge_antitone {grace grace' : ℤ} (h : grace ≤ grace') (σ : Span) (a b : ℕ) :
    σ.charge unit grace' a b ≤ σ.charge unit grace a b := by
  unfold charge
  have h_max : max (σ.units unit a) grace ≤ max (σ.units unit a) grace' := max_le_max_left _ h
  exact max_le_max_left _ (by linarith)

/-- The charge is a difference of one function of time, which is what makes charges telescope. -/
theorem charge_eq_sub (grace : ℤ) (σ : Span) {a b : ℕ} (h : a ≤ b) :
    σ.charge unit grace a b = max (σ.units unit b) grace - max (σ.units unit a) grace := by
  have h_units := σ.units_mono unit h
  unfold charge
  omega

/-- **No unit is charged twice.** Windows that do not overlap are together charged at most what one
window that ends after them all would be. -/
theorem sum_charge_le {ι : Type} (s : Finset ι) (grace : ℤ) (σ : Span) {a b : ι → ℕ} {T : ℕ}
    (h_le : ∀ i ∈ s, a i ≤ b i) (h_last : ∀ i ∈ s, b i ≤ T)
    (h_disj : ∀ i ∈ s, ∀ j ∈ s, i ≠ j → b i ≤ a j ∨ b j ≤ a i) :
    ∑ i ∈ s, σ.charge unit grace (a i) (b i) ≤ max 0 (σ.units unit T - grace) := by
  -- mapped through this function the windows are intervals that do not overlap
  have h_mono : ∀ {x y : ℕ}, x ≤ y → max (σ.units unit x) grace ≤ max (σ.units unit y) grace :=
    fun h => max_le_max_right _ (σ.units_mono unit h)
  calc ∑ i ∈ s, σ.charge unit grace (a i) (b i)
      = ∑ i ∈ s, (max (σ.units unit (b i)) grace - max (σ.units unit (a i)) grace) :=
        Finset.sum_congr rfl fun i hi => σ.charge_eq_sub unit grace (h_le i hi)
    _ ≤ max (σ.units unit T) grace - grace := by
        refine sum_sub_le s (le_max_right _ _) (fun i hi => h_mono (h_le i hi))
          (fun i _ => le_max_right _ _) (fun i hi => h_mono (h_last i hi)) fun i hi j hj hne => ?_
        exact (h_disj i hi j hj hne).imp h_mono h_mono
    _ = max 0 (σ.units unit T - grace) := by omega

/-- A window that ends before the stretch, or begins after it, is not charged. -/
theorem charge_of_overlap_eq_zero (grace : ℤ) {σ : Span} {a b : ℕ} (h : σ.overlap a b = 0) :
    σ.charge unit grace a b = 0 := by
  -- nothing elapses in the window, so no unit is completed in it
  have h_le : σ.elapsed b ≤ σ.elapsed a := Nat.le_of_sub_eq_zero h
  have h_units : σ.units unit b ≤ σ.units unit a := Int.ofNat_le.mpr (Nat.div_le_div_right h_le)
  unfold charge
  omega

/-- A window that holds the beginning of the stretch is charged at most the overlap. -/
theorem mul_charge_le (grace : ℤ) {σ : Span} {a : ℕ} (h : a ≤ σ.rise) (b : ℕ) :
    unit * σ.charge unit grace a b ≤ σ.overlap a b := by
  have h_a : σ.elapsed a = 0 := elapsed_of_le h
  have h_charge : σ.charge unit grace a b ≤ σ.units unit b := by
    have h_units_a : σ.units unit a = 0 := by rw [units, h_a, Nat.zero_div]; rfl
    have h_units_b : 0 ≤ σ.units unit b := Int.natCast_nonneg _
    unfold charge
    omega
  calc unit * σ.charge unit grace a b
      ≤ unit * σ.units unit b := mul_le_mul_of_nonneg_left h_charge (Int.natCast_nonneg _)
    _ = ((unit * (σ.elapsed b / unit) : ℕ) : ℤ) := by rw [units, Nat.cast_mul]
    _ ≤ (σ.elapsed b : ℤ) := Int.ofNat_le.mpr (Nat.mul_div_le _ _)
    _ = σ.overlap a b := by rw [overlap, h_a, Nat.sub_zero]

variable {unit}

/-- A window is charged less than one unit more than the overlap. -/
theorem mul_charge_lt (h_unit : 0 < unit) (grace : ℤ) (σ : Span) {a b : ℕ} (h : a ≤ b) :
    unit * σ.charge unit grace a b < σ.overlap a b + unit := by
  have h_units := σ.units_mono unit h
  have h_elapsed := σ.elapsed_mono h
  have h_charge : σ.charge unit grace a b ≤ σ.units unit b - σ.units unit a := by
    unfold charge
    omega
  -- rounding down loses nothing at the end, and less than a unit at the start
  have h_b : (unit * (σ.elapsed b / unit) : ℕ) ≤ σ.elapsed b := Nat.mul_div_le _ _
  have h_a : σ.elapsed a < unit * (σ.elapsed a / unit) + unit := Nat.lt_mul_div_succ _ h_unit
  calc (unit : ℤ) * σ.charge unit grace a b
      ≤ unit * (σ.units unit b - σ.units unit a) :=
        mul_le_mul_of_nonneg_left h_charge (Int.natCast_nonneg _)
    _ = (unit * (σ.elapsed b / unit) : ℕ) - (unit * (σ.elapsed a / unit) : ℕ) := by
        rw [units, units, Nat.cast_mul, Nat.cast_mul, mul_sub]
    _ < σ.overlap a b + unit := by
        unfold overlap
        omega

/-- Without grace a window is charged at least the overlap but for one unit. -/
theorem overlap_lt_charge (h_unit : 0 < unit) (σ : Span) {a b : ℕ} (h : a ≤ b) :
    (σ.overlap a b : ℤ) < unit * σ.charge unit 0 a b + unit := by
  have h_elapsed := σ.elapsed_mono h
  have h_charge : σ.charge unit 0 a b = σ.units unit b - σ.units unit a := by
    have h_nonneg : ∀ t, 0 ≤ σ.units unit t := fun t => Int.natCast_nonneg _
    rw [σ.charge_eq_sub unit 0 h, max_eq_left (h_nonneg b), max_eq_left (h_nonneg a)]
  -- rounding down loses less than a unit at the end
  have h_a : (unit * (σ.elapsed a / unit) : ℕ) ≤ σ.elapsed a := Nat.mul_div_le _ _
  have h_b : σ.elapsed b < unit * (σ.elapsed b / unit) + unit := Nat.lt_mul_div_succ _ h_unit
  calc (σ.overlap a b : ℤ)
      < (unit * (σ.elapsed b / unit) : ℕ) - (unit * (σ.elapsed a / unit) : ℕ) + unit := by
        unfold overlap
        omega
    _ = unit * σ.charge unit 0 a b + unit := by
        rw [h_charge, units, units, Nat.cast_mul, Nat.cast_mul, mul_sub]

end Span

/-! ### All the spans of a signal -/

section Sums

variable {unit : ℕ} {a b : ℕ}

theorem mul_sum_charge_le {grace : ℤ} {L : List Span} (h : ∀ σ ∈ L, a ≤ σ.rise) :
    unit * (L.map fun σ => σ.charge unit grace a b).sum
      ≤ ((L.map fun σ => σ.overlap a b).sum : ℕ) := by
  induction L with
  | nil => simp
  | cons σ L ih =>
    have h_head := Span.mul_charge_le unit grace (h σ List.mem_cons_self) b
    have h_tail := ih fun τ hτ => h τ (List.mem_cons_of_mem _ hτ)
    rw [List.map_cons, List.sum_cons, mul_add, List.map_cons, List.sum_cons, Nat.cast_add]
    exact add_le_add h_head h_tail

/-- A signal that is down rises no earlier than its edges. -/
theorem le_rise {es : List Edge} (h : ∀ e ∈ es, a ≤ e.time) : ∀ σ ∈ spansFrom none es, a ≤ σ.rise := by
  intro σ hσ
  obtain ⟨e, he, h_rise⟩ := rise_mem hσ
  exact h_rise ▸ h e he

/-- The stretches that ended before a window are not charged to it. -/
theorem sum_charge_closedFrom (hab : a ≤ b) (grace : ℤ) {s : Option ℕ} {es : List Edge}
    (h : ∀ e ∈ es, e.time ≤ a) :
    ((closedFrom s es).map fun σ => σ.charge unit grace a b).sum = 0 := by
  refine List.sum_eq_zero fun x hx => ?_
  obtain ⟨⟨r, fall⟩, hσ, rfl⟩ := List.mem_map.mp hx
  obtain ⟨e, he, h_fall⟩ := closedFrom_fall hσ
  obtain rfl : fall = some e.time := h_fall
  refine Span.charge_of_overlap_eq_zero _ _ ?_
  rw [Span.overlap, Span.elapsed_closed (h e he), Span.elapsed_closed (le_trans (h e he) hab),
    Nat.sub_self]

/-- A window is charged less than one unit more than the time the signal is up in it. Only the
stretch that was up at its start can be charged a unit of which a part lies before. -/
theorem mul_sum_charge_lt (h_unit : 0 < unit) (hab : a ≤ b) (grace : ℤ) {es es' : List Edge}
    (h : ∀ e ∈ es, e.time ≤ a) (h' : ∀ e ∈ es', a ≤ e.time) :
    unit * ((spansFrom none (es ++ es')).map fun σ => σ.charge unit grace a b).sum
      < ((spansFrom none (es ++ es')).map fun σ => σ.overlap a b).sum + unit := by
  have h_open : unit * ((spansFrom (riseAfter none es) es').map
        fun σ => σ.charge unit grace a b).sum
      < ((spansFrom (riseAfter none es) es').map fun σ => σ.overlap a b).sum + unit := by
    cases riseAfter none es with
    | none =>
      -- the signal is down at the start of the window, so every span left rises in it or later
      have h_le := @mul_sum_charge_le unit a b grace _ (le_rise h')
      linarith [show (0 : ℤ) < unit by exact_mod_cast h_unit]
    | some t =>
      -- the span that is up at the start may be charged a unit too much, those after it are not
      obtain ⟨fall, es'', h_eq, -, h_sub⟩ := spansFrom_some t es'
      have h_first := Span.mul_charge_lt h_unit grace ⟨t, fall⟩ hab
      have h_rest := @mul_sum_charge_le unit a b grace _ (le_rise fun e he => h' e (h_sub e he))
      rw [h_eq, List.map_cons, List.sum_cons, mul_add, List.map_cons, List.sum_cons, Nat.cast_add]
      linarith
  rw [spansFrom_append, List.map_append, List.sum_append, sum_charge_closedFrom hab grace h,
    zero_add, List.map_append, List.sum_append, Nat.cast_add]
  have h_nonneg : (0 : ℤ) ≤ (((closedFrom none es).map fun σ => σ.overlap a b).sum : ℕ) :=
    Int.natCast_nonneg _
  linarith

/-- Without grace a window is charged at least the time the signal is up in it, but for one unit
for each stretch that has a part in it. -/
theorem sum_overlap_le (h_unit : 0 < unit) (hab : a ≤ b) (L : List Span) :
    (((L.map fun σ => σ.overlap a b).sum : ℕ) : ℤ)
      ≤ unit * (L.map fun σ => σ.charge unit 0 a b).sum
        + unit * (L.filter fun σ => 0 < σ.overlap a b).length := by
  induction L with
  | nil => simp
  | cons σ L ih =>
    rw [List.map_cons, List.sum_cons, Nat.cast_add, List.map_cons, List.sum_cons, mul_add]
    by_cases h_pos : 0 < σ.overlap a b
    · have h_head := Span.overlap_lt_charge h_unit σ hab
      rw [List.filter_cons_of_pos (by simpa using h_pos), List.length_cons, Nat.cast_add,
        Nat.cast_one, mul_add, mul_one]
      linarith
    · -- a stretch outside the window adds nothing on either side
      have h_zero : σ.overlap a b = 0 := Nat.eq_zero_of_not_pos h_pos
      rw [List.filter_cons_of_neg (by simpa using h_pos), h_zero,
        Span.charge_of_overlap_eq_zero unit 0 h_zero, Nat.cast_zero, mul_zero, zero_add, zero_add]
      exact ih

end Sums

end Signal
