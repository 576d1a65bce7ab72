import Mathlib.Data.List.GetD
import Mathlib.Data.Nat.Init
import Mathlib.Tactic.Common

/-!
# Fair executions

Infinite executions of a labelled transition system `step : S → L → S → Prop`, over arbitrary states
and labels, and what they lead to. A set of labels is **weakly fair** in an execution when it cannot
stay enabled for ever without one of them being taken.

The rules, from which a liveness proof is assembled:

* `leadsTo_of_fair`: a set of labels that stays enabled until it is taken, and reaches the goal when
  it is.
* `leadsTo_of_stronglyFair`: the same for labels that are enabled again and again.
* `Execution.LeadsTo.trans`, and `leadsTo_of_rank` for a goal that several such phases lead to, each
  lowering a rank; `leadsTo_of_fair_rank` when each phase is one step with a fair label.
* `Execution.LeadsTo.forall_mem`, for several goals that are kept once they are reached.
* `Execution.invariant`, which brings a safety property into an execution, and
  `Execution.exists_leaving`, which finds the step in which a property was lost.

`idling` builds an execution from a list of labels and a label that changes nothing.
-/

namespace Fair

variable {S L : Type} {step : S → L → S → Prop}

/-- An infinite execution. -/
structure Execution (step : S → L → S → Prop) where
  state : ℕ → S
  label : ℕ → L
  step_at : ∀ n, step (state n) (label n) (state (n + 1))

/-- One of the labels can be taken. -/
def Enabled (step : S → L → S → Prop) (labels : L → Prop) (s : S) : Prop :=
  ∃ l t, labels l ∧ step s l t

/-- The labels are not enabled for ever without one being taken. -/
def Execution.WeaklyFair (e : Execution step) (labels : L → Prop) : Prop :=
  ∀ n, (∀ m, n ≤ m → Enabled step labels (e.state m)) → ∃ m, n ≤ m ∧ labels (e.label m)

/-- The labels are not enabled again and again without one being taken. -/
def Execution.StronglyFair (e : Execution step) (labels : L → Prop) : Prop :=
  ∀ n, (∀ m, n ≤ m → ∃ k, m ≤ k ∧ Enabled step labels (e.state k)) →
    ∃ m, n ≤ m ∧ labels (e.label m)

/-- Whenever `P` holds, `Q` holds then or later. -/
def Execution.LeadsTo (e : Execution step) (P Q : S → Prop) : Prop :=
  ∀ n, P (e.state n) → ∃ m, n ≤ m ∧ Q (e.state m)

variable {e : Execution step} {P Q R : S → Prop}

/-- A safety property, in an execution. -/
theorem Execution.invariant (e : Execution step) (Inv : S → Prop)
    (h_step : ∀ s l t, step s l t → Inv s → Inv t) (h_first : Inv (e.state 0)) (n : ℕ) :
    Inv (e.state n) := by
  induction n with
  | zero => exact h_first
  | succ n ih => exact h_step _ _ _ (e.step_at n) ih

/-- A property that is lost is lost in a step. -/
theorem Execution.exists_leaving (e : Execution step) {n m : ℕ} (h_le : n ≤ m)
    (h_n : P (e.state n)) (h_m : ¬ P (e.state m)) :
    ∃ k, n ≤ k ∧ P (e.state k) ∧ ¬ P (e.state (k + 1)) := by
  induction m, h_le using Nat.le_induction with
  | base => exact absurd h_n h_m
  | succ k h_le ih =>
    by_cases h_k : P (e.state k)
    · exact ⟨k, h_le, h_k, h_m⟩
    · exact ih h_k

theorem Execution.LeadsTo.trans (h₁ : e.LeadsTo P Q) (h₂ : e.LeadsTo Q R) : e.LeadsTo P R := by
  intro n h_P
  obtain ⟨m, h_nm, h_Q⟩ := h₁ n h_P
  obtain ⟨k, h_mk, h_R⟩ := h₂ m h_Q
  exact ⟨k, Nat.le_trans h_nm h_mk, h_R⟩

/-- What leads to the goal or to something that leads to the goal. -/
theorem Execution.LeadsTo.or_trans (h₁ : e.LeadsTo P fun s => R s ∨ Q s) (h₂ : e.LeadsTo Q R) :
    e.LeadsTo P R := by
  refine h₁.trans fun n h => ?_
  rcases h with h_R | h_Q
  · exact ⟨n, Nat.le_refl n, h_R⟩
  · exact h₂ n h_Q

/-- What is reached holds from then on, if every step keeps it. -/
theorem Execution.stays (e : Execution step) (h_step : ∀ s l t, step s l t → P s → P t) {n m : ℕ}
    (h_le : n ≤ m) (h_n : P (e.state n)) : P (e.state m) := by
  induction m, h_le using Nat.le_induction with
  | base => exact h_n
  | succ m _ ih => exact h_step _ _ _ (e.step_at m) ih

/-- Two goals that are kept once they are reached. -/
theorem Execution.LeadsTo.and (h₁ : e.LeadsTo P Q) (h₂ : e.LeadsTo P R)
    (h_Q : ∀ s l t, step s l t → Q s → Q t) (h_R : ∀ s l t, step s l t → R s → R t) :
    e.LeadsTo P fun s => Q s ∧ R s := by
  intro n h_P
  obtain ⟨m, h_nm, h_m⟩ := h₁ n h_P
  obtain ⟨k, h_nk, h_k⟩ := h₂ n h_P
  refine ⟨max m k, Nat.le_trans h_nm (Nat.le_max_left m k), ?_, ?_⟩
  · exact e.stays h_Q (Nat.le_max_left m k) h_m
  · exact e.stays h_R (Nat.le_max_right m k) h_k

/-- As many goals as there are in a list. -/
theorem Execution.LeadsTo.forall_mem {ι : Type} {Q : ι → S → Prop} (is : List ι)
    (h : ∀ i, e.LeadsTo P (Q i)) (h_Q : ∀ i s l t, step s l t → Q i s → Q i t) :
    e.LeadsTo P fun s => ∀ i ∈ is, Q i s := by
  -- induction on the list: what holds already stays while the rest is reached
  induction is with
  | nil => exact fun n _ => ⟨n, Nat.le_refl n, List.forall_mem_nil _⟩
  | cons i is ih =>
    have h_both : e.LeadsTo P fun s => Q i s ∧ ∀ j ∈ is, Q j s :=
      (h i).and ih (h_Q i) fun s l t h_step h_s j hj => h_Q j s l t h_step (h_s j hj)
    intro n h_P
    obtain ⟨m, h_le, h_first, h_rest⟩ := h_both n h_P
    exact ⟨m, h_le, List.forall_mem_cons.mpr ⟨h_first, h_rest⟩⟩

/-- **The rule of weak fairness.** While `P` holds and the goal is not reached, one of the labels is
enabled; every step keeps `P` or reaches the goal, and a step with one of the labels reaches it. -/
theorem leadsTo_of_fair {labels : L → Prop} (h_fair : e.WeaklyFair labels)
    (h_enabled : ∀ s, P s → ¬ Q s → Enabled step labels s)
    (h_keep : ∀ s l t, step s l t → P s → ¬ Q s → P t ∨ Q t)
    (h_act : ∀ s l t, step s l t → P s → ¬ Q s → labels l → Q t) : e.LeadsTo P Q := by
  intro n h_P
  by_contra h_never
  have h_not : ∀ m, n ≤ m → ¬ Q (e.state m) := fun m h_le h_Q => h_never ⟨m, h_le, h_Q⟩
  -- `P` persists, so the labels stay enabled
  have h_persists : ∀ m, n ≤ m → P (e.state m) := by
    intro m h_le
    induction m, h_le using Nat.le_induction with
    | base => exact h_P
    | succ m h_le ih =>
      exact (h_keep _ _ _ (e.step_at m) ih (h_not m h_le)).resolve_right
        (h_not (m + 1) (Nat.le_succ_of_le h_le))
  obtain ⟨m, h_le, h_label⟩ := h_fair n fun m h_le =>
    h_enabled _ (h_persists m h_le) (h_not m h_le)
  exact h_not (m + 1) (Nat.le_succ_of_le h_le)
    (h_act _ _ _ (e.step_at m) (h_persists m h_le) (h_not m h_le) h_label)

/-- **The rule of strong fairness.** While `P` holds and the goal is not reached, one of the labels is
enabled then or later; every step keeps `P` or reaches the goal, and a step with one of the labels
reaches it. -/
theorem leadsTo_of_stronglyFair {labels : L → Prop} (h_fair : e.StronglyFair labels)
    (h_enabled : e.LeadsTo P fun s => Q s ∨ Enabled step labels s)
    (h_keep : ∀ s l t, step s l t → P s → ¬ Q s → P t ∨ Q t)
    (h_act : ∀ s l t, step s l t → P s → ¬ Q s → labels l → Q t) : e.LeadsTo P Q := by
  -- suppose the goal is never reached
  intro n h_P
  by_contra h_never
  have h_not : ∀ m, n ≤ m → ¬ Q (e.state m) := fun m h_le h_Q => h_never ⟨m, h_le, h_Q⟩
  -- then the premise holds for ever
  have h_persists : ∀ m, n ≤ m → P (e.state m) := by
    intro m h_le
    induction m, h_le using Nat.le_induction with
    | base => exact h_P
    | succ m h_le ih =>
      exact (h_keep _ _ _ (e.step_at m) ih (h_not m h_le)).resolve_right
        (h_not (m + 1) (Nat.le_succ_of_le h_le))
  -- so the step is possible again and again, and fairness takes it
  obtain ⟨m, h_le, h_label⟩ := h_fair n fun m h_le => by
    obtain ⟨k, h_mk, h_k⟩ := h_enabled m (h_persists m h_le)
    exact ⟨k, h_mk, h_k.resolve_left (h_not k (Nat.le_trans h_le h_mk))⟩
  exact h_not (m + 1) (Nat.le_succ_of_le h_le)
    (h_act _ _ _ (e.step_at m) (h_persists m h_le) (h_not m h_le) h_label)

/-- **The rule of a rank.** Each phase reaches the goal or a lower rank. -/
theorem leadsTo_of_rank (rank : S → ℕ)
    (h : ∀ k, e.LeadsTo (fun s => P s ∧ rank s = k) fun s => Q s ∨ (P s ∧ rank s < k)) :
    e.LeadsTo P Q := by
  -- induction on the rank, which gets lower or the goal is reached
  have h_all : ∀ k n, P (e.state n) → rank (e.state n) = k → ∃ m, n ≤ m ∧ Q (e.state m) := by
    intro k
    induction k using Nat.strong_induction_on with
    | _ k ih =>
      intro n h_P h_rank
      obtain ⟨m, h_nm, h_Q | ⟨h_P', h_lower⟩⟩ := h k n ⟨h_P, h_rank⟩
      · exact ⟨m, h_nm, h_Q⟩
      · obtain ⟨m', h_mm', h_Q⟩ := ih _ h_lower m h_P' rfl
        exact ⟨m', Nat.le_trans h_nm h_mm', h_Q⟩
  exact fun n h_P => h_all _ n h_P rfl

/-- **The rule of a rank under weak fairness.** While `P` holds and the goal is not reached, one of
the labels is enabled; every step reaches the goal or does not raise the rank, and a step with one of
the labels lowers it. -/
theorem leadsTo_of_fair_rank {labels : L → Prop} (h_fair : e.WeaklyFair labels) (rank : S → ℕ)
    (h_enabled : ∀ s, P s → ¬ Q s → Enabled step labels s)
    (h_step : ∀ s l t, step s l t → P s → ¬ Q s →
      Q t ∨ P t ∧ rank t ≤ rank s ∧ (labels l → rank t < rank s)) : e.LeadsTo P Q := by
  -- the rank does not rise on the way, and the fair step lowers it
  refine leadsTo_of_rank rank fun k => leadsTo_of_fair h_fair ?_ ?_ ?_
  · rintro s ⟨h_P, -⟩ h_not
    exact h_enabled s h_P fun h_Q => h_not (Or.inl h_Q)
  · rintro s l t h_st ⟨h_P, rfl⟩ h_not
    rcases h_step s l t h_st h_P (fun h_Q => h_not (Or.inl h_Q)) with h_Q | ⟨h_P', h_le, -⟩
    · exact Or.inr (Or.inl h_Q)
    · rcases Nat.eq_or_lt_of_le h_le with h_same | h_lower
      · exact Or.inl ⟨h_P', h_same⟩
      · exact Or.inr (Or.inr ⟨h_P', h_lower⟩)
  · rintro s l t h_st ⟨h_P, rfl⟩ h_not h_label
    rcases h_step s l t h_st h_P (fun h_Q => h_not (Or.inl h_Q)) with h_Q | ⟨h_P', -, h_lower⟩
    · exact Or.inl h_Q
    · exact Or.inr ⟨h_P', h_lower h_label⟩

/-! ### Executions that come to rest -/

variable {next : S → L → Option S} {idle : L} {labels : L → Prop}

/-- The states on the way of a list of labels, and of idling after it. -/
def path (next : S → L → Option S) (idle : L) (ls : List L) (s : S) : ℕ → S
  | 0 => s
  | n + 1 => (next (path next idle ls s n) (ls.getD n idle)).getD (path next idle ls s n)

/-- Take the labels of a list, then idle. -/
def idling (next : S → L → Option S) (idle : L) (h_idle : ∀ s, next s idle = some s) (ls : List L)
    (s : S)
    (h : ∀ n < ls.length, (next (path next idle ls s n) (ls.getD n idle)).isSome = true) :
    Execution fun s l t => next s l = some t where
  state := path next idle ls s
  label := fun n => ls.getD n idle
  step_at := by
    intro n
    show _ = some ((next (path next idle ls s n) (ls.getD n idle)).getD (path next idle ls s n))
    by_cases h_n : n < ls.length
    · obtain ⟨t, h_t⟩ := Option.isSome_iff_exists.mp (h n h_n)
      rw [h_t]
      rfl
    · rw [List.getD_eq_default ls idle (Nat.le_of_not_lt h_n), h_idle]
      rfl

/-- Idling does not move. -/
theorem path_of_le (h_idle : ∀ s, next s idle = some s) {ls : List L} {s : S} {n : ℕ}
    (h : ls.length ≤ n) : path next idle ls s n = path next idle ls s ls.length := by
  induction n, h using Nat.le_induction with
  | base => rfl
  | succ n h_le ih =>
    rw [path, List.getD_eq_default ls idle h_le, h_idle]
    exact ih

/-- Labels that are not enabled where the execution comes to rest are treated fairly. -/
theorem idling_weaklyFair {h_idle : ∀ s, next s idle = some s} {ls : List L} {s : S}
    {h : ∀ n < ls.length, (next (path next idle ls s n) (ls.getD n idle)).isSome = true}
    (h_rest : ¬ Enabled (fun s l t => next s l = some t) labels (path next idle ls s ls.length)) :
    (idling next idle h_idle ls s h).WeaklyFair labels := by
  intro n h_enabled
  have h_late := h_enabled (max n ls.length) (Nat.le_max_left _ _)
  change Enabled _ labels (path next idle ls s (max n ls.length)) at h_late
  rw [path_of_le h_idle (Nat.le_max_right _ _)] at h_late
  exact absurd h_late h_rest

theorem idling_stronglyFair {h_idle : ∀ s, next s idle = some s} {ls : List L} {s : S}
    {h : ∀ n < ls.length, (next (path next idle ls s n) (ls.getD n idle)).isSome = true}
    (h_rest : ¬ Enabled (fun s l t => next s l = some t) labels (path next idle ls s ls.length)) :
    (idling next idle h_idle ls s h).StronglyFair labels := by
  intro n h_enabled
  obtain ⟨k, h_le, h_late⟩ := h_enabled (max n ls.length) (Nat.le_max_left _ _)
  change Enabled _ labels (path next idle ls s k) at h_late
  rw [path_of_le h_idle (Nat.le_trans (Nat.le_max_right _ _) h_le)] at h_late
  exact absurd h_late h_rest

end Fair
