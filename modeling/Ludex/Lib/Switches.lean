import Mathlib.Data.Finset.Basic

/-!
# A set under switches

A set of keys that is written by switches, each of which puts one key in or takes it out. Whether a
key is in the set in the end is decided by the last switch about it (`decide_mem_foldl_put`), so two
sets written by different switches are equal exactly if for every key the last switch is the same, and
without any the sets agreed before (`foldl_put_eq_iff`).

Switches each of which changes the set (`Effective`) are those that alternate for every key
(`effective_iff`). Two lists of them about different keys stay so in every interleaving
(`Interleaves.effective`).
-/

namespace Switches

variable {K : Type} [DecidableEq K]

/-- Put a key in, or take it out. -/
def put (on : Finset K) (switch : K × Bool) : Finset K :=
  if switch.2 then insert switch.1 on else on.erase switch.1

/-- The switches about a key, in order. -/
def about (key : K) (switches : List (K × Bool)) : List Bool :=
  (switches.filter fun switch => switch.1 = key).map Prod.snd

@[simp] theorem about_nil (key : K) : about key [] = [] := rfl

theorem about_append (key : K) (xs ys : List (K × Bool)) :
    about key (xs ++ ys) = about key xs ++ about key ys := by
  unfold about
  rw [List.filter_append, List.map_append]

theorem about_cons_self (key : K) (up : Bool) (switches : List (K × Bool)) :
    about key ((key, up) :: switches) = up :: about key switches := by
  unfold about
  rw [List.filter_cons_of_pos (by simp), List.map_cons]

theorem about_cons_of_ne {key key' : K} (h : key' ≠ key) (up : Bool) (switches : List (K × Bool)) :
    about key ((key', up) :: switches) = about key switches := by
  unfold about
  rw [List.filter_cons_of_neg (by simpa using h)]

theorem about_perm (key : K) {xs ys : List (K × Bool)} (h : xs.Perm ys) :
    (about key xs).Perm (about key ys) := (h.filter _).map _

theorem about_eq_nil_iff {key : K} {switches : List (K × Bool)} :
    about key switches = [] ↔ ∀ switch ∈ switches, switch.1 ≠ key := by
  unfold about
  rw [List.map_eq_nil_iff, List.filter_eq_nil_iff]
  simp

theorem decide_mem_put (on : Finset K) (key key' : K) (up : Bool) :
    decide (key ∈ put on (key', up)) = if key' = key then up else decide (key ∈ on) := by
  by_cases h_key : key' = key
  · subst h_key
    cases up with
    | true => simp [put]
    | false => simp [put]
  · cases up with
    | true => simp [put, h_key, Ne.symm h_key]
    | false => simp [put, h_key, Ne.symm h_key]

/-- A switch to what is the case changes nothing. -/
theorem put_eq_self {on : Finset K} {key : K} {up : Bool} (h : decide (key ∈ on) = up) :
    put on (key, up) = on := by
  subst h
  unfold put
  by_cases h_mem : key ∈ on
  · rw [if_pos (decide_eq_true h_mem), Finset.insert_eq_of_mem h_mem]
  · rw [if_neg (by simpa using h_mem), Finset.erase_eq_of_notMem h_mem]

/-- **The last switch about a key decides** whether it is in the set. -/
theorem decide_mem_foldl_put (on : Finset K) (switches : List (K × Bool)) (key : K) :
    decide (key ∈ switches.foldl put on) =
      (about key switches).getLast?.getD (decide (key ∈ on)) := by
  -- on the switches, for every set: the first one makes the set that the others begin with
  induction switches generalizing on with
  | nil => rfl
  | cons switch switches ih =>
    obtain ⟨key', up⟩ := switch
    rw [List.foldl_cons, ih, decide_mem_put]
    by_cases h_key : key' = key
    · subst h_key
      rw [if_pos rfl, about_cons_self, List.getLast?_cons, Option.getD_some]
    · rw [if_neg h_key, about_cons_of_ne h_key]

/-- A key is in the set if the last switch about it puts it in, or there is none and it was. -/
theorem mem_foldl_put_iff {on : Finset K} {switches : List (K × Bool)} {key : K} :
    key ∈ switches.foldl put on ↔
      (about key switches).getLast? = some true ∨ about key switches = [] ∧ key ∈ on := by
  rw [← decide_eq_true_iff (p := key ∈ switches.foldl put on), decide_mem_foldl_put]
  cases about key switches using List.reverseRecOn with
  | nil => simp
  | append_singleton ups up => simp

/-- **Two sets under switches** about the same keys are equal if and only if the last switches are,
and the sets were on the keys that no switch is about. -/
theorem foldl_put_eq_iff {on on' : Finset K} {switches switches' : List (K × Bool)}
    (h_keys : ∀ key, about key switches = [] ↔ about key switches' = []) :
    switches.foldl put on = switches'.foldl put on' ↔
      ∀ key, (about key switches).getLast? = (about key switches').getLast? ∧
        (about key switches = [] → (key ∈ on ↔ key ∈ on')) := by
  rw [Finset.ext_iff]
  refine forall_congr' fun key => ?_
  rw [mem_foldl_put_iff, mem_foldl_put_iff, ← h_keys key]
  by_cases h_nil : about key switches = []
  · rw [h_nil, (h_keys key).mp h_nil]
    simp
  · -- the last switches are there, and decide
    obtain ⟨up, h_up⟩ := Option.ne_none_iff_exists'.mp (mt List.getLast?_eq_none_iff.mp h_nil)
    obtain ⟨up', h_up'⟩ := Option.ne_none_iff_exists'.mp
      (mt List.getLast?_eq_none_iff.mp (mt (h_keys key).mpr h_nil))
    rw [h_up, h_up']
    cases up with
    | true => cases up' <;> simp [h_nil]
    | false => cases up' <;> simp [h_nil]

/-! ### Switches that change something -/

/-- Each switch changes the set. -/
def Effective : Finset K → List (K × Bool) → Prop
  | _, [] => True
  | on, switch :: rest => decide (switch.1 ∈ on) ≠ switch.2 ∧ Effective (put on switch) rest

theorem effective_append (on : Finset K) (xs ys : List (K × Bool)) :
    Effective on (xs ++ ys) ↔ Effective on xs ∧ Effective (xs.foldl put on) ys := by
  induction xs generalizing on with
  | nil => exact (and_iff_right trivial).symm
  | cons x xs ih =>
    show _ ∧ Effective (put on x) (xs ++ ys) ↔ (_ ∧ Effective (put on x) xs) ∧ _
    rw [ih, and_assoc]
    rfl

/-- **Each switch changes the set** exactly if the switches about every key alternate, beginning with
the one that is not the case. -/
theorem effective_iff {on : Finset K} {switches : List (K × Bool)} :
    Effective on switches ↔
      ∀ key, (decide (key ∈ on) :: about key switches).IsChain (· ≠ ·) := by
  induction switches generalizing on with
  | nil => exact iff_of_true trivial fun key => List.IsChain.singleton _
  | cons switch switches ih =>
    obtain ⟨key, up⟩ := switch
    show _ ∧ Effective (put on (key, up)) switches ↔ _
    rw [ih]
    -- only the chain of the key that is switched grows, by its first link
    refine ⟨?_, ?_⟩
    · rintro ⟨h_first, h_rest⟩ key'
      have h_chain := h_rest key'
      rw [decide_mem_put] at h_chain
      by_cases h_key : key = key'
      · subst h_key
        rw [if_pos rfl] at h_chain
        rw [about_cons_self]
        exact List.isChain_cons_cons.mpr ⟨h_first, h_chain⟩
      · rw [if_neg h_key] at h_chain
        rw [about_cons_of_ne h_key]
        exact h_chain
    · intro h_all
      have h_self := h_all key
      rw [about_cons_self, List.isChain_cons_cons] at h_self
      refine ⟨h_self.1, fun key' => ?_⟩
      rw [decide_mem_put]
      by_cases h_key : key = key'
      · subst h_key
        rw [if_pos rfl]
        exact h_self.2
      · have h_other := h_all key'
        rw [about_cons_of_ne h_key] at h_other
        rw [if_neg h_key]
        exact h_other

/-- Dropping all switches about some keys leaves switches that change what is left of the set. -/
theorem Effective.filter {on : Finset K} {switches : List (K × Bool)} (h : Effective on switches)
    (p : K → Bool) :
    Effective (on.filter fun key => p key = true) (switches.filter fun switch => p switch.1) := by
  rw [effective_iff] at h ⊢
  intro key
  by_cases h_key : p key = true
  · -- the switches about the key are all left
    have h_about : about key (switches.filter fun switch => p switch.1) = about key switches := by
      unfold about
      rw [List.filter_filter]
      refine congrArg _ (List.filter_congr fun switch _ => ?_)
      by_cases h_switch : switch.1 = key
      · simp [h_switch, h_key]
      · simp [h_switch]
    rw [h_about, show decide (key ∈ on.filter fun key => p key = true) = decide (key ∈ on) by
      simp [h_key]]
    exact h key
  · -- no switch about the key is left
    have h_about : about key (switches.filter fun switch => p switch.1) = [] := by
      rw [about_eq_nil_iff]
      rintro switch h_mem rfl
      exact h_key (List.mem_filter.mp h_mem).2
    rw [h_about]
    exact List.IsChain.singleton _

/-! ### Rises -/

/-- The third list is an interleaving of the first two, each in its order. -/
inductive Interleaves {α : Type} : List α → List α → List α → Prop
  | nil : Interleaves [] [] []
  | left {x : α} {xs ys zs : List α} : Interleaves xs ys zs → Interleaves (x :: xs) ys (x :: zs)
  | right {y : α} {xs ys zs : List α} : Interleaves xs ys zs → Interleaves xs (y :: ys) (y :: zs)

section Interleaves

variable {α : Type} {xs ys zs : List α}

theorem Interleaves.right_self (ys : List α) : Interleaves [] ys ys := by
  induction ys with
  | nil => exact .nil
  | cons y ys ih => exact .right ih

/-- The one list comes between two elements of the other. -/
theorem Interleaves.between (xs ys zs : List α) : Interleaves xs (ys ++ zs) (ys ++ (xs ++ zs)) := by
  induction ys with
  | nil =>
    -- what comes before has been placed
    induction xs with
    | nil => exact .right_self zs
    | cons x xs ih => exact .left ih
  | cons y ys ih => exact .right ih

theorem Interleaves.swap (h : Interleaves xs ys zs) : Interleaves ys xs zs := by
  induction h with
  | nil => exact .nil
  | left _ ih => exact .right ih
  | right _ ih => exact .left ih

theorem Interleaves.map {β : Type} (f : α → β) (h : Interleaves xs ys zs) :
    Interleaves (xs.map f) (ys.map f) (zs.map f) := by
  induction h with
  | nil => exact .nil
  | left _ ih => exact .left ih
  | right _ ih => exact .right ih

end Interleaves

/-- The switches about a key of the one side are those of that side. -/
theorem Interleaves.about_left {xs ys zs : List (K × Bool)} (h : Interleaves xs ys zs) {key : K}
    (h_other : ∀ y ∈ ys, y.1 ≠ key) : about key zs = about key xs := by
  induction h with
  | nil => rfl
  | @left x xs ys zs _ ih =>
    obtain ⟨key', up⟩ := x
    by_cases h_key : key' = key
    · subst h_key
      rw [about_cons_self, about_cons_self, ih h_other]
    · rw [about_cons_of_ne h_key, about_cons_of_ne h_key, ih h_other]
  | @right y xs ys zs _ ih =>
    obtain ⟨key', up⟩ := y
    rw [about_cons_of_ne (h_other _ List.mem_cons_self)]
    exact ih fun y h_y => h_other y (List.mem_cons_of_mem _ h_y)

/-- **Interleaved switches about different keys** change the set if those of each side do. -/
theorem Interleaves.effective {xs ys zs : List (K × Bool)} (h : Interleaves xs ys zs)
    (h_keys : ∀ x ∈ xs, ∀ y ∈ ys, x.1 ≠ y.1) (h_xs : Effective ∅ xs) (h_ys : Effective ∅ ys) :
    Effective ∅ zs := by
  rw [effective_iff] at h_xs h_ys ⊢
  intro key
  by_cases h_left : ∃ x ∈ xs, x.1 = key
  · obtain ⟨x, h_x, rfl⟩ := h_left
    rw [h.about_left fun y h_y => (h_keys x h_x y h_y).symm]
    exact h_xs x.1
  · rw [h.swap.about_left fun x h_x h_key => h_left ⟨x, h_x, h_key⟩]
    exact h_ys key

end Switches
