import Mathlib.Data.List.Basic

/-!
# Runs of a labelled transition system

A step relation `step : S → L → S → Prop` over arbitrary states and labels. A run is the list of
its labels with the states they lead to; `states` are the states it passes through and `steps` its
steps with the state before each.

`IsRun.invariant` is the induction every safety property uses. `IsRun.states_iff` is its exact
form: where one step keeps the property exactly when it meets a condition, the property holds in
every state of a run if and only if every step of the run meets the condition.
-/

namespace Run

variable {S L : Type}

/-- A finite run from a state. -/
inductive IsRun (step : S → L → S → Prop) : S → List (L × S) → Prop
  | nil (s : S) : IsRun step s []
  | cons {s t : S} {l : L} {tr : List (L × S)} :
      step s l t → IsRun step t tr → IsRun step s ((l, t) :: tr)

/-- The state a run ends in. -/
def final (s : S) : List (L × S) → S
  | [] => s
  | (_, t) :: tr => final t tr

/-- The states of a run, the first one included. -/
def states (s : S) (tr : List (L × S)) : List S := s :: tr.map Prod.snd

/-- The steps of a run, each with the state it starts from. -/
def steps (s : S) : List (L × S) → List (S × L × S)
  | [] => []
  | (l, t) :: tr => (s, l, t) :: steps t tr

theorem final_append (s : S) (tr₁ tr₂ : List (L × S)) :
    final s (tr₁ ++ tr₂) = final (final s tr₁) tr₂ := by
  induction tr₁ generalizing s with
  | nil => rfl
  | cons x tr₁ ih => exact ih x.2

theorem steps_append (s : S) (tr₁ tr₂ : List (L × S)) :
    steps s (tr₁ ++ tr₂) = steps s tr₁ ++ steps (final s tr₁) tr₂ := by
  induction tr₁ generalizing s with
  | nil => rfl
  | cons x tr₁ ih => exact congrArg (List.cons _) (ih x.2)

theorem final_mem_states (s : S) (tr : List (L × S)) : final s tr ∈ states s tr := by
  induction tr generalizing s with
  | nil => exact List.mem_singleton.mpr rfl
  | cons x tr ih => exact List.mem_cons_of_mem _ (ih x.2)

variable {step : S → L → S → Prop}

theorem IsRun.append {s : S} {tr₁ tr₂ : List (L × S)} (h₁ : IsRun step s tr₁)
    (h₂ : IsRun step (final s tr₁) tr₂) : IsRun step s (tr₁ ++ tr₂) := by
  induction h₁ with
  | nil s => exact h₂
  | cons hstep _ ih => exact .cons hstep (ih h₂)

/-- The steps of a run are steps. -/
theorem IsRun.step_of_mem {s : S} {tr : List (L × S)} (hrun : IsRun step s tr) :
    ∀ x ∈ steps s tr, step x.1 x.2.1 x.2.2 := by
  induction hrun with
  | nil s => exact fun _ hx => nomatch hx
  | cons h _ ih =>
    intro x hx
    rcases List.mem_cons.mp hx with rfl | hx
    · exact h
    · exact ih x hx

/-- **The invariant rule.** A property of the first state that every step preserves holds in every
state of the run. -/
theorem IsRun.invariant (Inv : S → Prop) (hstep : ∀ s l t, step s l t → Inv s → Inv t)
    {s : S} {tr : List (L × S)} (hrun : IsRun step s tr) (hs : Inv s) :
    ∀ t ∈ states s tr, Inv t := by
  induction hrun with
  | nil s =>
    intro t ht
    rw [List.mem_singleton.mp ht]
    exact hs
  | cons h _ ih =>
    intro t ht
    rcases List.mem_cons.mp ht with rfl | ht
    · exact hs
    · exact ih (hstep _ _ _ h hs) t ht

/-- The invariant rule for a run each of whose steps meets a condition. -/
theorem IsRun.invariant_of_steps (Inv : S → Prop) (Ok : S → L → Prop)
    (hstep : ∀ s l t, step s l t → Ok s l → Inv s → Inv t) {s : S} {tr : List (L × S)}
    (hrun : IsRun step s tr) (hok : ∀ x ∈ steps s tr, Ok x.1 x.2.1) (hs : Inv s) :
    ∀ t ∈ states s tr, Inv t := by
  -- induction on the run; the first step is allowed, and so are those of the rest
  induction hrun with
  | nil s =>
    intro t ht
    rw [List.mem_singleton.mp ht]
    exact hs
  | @cons s t l tr h _ ih =>
    have h_t : Inv t := hstep _ _ _ h (hok (s, l, t) List.mem_cons_self) hs
    intro u hu
    rcases List.mem_cons.mp hu with rfl | hu
    · exact hs
    · exact ih (fun x hx => hok x (List.mem_cons_of_mem _ hx)) h_t u hu

/-- The invariant rule, at the last state. -/
theorem IsRun.final_invariant (Inv : S → Prop) (hstep : ∀ s l t, step s l t → Inv s → Inv t)
    {s : S} {tr : List (L × S)} (hrun : IsRun step s tr) (hs : Inv s) : Inv (final s tr) :=
  hrun.invariant Inv hstep hs _ (final_mem_states s tr)

/-- **The exact invariant rule, with a property of the steps.** Let `Base` be an invariant under
which a step from a state with `Inv` has the property `P` and leads to a state with `Inv` if and
only if it meets `Ok`. Then the steps of a run have `P` and its states `Inv` if and only if each of
its steps meets `Ok`. -/
theorem IsRun.steps_and_states_iff (Base Inv : S → Prop) (P Ok : S → L → Prop)
    (hbase : ∀ s l t, step s l t → Base s → Base t)
    (hstep : ∀ s l t, step s l t → Base s → Inv s → (P s l ∧ Inv t ↔ Ok s l))
    {s : S} {tr : List (L × S)} (hrun : IsRun step s tr) (hb : Base s) (hs : Inv s) :
    ((∀ x ∈ steps s tr, P x.1 x.2.1) ∧ ∀ t ∈ states s tr, Inv t) ↔
      ∀ x ∈ steps s tr, Ok x.1 x.2.1 := by
  induction hrun with
  | nil s =>
    refine ⟨?_, ?_⟩
    · intro _ x hx
      exact absurd hx List.not_mem_nil
    · intro _
      refine ⟨fun x hx => absurd hx List.not_mem_nil, ?_⟩
      intro t ht
      rw [List.mem_singleton.mp ht]
      exact hs
  | @cons s t l tr h _ ih =>
    -- a step is as it should be and keeps the invariant exactly when it meets the condition
    have h_iff := hstep _ _ _ h hb hs
    have h_b := hbase _ _ _ h hb
    -- the run is in order, so each of its steps met the condition
    refine ⟨?_, ?_⟩
    · rintro ⟨h_steps, h_states⟩ x hx
      have h_t : Inv t := h_states t (List.mem_cons_of_mem _ List.mem_cons_self)
      rcases List.mem_cons.mp hx with rfl | hx
      · exact h_iff.mp ⟨h_steps _ List.mem_cons_self, h_t⟩
      · exact (ih h_b h_t).mp ⟨fun y hy => h_steps y (List.mem_cons_of_mem _ hy),
          fun u hu => h_states u (List.mem_cons_of_mem _ hu)⟩ x hx
    · -- and if every step meets it, step by step the run is in order
      intro hok
      have h_first := h_iff.mpr (hok (s, l, t) List.mem_cons_self)
      have h_rest := (ih h_b h_first.2).mpr fun x hx => hok x (List.mem_cons_of_mem _ hx)
      refine ⟨?_, ?_⟩
      · intro x hx
        rcases List.mem_cons.mp hx with rfl | hx
        · exact h_first.1
        · exact h_rest.1 x hx
      · intro u hu
        rcases List.mem_cons.mp hu with rfl | hu
        · exact hs
        · exact h_rest.2 u hu

/-- **The exact invariant rule.** Let `Base` be an invariant under which a step from a state with
`Inv` leads to one with `Inv` if and only if it meets `Ok`. Then a run stays in `Inv` if and only
if each of its steps meets `Ok`. -/
theorem IsRun.states_iff (Base Inv : S → Prop) (Ok : S → L → Prop)
    (hbase : ∀ s l t, step s l t → Base s → Base t)
    (hstep : ∀ s l t, step s l t → Base s → Inv s → (Inv t ↔ Ok s l))
    {s : S} {tr : List (L × S)} (hrun : IsRun step s tr) (hb : Base s) (hs : Inv s) :
    (∀ t ∈ states s tr, Inv t) ↔ ∀ x ∈ steps s tr, Ok x.1 x.2.1 := by
  have h_iff := hrun.steps_and_states_iff Base Inv (fun _ _ => True) Ok hbase
    (fun s l t h hb hs => (and_iff_right trivial).trans (hstep s l t h hb hs)) hb hs
  exact (and_iff_right fun _ _ => trivial).symm.trans h_iff

/-- **Two properties that agree on an invariant.** If every step from a state with the one of them
keeps the invariant, a run stays in the one if and only if it stays in the other. -/
theorem IsRun.states_congr (Inv : S → Prop) {P Q : S → Prop} (h_iff : ∀ s, Inv s → (P s ↔ Q s))
    (hstep : ∀ s l t, step s l t → Q s → Inv s → Inv t) {s : S} {tr : List (L × S)}
    (hrun : IsRun step s tr) (hs : Inv s) :
    (∀ t ∈ states s tr, P t) ↔ ∀ t ∈ states s tr, Q t := by
  induction hrun with
  | nil s =>
    refine forall₂_congr fun t ht => ?_
    rw [List.mem_singleton.mp ht]
    exact h_iff s hs
  | @cons s t l tr h _ ih =>
    show (∀ u ∈ s :: states t tr, P u) ↔ ∀ u ∈ s :: states t tr, Q u
    rw [List.forall_mem_cons, List.forall_mem_cons, h_iff s hs]
    exact and_congr_right fun h_q => ih (hstep s l t h h_q hs)

/-! ### Splitting a run -/

/-- A step of a run splits it into what came before and what comes after. -/
theorem mem_steps_iff {s : S} {tr : List (L × S)} {x : S × L × S} :
    x ∈ steps s tr ↔
      ∃ before l t after, tr = before ++ (l, t) :: after ∧ x = (final s before, l, t) := by
  -- induction on the run: the step is the first one or one of the rest
  induction tr generalizing s with
  | nil =>
    refine ⟨?_, ?_⟩
    · intro h
      exact absurd h List.not_mem_nil
    · rintro ⟨before, l, t, after, h, -⟩
      exact absurd h.symm (List.append_ne_nil_of_right_ne_nil _ (List.cons_ne_nil _ _))
  | cons y tr ih =>
    refine ⟨?_, ?_⟩
    · intro h
      rcases List.mem_cons.mp h with rfl | h
      · exact ⟨[], y.1, y.2, tr, rfl, rfl⟩
      · obtain ⟨before, l, t, after, rfl, rfl⟩ := ih.mp h
        exact ⟨y :: before, l, t, after, rfl, rfl⟩
    · -- the steps before it are known
      rintro ⟨before, l, t, after, h_split, rfl⟩
      cases before with
      | nil =>
        obtain ⟨rfl, rfl⟩ := List.cons.inj h_split
        exact List.mem_cons_self
      | cons z before =>
        obtain ⟨rfl, rfl⟩ := List.cons.inj h_split
        exact List.mem_cons_of_mem _ (ih.mpr ⟨before, l, t, after, rfl, rfl⟩)

/-- The part of a run before a point is a run, and so is the rest. -/
theorem IsRun.of_append {s : S} {tr₁ tr₂ : List (L × S)} (h : IsRun step s (tr₁ ++ tr₂)) :
    IsRun step s tr₁ ∧ IsRun step (final s tr₁) tr₂ := by
  induction tr₁ generalizing s with
  | nil => exact ⟨.nil s, h⟩
  | cons x tr₁ ih =>
    cases h with
    | cons h_step h_rest => exact ⟨.cons h_step (ih h_rest).1, (ih h_rest).2⟩

/-! ### Executing labels -/

/-- Execute labels from a state, as far as they are enabled. -/
def trace (next : S → L → Option S) (s : S) : List L → List (L × S)
  | [] => []
  | l :: ls =>
    match next s l with
    | some t => (l, t) :: trace next t ls
    | none => []

/-- An execution is a run. -/
theorem isRun_trace (next : S → L → Option S) (s : S) (ls : List L) :
    IsRun (fun s l t => next s l = some t) s (trace next s ls) := by
  induction ls generalizing s with
  | nil => exact .nil s
  | cons l ls ih =>
    unfold trace
    cases h : next s l with
    | none => exact .nil s
    | some t => exact .cons h (ih t)

/-- Follow labels from a state, where each has one outcome. -/
def follow (next : S → L → S) (s : S) : List L → List (L × S)
  | [] => []
  | l :: ls => (l, next s l) :: follow next (next s l) ls

theorem isRun_follow (next : S → L → S) (s : S) (ls : List L) :
    IsRun (fun s l t => t = next s l) s (follow next s ls) := by
  induction ls generalizing s with
  | nil => exact .nil s
  | cons l ls ih => exact .cons rfl (ih (next s l))

theorem final_follow (next : S → L → S) (s : S) (ls : List L) :
    final s (follow next s ls) = ls.foldl next s := by
  induction ls generalizing s with
  | nil => rfl
  | cons l ls ih => exact ih (next s l)

end Run
