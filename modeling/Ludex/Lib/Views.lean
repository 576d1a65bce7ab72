import Mathlib.Tactic.Common
import Ludex.Lib.Run

/-!
# What a view does not show

A view of a state leaves a part of it out. Two results **agree** when both are the same error, or both
are values that the view cannot tell apart; the view is given by any relation on the values. A
computation that does not depend on what is left out gives results that agree, and the rules prove it
along its construction: `Agree.bind`, `Agree.map`, `Agree.mapError`, and `Agree.foldlM` for a loop.

`Run.IsRun.hide` lifts this to runs: steps of which the view shows nothing are left out, and the others
are steps of a second system. Errors, values, states and labels are arbitrary types.
-/

namespace Except

variable {ε ε' α β α' β' : Type}

/-- Two results that a view cannot tell apart. -/
inductive Agree (R : α → β → Prop) : Except ε α → Except ε β → Prop
  | ok {a : α} {b : β} : R a b → Agree R (.ok a) (.ok b)
  | error (e : ε) : Agree R (.error e) (.error e)

theorem toOption_eq_some_iff {x : Except ε α} {a : α} : x.toOption = some a ↔ x = .ok a := by
  cases x with
  | ok b => exact ⟨fun h => congrArg _ (Option.some.inj h), fun h => congrArg _ (Except.ok.inj h)⟩
  | error e =>
    refine iff_of_false (fun h => ?_) fun h => ?_
    · cases h
    · cases h

namespace Agree

variable {R : α → β → Prop} {x : Except ε α} {y : Except ε β}

/-- A value on the left has a value on the right. -/
theorem of_ok (h : Agree R x y) {a : α} (h_x : x = .ok a) : ∃ b, y = .ok b ∧ R a b := by
  cases h with
  | ok h_ab =>
    obtain rfl := Except.ok.inj h_x
    exact ⟨_, rfl, h_ab⟩
  | error e => exact nomatch h_x

theorem mono {S : α → β → Prop} (h : Agree R x y) (h_mono : ∀ a b, R a b → S a b) : Agree S x y := by
  cases h with
  | ok h_ab => exact .ok (h_mono _ _ h_ab)
  | error e => exact .error e

/-- **Sequencing.** The rest may use where the first part has come to on both sides. -/
theorem bind {S : α' → β' → Prop} {f : α → Except ε α'} {g : β → Except ε β'} (h : Agree R x y)
    (h_rest : ∀ a b, x = .ok a → y = .ok b → R a b → Agree S (f a) (g b)) :
    Agree S (x >>= f) (y >>= g) := by
  cases h with
  | ok h_ab => exact h_rest _ _ rfl rfl h_ab
  | error e => exact .error e

theorem map {S : α' → β' → Prop} {f : α → α'} {g : β → β'} (h : Agree R x y)
    (h_fg : ∀ a b, R a b → S (f a) (g b)) : Agree S (x.map f) (y.map g) := by
  cases h with
  | ok h_ab => exact .ok (h_fg _ _ h_ab)
  | error e => exact .error e

theorem mapError (h : Agree R x y) (f : ε → ε') : Agree R (x.mapError f) (y.mapError f) := by
  cases h with
  | ok h_ab => exact .ok h_ab
  | error e => exact .error _

/-- **Loops.** -/
theorem foldlM {ι : Type} {f : α → ι → Except ε α} {g : β → ι → Except ε β}
    (h_step : ∀ i a b, R a b → Agree R (f a i) (g b i)) (is : List ι) {a : α} {b : β}
    (h : R a b) : Agree R (is.foldlM f a) (is.foldlM g b) := by
  induction is generalizing a b with
  | nil => exact .ok h
  | cons i is ih =>
    rw [List.foldlM_cons, List.foldlM_cons]
    exact (h_step i a b h).bind fun a' b' _ _ h' => ih h'

end Agree

end Except

namespace Run

/-- **Hiding steps.** Let every step that shows nothing be one that the view does not see, and every
other one be matched by a step of the second system. Then what is shown of a run is a run of the
second system. -/
theorem IsRun.hide {S S' L K : Type} {step : S → L → S → Prop} {step' : S' → K → S' → Prop}
    (R : S → S' → Prop) (shown : L → Option K)
    (h_hidden : ∀ s l t s', step s l t → R s s' → shown l = none → R t s')
    (h_shown : ∀ s l t s' k, step s l t → R s s' → shown l = some k → ∃ t', step' s' k t' ∧ R t t')
    {s : S} {tr : List (L × S)} (hrun : IsRun step s tr) {s' : S'} (h : R s s') :
    ∃ tr' : List (K × S'), IsRun step' s' tr' ∧
      tr'.map Prod.fst = tr.filterMap (fun x => shown x.1) ∧ R (final s tr) (final s' tr') := by
  induction hrun generalizing s' with
  | nil s => exact ⟨[], .nil s', rfl, h⟩
  | @cons s t l tr h_step _ ih =>
    cases h_l : shown l with
    | none =>
      obtain ⟨tr', h_run, h_labels, h_final⟩ := ih (h_hidden s l t s' h_step h h_l)
      exact ⟨tr', h_run, by
        rw [h_labels, List.filterMap_cons_none (f := fun x : L × S => shown x.1) h_l], h_final⟩
    | some k =>
      obtain ⟨t', h_step', h_t⟩ := h_shown s l t s' k h_step h h_l
      obtain ⟨tr', h_run, h_labels, h_final⟩ := ih h_t
      refine ⟨(k, t') :: tr', .cons h_step' h_run, ?_, h_final⟩
      rw [List.map_cons, h_labels, List.filterMap_cons_some (f := fun x : L × S => shown x.1) h_l]

end Run
