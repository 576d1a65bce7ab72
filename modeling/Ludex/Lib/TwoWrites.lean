import Mathlib.Data.List.Basic
import Mathlib.Data.List.Perm.Basic

/-!
# Calls that write two stores

A call writes one store, and some time later it writes the same to another store. Each of the two
writes is atomic, but not both together, so that between them any other call may take its steps. An
observer notes the writes of either store in the order in which they happen.

`Protocol` is a kind of such calls: what a step of a call does, what the two stores hold for an
observer, and how far a call has come. That a step does nothing, or makes one of the two writes in turn,
is a part of it (`HalfStep`). In every run both stores are what their writes have made of them, and the
first has been written as the second has been or will be (`Inv.turn`). Once all calls have returned, the
stores have therefore been written by the same writes, each in an order of its own (`Inv.returned`);
whether they agree is then a matter of the two orders.
-/

namespace TwoWrites

variable {T S C V W : Type}

/-- How far a call has come. -/
inductive Progress (W : Type) where
  | pending
  /-- The first store has been written, the second has not. -/
  | owing (write : W)
  | returned
deriving DecidableEq

/-- The write of the second store that is owed. -/
def Progress.owed : Progress W → Option W
  | .owing write => some write
  | .pending | .returned => none

/-- What two stores hold, and the writes that an observer has noted. -/
structure View (V W : Type) where
  first : V
  second : V
  firstWrites : List W
  secondWrites : List W

/-- What a step of a call may do to the stores, given how far the call was and is then. -/
inductive HalfStep (put : V → W → V) : View V W → Progress W → View V W → Progress W → Prop
  | nothing {v : View V W} {x x' : Progress W} (h_owed : x'.owed = x.owed) : HalfStep put v x v x'
  | first (v : View V W) (write : W) :
      HalfStep put v .pending
        { v with first := put v.first write, firstWrites := v.firstWrites ++ [write] }
        (.owing write)
  | second (v : View V W) (write : W) :
      HalfStep put v (.owing write)
        { v with second := put v.second write, secondWrites := v.secondWrites ++ [write] }
        .returned

/-- Calls in `C` on stores in `S`. What a step does depends on something in `T` as well. -/
structure Protocol (T S C V W : Type) where
  step : T → S → C → S × C
  view : S → View V W
  progress : C → Progress W
  put : V → W → V
  moves : ∀ t s c, HalfStep put (view s) (progress c) (view (step t s c).1) (progress (step t s c).2)

/-- **One process takes a step**: what it shows is replaced, and what the others show stays. -/
theorem filterMap_set {α β : Type} (f : α → Option β) {l : List α} {i : ℕ} {a : α}
    (h : l[i]? = some a) (a' : α) :
    ∃ rest, (l.filterMap f).Perm ((f a).toList ++ rest) ∧
      ((l.set i a').filterMap f).Perm ((f a').toList ++ rest) := by
  obtain ⟨h_lt, rfl⟩ := List.getElem?_eq_some_iff.mp h
  -- the elements before it, and those after it
  have h_split : ∀ a, (l.take i ++ a :: l.drop (i + 1)).filterMap f =
      (l.take i).filterMap f ++ ((f a).toList ++ (l.drop (i + 1)).filterMap f) := by
    intro a
    simp only [List.filterMap_eq_flatMap_toList, List.flatMap_append, List.flatMap_cons]
  refine ⟨(l.take i).filterMap f ++ (l.drop (i + 1)).filterMap f, ?_, ?_⟩
  · have h_l : l.take i ++ l[i] :: l.drop (i + 1) = l := by
      rw [List.getElem_cons_drop, List.take_append_drop]
    conv_lhs => rw [← h_l]
    rw [h_split]
    exact List.perm_append_comm_assoc _ _ _
  · rw [List.set_eq_take_append_cons_drop, if_pos h_lt, h_split]
    exact List.perm_append_comm_assoc _ _ _

namespace Protocol

variable (p : Protocol T S C V W)

/-- The call at a position takes a step, if there is one. -/
def turn (i : ℕ) (t : T) (s : S) (calls : List C) : S × List C :=
  match calls[i]? with
  | none => (s, calls)
  | some c => ((p.step t s c).1, calls.set i (p.step t s c).2)

/-- The writes of the second store that are owed. -/
def owed (calls : List C) : List W := calls.filterMap fun c => (p.progress c).owed

/-- **The invariant.** Both stores are what their writes have made of them, and the first has been
written as the second has been or will be. -/
structure Inv (first second : V) (s : S) (calls : List C) : Prop where
  first : (p.view s).first = (p.view s).firstWrites.foldl p.put first
  second : (p.view s).second = (p.view s).secondWrites.foldl p.put second
  writes : (p.view s).firstWrites.Perm ((p.view s).secondWrites ++ p.owed calls)

variable {p} {i : ℕ} {t : T} {s : S} {calls : List C} {first second : V}

theorem turn_of_none (h : calls[i]? = none) : p.turn i t s calls = (s, calls) := by
  unfold turn
  rw [h]

theorem turn_of_call {c : C} (h : calls[i]? = some c) :
    p.turn i t s calls = ((p.step t s c).1, calls.set i (p.step t s c).2) := by
  unfold turn
  rw [h]

/-- Nothing is owed before a call has taken its first step. -/
theorem owed_pending (h : ∀ c ∈ calls, p.progress c = .pending) : p.owed calls = [] := by
  refine List.filterMap_eq_nil_iff.mpr fun c hc => ?_
  rw [h c hc]
  rfl

theorem owed_returned (h : ∀ c ∈ calls, p.progress c = .returned) : p.owed calls = [] := by
  refine List.filterMap_eq_nil_iff.mpr fun c hc => ?_
  rw [h c hc]
  rfl

/-- **A turn** writes nothing, or the first store, which the second is then owed, or the second store,
which has been owed. -/
theorem turn_cases (p : Protocol T S C V W) (i : ℕ) (t : T) (s : S) (calls : List C) :
    let after := p.turn i t s calls
    (p.view after.1 = p.view s ∧ (p.owed after.2).Perm (p.owed calls)) ∨
      (∃ c write, calls[i]? = some c ∧ p.progress (p.step t s c).2 = .owing write ∧
        p.progress c = .pending ∧
        p.view after.1 = { p.view s with
          first := p.put (p.view s).first write
          firstWrites := (p.view s).firstWrites ++ [write] } ∧
        (p.owed after.2).Perm (write :: p.owed calls)) ∨
      ∃ write, p.view after.1 = { p.view s with
          second := p.put (p.view s).second write
          secondWrites := (p.view s).secondWrites ++ [write] } ∧
        (p.owed calls).Perm (write :: p.owed after.2) := by
  intro after
  cases h_call : calls[i]? with
  | none =>
    have h_after : after = (s, calls) := turn_of_none h_call
    rw [h_after]
    exact .inl ⟨rfl, .refl _⟩
  | some c =>
    have h_after : after = ((p.step t s c).1, calls.set i (p.step t s c).2) := turn_of_call h_call
    -- what the other calls owe stays
    obtain ⟨rest, h_old, h_new⟩ :=
      filterMap_set (fun c => (p.progress c).owed) h_call (p.step t s c).2
    have h_old : (p.owed calls).Perm ((p.progress c).owed.toList ++ rest) := h_old
    have h_new : (p.owed after.2).Perm ((p.progress (p.step t s c).2).owed.toList ++ rest) := by
      rw [h_after]
      exact h_new
    have h_view : p.view after.1 = p.view (p.step t s c).1 := by rw [h_after]
    have h_move := p.moves t s c
    generalize p.view (p.step t s c).1 = v, h_x : p.progress c = x,
      h_x' : p.progress (p.step t s c).2 = x' at h_move h_view h_old h_new
    cases h_move with
    | nothing h_owed =>
      rw [h_owed] at h_new
      exact .inl ⟨h_view, h_new.trans h_old.symm⟩
    | first write =>
      exact .inr (.inl ⟨c, write, rfl, h_x', h_x, h_view, h_new.trans (h_old.symm.cons _)⟩)
    | second write => exact .inr (.inr ⟨write, h_view, h_old.trans (h_new.symm.cons _)⟩)

/-- **One step of one call** keeps the invariant. -/
theorem Inv.turn (h : p.Inv first second s calls) (i : ℕ) (t : T) :
    p.Inv first second (p.turn i t s calls).1 (p.turn i t s calls).2 := by
  rcases p.turn_cases i t s calls with ⟨h_view, h_owed⟩ | ⟨c, write, -, -, -, h_view, h_owed⟩ |
    ⟨write, h_view, h_owed⟩
  all_goals
    refine ⟨?_, ?_, ?_⟩
    all_goals rw [h_view]
  · -- nothing is written
    exact h.first
  · exact h.second
  · exact h.writes.trans (h_owed.symm.append_left _)
  · -- the first store is written, and the second is owed
    rw [List.foldl_append, ← h.first]
    rfl
  · exact h.second
  · have h_first := h.writes.append_right [write]
    have h_swap : (p.owed calls ++ [write]).Perm (write :: p.owed calls) := List.perm_append_comm
    rw [List.append_assoc] at h_first
    exact h_first.trans ((h_swap.trans h_owed.symm).append_left _)
  · -- the second store is written
    exact h.first
  · rw [List.foldl_append, ← h.second]
    rfl
  · refine h.writes.trans ?_
    rw [List.append_assoc]
    exact h_owed.append_left _

/-- **Once all calls have returned**, the stores have been written by the same writes. -/
theorem Inv.returned (h : p.Inv first second s calls)
    (h_returned : ∀ c ∈ calls, p.progress c = .returned) :
    (p.view s).firstWrites.Perm (p.view s).secondWrites := by
  have h_writes := h.writes
  rwa [owed_returned h_returned, List.append_nil] at h_writes

end Protocol

end TwoWrites
