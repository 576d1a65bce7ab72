import Mathlib.Data.Finset.Basic
import Mathlib.Data.List.Chain
import Mathlib.Data.Fintype.EquivFin
import Mathlib.Logic.Relation
import Mathlib.Order.WellFounded

/-!
# Ancestors in a tree

An iterator that goes from an item to the next one, `successors`, and what it is for such an iterator
to yield the items of a list and to end (`Yields`).

`FiniteTree` is a finite tree given by the parents of its nodes. From each of its nodes there is one
way to the root (`exists_path`, `IsPath.unique`), and an iterator that goes from a node to its parent,
and ends at the root, yields what is on it (`yields_path`).
-/

namespace Ancestry

variable {α : Type}

/-! ### Iterators -/

/-- The items of an iterator that goes on from an item to its successor, and ends where there is
none. -/
def successors (first : Option α) (succ : α → Option α) : ℕ → Option α
  | 0 => first
  | n + 1 => (successors first succ n).bind succ

/-- The items are those of the list, and then there are no more. -/
def Yields (items : ℕ → Option α) (l : List α) : Prop := ∀ n, items n = l[n]?

theorem successors_none (succ : α → Option α) (n : ℕ) : successors none succ n = none := by
  induction n with
  | zero => rfl
  | succ n ih => rw [successors, ih, Option.bind_none]

theorem successors_some_succ (a : α) (succ : α → Option α) (n : ℕ) :
    successors (some a) succ (n + 1) = successors (succ a) succ n := by
  induction n with
  | zero => rfl
  | succ n ih => rw [successors, ih, successors]

theorem yields_nil (succ : α → Option α) : Yields (successors none succ) [] := successors_none succ

/-- **An item, and then what follows it.** -/
theorem yields_cons {succ : α → Option α} {a : α} {l : List α}
    (h : Yields (successors (succ a) succ) l) : Yields (successors (some a) succ) (a :: l) := by
  intro n
  cases n with
  | zero => rfl
  | succ n => rw [successors_some_succ, List.getElem?_cons_succ, h n]

/-- What is yielded is one list. -/
theorem Yields.unique {items : ℕ → Option α} {l l' : List α} (h : Yields items l)
    (h' : Yields items l') : l = l' :=
  List.ext_getElem? fun n => (h n).symm.trans (h' n)

/-! ### Trees -/

/-- `b` is the parent of `a`, which is a node and not the root. -/
def Climbs (nodes : Finset α) (root : α) (parent : α → α) (a b : α) : Prop :=
  a ∈ nodes ∧ a ≠ root ∧ parent a = b

/-- A finite tree: the parent of a node other than the root is a node, and no node is above itself. -/
structure FiniteTree (α : Type) where
  nodes : Finset α
  root : α
  parent : α → α
  parent_mem : ∀ a ∈ nodes, a ≠ root → parent a ∈ nodes
  acyclic : ∀ a, ¬ Relation.TransGen (Climbs nodes root parent) a a

/-- Where parents are less deep than their children, no node is above itself. -/
theorem not_transGen_of_depth {nodes : Finset α} {root : α} {parent : α → α} (depth : α → ℕ)
    (h : ∀ a b, Climbs nodes root parent a b → depth b < depth a) (a : α) :
    ¬ Relation.TransGen (Climbs nodes root parent) a a := by
  have h_lt : ∀ b, Relation.TransGen (Climbs nodes root parent) a b → depth b < depth a := by
    intro b h_ab
    induction h_ab with
    | single h_step => exact h _ _ h_step
    | tail _ h_step ih => exact (h _ _ h_step).trans ih
  exact fun h_cycle => lt_irrefl _ (h_lt a h_cycle)

namespace FiniteTree

variable (t : FiniteTree α)

/-- The way from a node to the root: each is the parent of the one before it, and only the last one
is the root. -/
structure IsPath (a : α) (l : List α) : Prop where
  links : (a :: l).IsChain (Climbs t.nodes t.root t.parent)
  ends : (a :: l).getLast (List.cons_ne_nil a l) = t.root

variable {t}

theorem isPath_root : t.IsPath t.root [] := ⟨List.isChain_singleton _, rfl⟩

theorem isPath_cons {a b : α} {l : List α} :
    t.IsPath a (b :: l) ↔ Climbs t.nodes t.root t.parent a b ∧ t.IsPath b l := by
  refine ⟨fun h => ?_, fun h => ⟨List.isChain_cons_cons.mpr ⟨h.1, h.2.links⟩, ?_⟩⟩
  · obtain ⟨h_link, h_rest⟩ := List.isChain_cons_cons.mp h.links
    refine ⟨h_link, h_rest, ?_⟩
    rw [← h.ends, List.getLast_cons (List.cons_ne_nil b l)]
  · rw [List.getLast_cons (List.cons_ne_nil b l), h.2.ends]

/-- There is one way to the root. -/
theorem IsPath.unique {a : α} {l l' : List α} (h : t.IsPath a l) (h' : t.IsPath a l') : l = l' := by
  induction l generalizing a l' with
  | nil =>
    cases l' with
    | nil => rfl
    | cons b l' =>
      -- nothing is above the root
      obtain ⟨⟨-, h_ne, -⟩, -⟩ := isPath_cons.mp h'
      exact absurd h.ends h_ne
  | cons b l ih =>
    obtain ⟨⟨-, h_ne, rfl⟩, h_rest⟩ := isPath_cons.mp h
    cases l' with
    | nil => exact absurd h'.ends h_ne
    | cons b' l' =>
      obtain ⟨⟨-, -, rfl⟩, h_rest'⟩ := isPath_cons.mp h'
      rw [ih h_rest h_rest']

/-- Going up a finite tree comes to an end. -/
theorem wellFounded (t : FiniteTree α) :
    WellFounded fun b a : t.nodes => Relation.TransGen (Climbs t.nodes t.root t.parent) a.1 b.1 := by
  have h_trans : IsTrans t.nodes fun b a =>
      Relation.TransGen (Climbs t.nodes t.root t.parent) a.1 b.1 := ⟨fun _ _ _ h h' => h'.trans h⟩
  have h_irrefl : Std.Irrefl fun b a : t.nodes =>
      Relation.TransGen (Climbs t.nodes t.root t.parent) a.1 b.1 := ⟨fun a => t.acyclic a.1⟩
  exact Finite.wellFounded_of_trans_of_irrefl _

/-- **From every node** there is a way to the root. -/
theorem exists_path {a : α} (h : a ∈ t.nodes) : ∃ l, t.IsPath a l := by
  suffices h_all : ∀ x : t.nodes, ∃ l, t.IsPath x.1 l from h_all ⟨a, h⟩
  intro x
  -- induction along the parents, which come to the root
  induction x using t.wellFounded.induction with
  | _ x ih =>
    by_cases h_root : x.1 = t.root
    · exact ⟨[], h_root ▸ isPath_root⟩
    · have h_climbs : Climbs t.nodes t.root t.parent x.1 (t.parent x.1) := ⟨x.2, h_root, rfl⟩
      obtain ⟨l, h_l⟩ := ih ⟨t.parent x.1, t.parent_mem x.1 x.2 h_root⟩ (.single h_climbs)
      exact ⟨_ :: l, isPath_cons.mpr ⟨h_climbs, h_l⟩⟩

theorem IsPath.getLast? {a : α} {l : List α} (h : t.IsPath a l) (h_ne : a ≠ t.root) :
    l.getLast? = some t.root := by
  cases l with
  | nil => exact absurd h.ends h_ne
  | cons b l =>
    rw [← h.ends, List.getLast_cons (List.cons_ne_nil b l), List.getLast?_eq_some_getLast]

/-- **An iterator that goes up the tree** yields what is on the way to the root. -/
theorem yields_path {succ : α → Option α} (h_root : succ t.root = none)
    (h_succ : ∀ a b, Climbs t.nodes t.root t.parent a b → succ a = some b) {a : α} {l : List α}
    (h : t.IsPath a l) : Yields (successors (succ a) succ) l := by
  -- induction on the path: each step of the search is one step up
  induction l generalizing a with
  | nil =>
    rw [show a = t.root from h.ends, h_root]
    exact yields_nil succ
  | cons b l ih =>
    obtain ⟨h_climbs, h_rest⟩ := isPath_cons.mp h
    rw [h_succ a b h_climbs]
    exact yields_cons (ih h_rest)

end FiniteTree

end Ancestry
