import Mathlib.Data.List.AList
import Mathlib.Data.List.Basic
import Mathlib.Data.List.Induction
import Mathlib.Logic.Function.Basic

/-!
# Registers under writes

A family of registers, each of which holds what was last written to it (`foldl_put`). Two families
that are written about the same keys are equal exactly if for every key the last write is the same,
and without any the families agreed before (`foldl_put_eq_iff`). A register that is overwritten by
values which may not be given holds the last one given (`get_foldl`).

A finite map into which pairs with distinct keys are put holds exactly these, next to what it held
under other keys (`lookup_foldl_insert`).
-/

namespace Registers

variable {K V : Type} [DecidableEq K]

/-- Write a register. -/
def put (registers : K → V) (write : K × V) : K → V := Function.update registers write.1 write.2

/-- The last write about a key. -/
def last (key : K) (writes : List (K × V)) : Option V := writes.reverse.lookup key

theorem last_append_self (key : K) (writes : List (K × V)) (value : V) :
    last key (writes ++ [(key, value)]) = some value := by
  unfold last
  rw [List.reverse_append, List.reverse_singleton, List.singleton_append, List.lookup_cons_self]

theorem last_append_of_ne {key key' : K} (h : key ≠ key') (writes : List (K × V)) (value : V) :
    last key (writes ++ [(key', value)]) = last key writes := by
  unfold last
  rw [List.reverse_append, List.reverse_singleton, List.singleton_append, List.lookup_cons,
    beq_false_of_ne h]

/-- There is no last write if there is none. -/
theorem last_eq_none_iff {key : K} {writes : List (K × V)} :
    last key writes = none ↔ ∀ write ∈ writes, write.1 ≠ key := by
  unfold last
  rw [List.lookup_eq_none_iff]
  simp only [List.mem_reverse, bne_iff_ne]
  exact forall₂_congr fun write _ => ne_comm

/-- **The last write about a key decides** what its register holds. -/
theorem foldl_put (registers : K → V) (writes : List (K × V)) (key : K) :
    writes.foldl put registers key = (last key writes).getD (registers key) := by
  induction writes using List.reverseRecOn with
  | nil => rfl
  | append_singleton writes write ih =>
    obtain ⟨key', value⟩ := write
    rw [List.foldl_append]
    show Function.update (writes.foldl put registers) key' value key = _
    by_cases h_key : key = key'
    · subst h_key
      rw [Function.update_self, last_append_self, Option.getD_some]
    · rw [Function.update_of_ne h_key, last_append_of_ne h_key, ih]

/-- **Two families of registers**, written about the same keys, agree on a key if and only if the
last writes about it do, and the registers did where there is none. -/
theorem foldl_put_eq_iff {registers registers' : K → V} {writes writes' : List (K × V)} {key : K}
    (h_keys : last key writes = none ↔ last key writes' = none) :
    writes.foldl put registers key = writes'.foldl put registers' key ↔
      last key writes = last key writes' ∧
        (last key writes = none → registers key = registers' key) := by
  rw [foldl_put, foldl_put]
  cases h_last : last key writes with
  | none =>
    rw [h_keys.mp h_last]
    simp
  | some value =>
    obtain ⟨value', h_value'⟩ := Option.ne_none_iff_exists'.mp
      (mt h_keys.mpr (by rw [h_last]; exact nofun))
    rw [h_value']
    simp

/-- Lists with the same elements are about the same keys. -/
theorem last_eq_none_congr {writes writes' : List (K × V)} (h : writes.Perm writes') (key : K) :
    last key writes = none ↔ last key writes' = none := by
  rw [last_eq_none_iff, last_eq_none_iff]
  exact forall_congr' fun write => imp_congr_left h.mem_iff

/-! ### Values that may not be given -/

section Given

variable {V : Type}

/-- The last value that is given. -/
def lastGiven (xs : List (Option V)) : Option V := (xs.filterMap id).getLast?

theorem lastGiven_append_singleton (xs : List (Option V)) (x : Option V) :
    lastGiven (xs ++ [x]) = x.or (lastGiven xs) := by
  unfold lastGiven
  rw [List.filterMap_append]
  cases x with
  | none => simp
  | some v => simp

/-- **Overwriting** with whatever is given leaves the last value that is given. -/
theorem get_foldl {S X : Type} {w : S → X → S} {g : S → Option V} {f : X → Option V}
    (h_write : ∀ s x, g (w s x) = (f x).or (g s)) {s : S} (h_s : g s = none) (xs : List X) :
    g (xs.foldl w s) = lastGiven (xs.map f) := by
  induction xs using List.reverseRecOn with
  | nil => exact h_s
  | append_singleton xs x ih =>
    -- the last write decides, unless it gives nothing
    rw [List.foldl_append, List.foldl_cons, List.foldl_nil, h_write, ih, List.map_append,
      List.map_cons, List.map_nil, lastGiven_append_singleton]

theorem lastGiven_eq_none_iff {xs : List (Option V)} : lastGiven xs = none ↔ ∀ x ∈ xs, x = none := by
  unfold lastGiven
  rw [List.getLast?_eq_none_iff, List.filterMap_eq_nil_iff]
  exact Iff.rfl

/-- Values that are given together are last given together. -/
theorem lastGiven_isSome_iff {xs : List (Option V)} :
    (lastGiven xs).isSome = true ↔ ∃ x ∈ xs, x.isSome = true := by
  rw [Option.isSome_iff_ne_none, ne_eq, lastGiven_eq_none_iff]
  push Not
  simp only [Option.isSome_iff_ne_none, ne_eq]

theorem lastGiven_map {W : Type} (f : V → W) (xs : List (Option V)) :
    lastGiven (xs.map (Option.map f)) = (lastGiven xs).map f := by
  induction xs using List.reverseRecOn with
  | nil => rfl
  | append_singleton xs x ih =>
    rw [List.map_append, List.map_singleton, lastGiven_append_singleton, lastGiven_append_singleton,
      ih, Option.map_or]

end Given

/-- **A map collected from distinct keys** has exactly what was collected, and what it had before under
other keys. -/
theorem lookup_foldl_insert {pairs : List (K × V)} (h : (pairs.map Prod.fst).Nodup)
    (map : AList fun _ : K => V) {key : K} {value : V} :
    (pairs.foldl (fun map (key, value) => AList.insert key value map) map).lookup key =
        some value ↔
      (key, value) ∈ pairs ∨ key ∉ pairs.map Prod.fst ∧ map.lookup key = some value := by
  induction pairs generalizing map with
  | nil => simp
  | cons pair pairs ih =>
    obtain ⟨key', value'⟩ := pair
    rw [List.map_cons, List.nodup_cons] at h
    obtain ⟨h_new, h_rest⟩ := h
    rw [List.foldl_cons, ih h_rest]
    by_cases h_key : key = key'
    · -- the pairs that follow have other keys
      subst h_key
      have h_not : (key, value) ∉ pairs := fun h_mem => h_new (List.mem_map.mpr ⟨_, h_mem, rfl⟩)
      rw [AList.lookup_insert]
      simp [h_new, h_not, eq_comm]
    · rw [AList.lookup_insert_ne h_key]
      simp [h_key]

end Registers
