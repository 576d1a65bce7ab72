import Mathlib.Data.List.SplitBy

/-!
# Splitting a list between neighbours

`List.splitBy r` cuts a list between the neighbours that `r` does not relate. Here is what becomes
of the parts when the relation grows, when only the beginning of the list is split, and when a loop
splits it element by element.
-/

namespace Splitting

variable {α : Type} {r r' : α → α → Bool}

/-- Neighbours none of which are related are parts of their own. -/
theorem splitBy_of_isChain_not {l : List α} (h : l.IsChain fun a b => r a b = false) :
    l.splitBy r = l.map fun a => [a] := by
  rw [List.splitBy_eq_iff]
  refine ⟨?_, ?_, ?_, ?_⟩
  · induction l with
    | nil => rfl
    | cons a l ih => rw [List.map_cons, List.flatten_cons, ← ih h.tail, List.singleton_append]
  · simp
  · intro part h_part
    obtain ⟨a, -, rfl⟩ := List.mem_map.mp h_part
    exact List.isChain_singleton a
  · rw [List.isChain_map]
    exact h.imp fun a b h_ab => ⟨List.cons_ne_nil a [], List.cons_ne_nil b [], h_ab⟩

/-- A relation between neighbours carries over to what corresponds to them. -/
theorem isChain_of_forall₂ {β : Type} {R : α → β → Prop} {S : α → α → Prop} {S' : β → β → Prop}
    (h : ∀ a a' b b', R a b → R a' b' → S a a' → S' b b') {l : List α} {m : List β}
    (h_R : List.Forall₂ R l m) (h_S : l.IsChain S) : m.IsChain S' := by
  induction h_R with
  | nil => exact List.isChain_nil
  | cons h_first h_rest ih =>
    cases h_rest with
    | nil => exact List.isChain_singleton _
    | cons h_second _ =>
      obtain ⟨h_pair, h_tail⟩ := List.isChain_cons_cons.mp h_S
      exact List.isChain_cons_cons.mpr ⟨h _ _ _ _ h_first h_second h_pair, ih h_tail⟩

theorem exists_of_forall₂ {β : Type} {R : α → β → Prop} {l : List α} {m : List β}
    (h : List.Forall₂ R l m) {b : β} (hb : b ∈ m) : ∃ a ∈ l, R a b := by
  induction h with
  | nil => exact absurd hb List.not_mem_nil
  | cons h_first _ ih =>
    rcases List.mem_cons.mp hb with rfl | hb
    · exact ⟨_, List.mem_cons_self, h_first⟩
    · obtain ⟨a, ha, h_a⟩ := ih hb
      exact ⟨a, List.mem_cons_of_mem _ ha, h_a⟩

/-- What is read off the parts is read off what corresponds to them. -/
theorem map_eq_of_forall₂ {β γ : Type} {R : α → β → Prop} {f : α → γ} {g : β → γ} {l : List α}
    {m : List β} (h : List.Forall₂ R l m) (h_eq : ∀ a ∈ l, ∀ b, R a b → f a = g b) :
    l.map f = m.map g := by
  induction h with
  | nil => rfl
  | cons h_first _ ih =>
    obtain ⟨h_eq_first, h_eq_rest⟩ := List.forall_mem_cons.mp h_eq
    rw [List.map_cons, List.map_cons, h_eq_first _ h_first, ih h_eq_rest]

/-- Parts that are cut off from each other are split one by one. -/
theorem splitBy_flatten_of_cut {parts : List (List α)} (h_nil : [] ∉ parts)
    (h_cut : parts.IsChain fun p q => ∃ hp hq, r (p.getLast hp) (q.head hq) = false) :
    parts.flatten.splitBy r = (parts.map (List.splitBy r)).flatten := by
  induction parts with
  | nil => rfl
  | cons p parts ih =>
    obtain ⟨h_p, h_rest⟩ := not_or.mp (fun h => h_nil (List.mem_cons.mpr h))
    rw [List.flatten_cons, List.map_cons, List.flatten_cons, ← ih h_rest h_cut.tail]
    refine List.splitBy_append fun x hx y hy => ?_
    cases parts with
    | nil => exact absurd hy (by simp)
    | cons q parts =>
      -- the neighbours at the cut are the last of `p` and the first of `q`
      obtain ⟨h_pl, h_qh, h_r⟩ := (List.isChain_cons_cons.mp h_cut).1
      obtain rfl : p.getLast h_pl = x := List.getLast_of_mem_getLast? hx
      obtain rfl : q.head h_qh = y := by
        rw [List.flatten_cons, List.head?_append_of_ne_nil _ h_qh] at hy
        exact List.head_of_mem_head? hy
      exact h_r

/-- **A larger relation** only unites parts. -/
theorem splitBy_coarser (h : ∀ a b, r a b = true → r' a b = true) (l : List α) :
    ∃ groups : List (List (List α)), groups.flatten = l.splitBy r ∧
      groups.map List.flatten = l.splitBy r' := by
  refine ⟨(l.splitBy r').map (List.splitBy r), ?_, ?_⟩
  · -- the relation is broken where the coarser one is
    have h_cut : (l.splitBy r').IsChain fun p q =>
        ∃ hp hq, r (p.getLast hp) (q.head hq) = false := by
      refine (List.isChain_getLast_head_splitBy r' l).imp ?_
      rintro p q ⟨hp, hq, h_r'⟩
      -- a break of the coarser relation is one of the finer
      refine ⟨hp, hq, ?_⟩
      cases h_r : r (p.getLast hp) (q.head hq) with
      | false => rfl
      | true =>
        rw [h _ _ h_r] at h_r'
        exact absurd h_r' (by simp)
    rw [← splitBy_flatten_of_cut (List.nil_notMem_splitBy r' l) h_cut, List.flatten_splitBy]
  · rw [List.map_map]
    -- each part is split and put together again
    calc (l.splitBy r').map (List.flatten ∘ List.splitBy r)
        = (l.splitBy r').map id := List.map_congr_left fun p _ => List.flatten_splitBy r p
      _ = l.splitBy r' := List.map_id _

/-- A part that has begun goes on until the first cut. -/
theorem splitBy_append_of_isChain {p : List α} (h_nil : p ≠ []) (h : p.IsChain fun a b => r a b)
    (m : List α) : ∃ q rest, (p ++ m).splitBy r = (p ++ q) :: rest := by
  -- induction on the list behind the chain
  induction m generalizing p with
  | nil => exact ⟨[], [], by rw [List.append_nil, List.splitBy_of_isChain h_nil h]⟩
  | cons y m ih =>
    -- the chain goes on with this element, or the first part ends here
    by_cases h_y : r (p.getLast h_nil) y = true
    · have h_chain : (p ++ [y]).IsChain fun a b => r a b := by
        refine List.isChain_append.mpr ⟨h, List.isChain_singleton y, fun x hx z hz => ?_⟩
        obtain rfl : p.getLast h_nil = x := List.getLast_of_mem_getLast? hx
        obtain rfl : y = z := Option.some.inj hz
        exact h_y
      obtain ⟨q, rest, h_split⟩ := ih (List.append_ne_nil_of_right_ne_nil _ (List.cons_ne_nil y []))
        h_chain
      rw [List.append_assoc, List.append_assoc] at h_split
      exact ⟨y :: q, rest, h_split⟩
    · refine ⟨[], (y :: m).splitBy r, ?_⟩
      rw [List.splitBy_append_cons m fun x hx => ?_, List.splitBy_of_isChain h_nil h,
        List.append_nil, List.singleton_append]
      obtain rfl : p.getLast h_nil = x := List.getLast_of_mem_getLast? hx
      exact Bool.eq_false_iff.mpr h_y

/-- **The beginning of a list** is split like the list, but for its last part, which may go on. -/
theorem splitBy_append_left {l : List α} (h : l ≠ []) (m : List α) :
    ∃ parts p q rest, l.splitBy r = parts ++ [p] ∧
      (l ++ m).splitBy r = parts ++ (p ++ q) :: rest := by
  obtain ⟨parts, p, h_parts⟩ : ∃ parts p, l.splitBy r = parts ++ [p] :=
    ⟨_, _, (List.dropLast_append_getLast (List.splitBy_ne_nil.mpr h)).symm⟩
  have h_mem : p ∈ l.splitBy r := by
    rw [h_parts]
    exact List.mem_append_right _ List.mem_cons_self
  obtain ⟨q, rest, h_last⟩ :=
    splitBy_append_of_isChain (List.ne_nil_of_mem_splitBy h_mem) (List.isChain_of_mem_splitBy h_mem) m
  refine ⟨parts, p, q, rest, h_parts, ?_⟩
  obtain ⟨h_flat, h_nil, h_chain, h_cut⟩ := List.splitBy_eq_iff.mp h_parts
  obtain ⟨h_flat', h_nil', h_chain', h_cut'⟩ := List.splitBy_eq_iff.mp h_last
  rw [List.splitBy_eq_iff]
  refine ⟨?_, ?_, ?_, ?_⟩
  · rw [h_flat, List.flatten_append, List.flatten_append, List.flatten_singleton,
      List.append_assoc, h_flat']
  · rw [List.mem_append, not_or]
    exact ⟨fun h_in => h_nil (List.mem_append_left _ h_in), h_nil'⟩
  · intro part h_part
    rcases List.mem_append.mp h_part with h_part | h_part
    · exact h_chain part (List.mem_append_left _ h_part)
    · exact h_chain' part h_part
  · -- the cut before the last part is where it was
    obtain ⟨h_parts_cut, -, h_border⟩ := List.isChain_append.mp h_cut
    refine List.isChain_append.mpr ⟨h_parts_cut, h_cut', fun x hx y hy => ?_⟩
    obtain rfl : p ++ q = y := Option.some.inj hy
    obtain ⟨h_x, h_p, h_r⟩ := h_border x hx p rfl
    refine ⟨h_x, List.append_ne_nil_of_left_ne_nil h_p q, ?_⟩
    rw [List.head_append_of_ne_nil h_p]
    exact h_r

end Splitting
