import Mathlib.Data.List.Infix
import Mathlib.Algebra.Group.Nat.Defs

/-!
# Paths of a Unix file system

A path is a list of bytes. It is looked at through its `components`: what stands between the slashes,
without the empty parts and without `.`, which is a component only where a relative path starts with
it. Two spellings with the same components are the same path.

`collect` writes components without anything that is dropped again. Written like that, a path is
longer than each proper prefix of it (`length_collect_lt`).
-/

namespace Paths

/-- `/` -/
def slash : UInt8 := 47

/-- `.` -/
def dot : UInt8 := 46

/-- A component of a path. -/
inductive Component where
  | rootDir
  | curDir
  | parentDir
  | normal (name : List UInt8)
deriving DecidableEq

/-- The component between two slashes. -/
def parseComponent (part : List UInt8) : Option Component :=
  if part = [] ∨ part = [dot] then none
  else if part = [dot, dot] then some .parentDir
  else some (.normal part)

/-- The components of a path. -/
def components (path : List UInt8) : List Component :=
  let parts := path.splitOn slash
  let rest := parts.filterMap parseComponent
  if path.head? = some slash then .rootDir :: rest
  else if parts.head? = some [dot] then .curDir :: rest
  else rest

/-- The base is a component prefix of the path. -/
def startsWith (path base : List UInt8) : Bool := (components base).isPrefixOf (components path)

/-- The path without its last component. The root and the empty path have no parent. -/
def parent (path : List Component) : Option (List Component) :=
  match path.getLast? with
  | none => none
  | some .rootDir => none
  | some _ => some path.dropLast

/-- `Path::join`, on components. A path that starts at the root stands for itself. -/
def join (path part : List Component) : List Component :=
  match part with
  | .rootDir :: _ => part
  | .curDir :: rest => if path = [] then part else path ++ rest
  | _ => path ++ part

/-- A component as it is written. -/
def Component.text : Component → List UInt8
  | .rootDir => [slash]
  | .curDir => [dot]
  | .parentDir => [dot, dot]
  | .normal name => name

/-- Extend a path. A path that starts at the root replaces it. -/
def push (path part : List UInt8) : List UInt8 :=
  if part.head? = some slash then part
  else if path = [] ∨ path.getLast? = some slash then path ++ part
  else path ++ (slash :: part)

/-- The path that components make up. -/
def collect (cs : List Component) : List UInt8 := cs.foldl (fun path c => push path c.text) []

theorem startsWith_iff {path base : List UInt8} :
    startsWith path base = true ↔ components base <+: components path := List.isPrefixOf_iff_prefix

/-! ### Spellings -/

/-- A component that can stand behind another: it has a text, and is not the root. -/
def Component.Inner (c : Component) : Prop := c.text ≠ [] ∧ c.text.head? ≠ some slash

theorem notMem_of_mem_splitOn {path part : List UInt8} (h : part ∈ path.splitOn slash) :
    slash ∉ part := by
  induction path generalizing part with
  | nil =>
    rw [List.splitOn_nil, List.mem_singleton] at h
    rw [h]
    exact List.not_mem_nil
  | cons b path ih =>
    rw [List.splitOn_cons_eq_if_modifyHead] at h
    split at h
    next h_slash =>
      rcases List.mem_cons.mp h with rfl | h
      · exact List.not_mem_nil
      · exact ih h
    next h_slash =>
      -- the byte is put before the first part
      cases h_split : path.splitOn slash with
      | nil =>
        rw [h_split] at h
        exact absurd h List.not_mem_nil
      | cons first rest =>
        rw [h_split] at h
        rcases List.mem_cons.mp h with rfl | h
        · rw [List.mem_cons, not_or]
          refine ⟨fun h_eq => h_slash (beq_iff_eq.mpr h_eq.symm), ih ?_⟩
          rw [h_split]
          exact List.mem_cons_self
        · refine ih ?_
          rw [h_split]
          exact List.mem_cons_of_mem _ h

theorem inner_of_parseComponent {part : List UInt8} {c : Component} (h_part : slash ∉ part)
    (h : parseComponent part = some c) : c.Inner := by
  unfold parseComponent at h
  split at h
  · exact nomatch h
  next h_kept =>
    split at h
    · obtain rfl := Option.some.inj h
      exact ⟨by decide, by decide⟩
    · obtain rfl := Option.some.inj h
      refine ⟨fun h_nil => h_kept (Or.inl h_nil), fun h_head => ?_⟩
      exact h_part (List.mem_of_mem_head? h_head)

/-- A path is a first component, which may be the root, and inner ones. -/
theorem text_ne_nil_and_inner (path : List UInt8) :
    (∀ c ∈ components path, c.text ≠ []) ∧ ∀ c ∈ (components path).tail, c.Inner := by
  -- an inner component is neither empty nor rooted, since the slashes were taken out
  have h_rest : ∀ c ∈ (path.splitOn slash).filterMap parseComponent, c.Inner := by
    intro c hc
    obtain ⟨part, h_part, h_parse⟩ := List.mem_filterMap.mp hc
    exact inner_of_parseComponent (notMem_of_mem_splitOn h_part) h_parse
  have h_cons : ∀ first : Component, first.text ≠ [] →
      ∀ c ∈ first :: (path.splitOn slash).filterMap parseComponent, c.text ≠ [] := by
    intro first h_first c hc
    rcases List.mem_cons.mp hc with rfl | hc
    · exact h_first
    · exact (h_rest c hc).1
  -- the path has a root, a current directory or neither
  unfold components
  simp only
  split
  · exact ⟨h_cons _ (by decide), h_rest⟩
  · split
    · exact ⟨h_cons _ (by decide), h_rest⟩
    · exact ⟨fun c hc => (h_rest c hc).1, fun c hc => h_rest c (List.mem_of_mem_tail hc)⟩

/-- An inner component makes a path longer. -/
theorem length_lt_push (path : List UInt8) {c : Component} (h : c.Inner) :
    path.length < (push path c.text).length := by
  have h_pos := List.length_pos_iff.mpr h.1
  unfold push
  rw [if_neg h.2]
  -- a separator is added, or it stands there already
  split
  · rw [List.length_append]
    omega
  · rw [List.length_append, List.length_cons]
    omega

theorem length_le_foldl_push {cs : List Component} (h : ∀ c ∈ cs, c.Inner) (path : List UInt8) :
    path.length ≤ (cs.foldl (fun path c => push path c.text) path).length := by
  induction cs generalizing path with
  | nil => exact le_rfl
  | cons c cs ih =>
    rw [List.forall_mem_cons] at h
    exact (length_lt_push path h.1).le.trans (ih h.2 _)

/-- The first component is written as it is. -/
theorem push_nil (part : List UInt8) : push [] part = part := by
  unfold push
  simp

/-- **More components, a longer path**, where nothing is written that is no component. -/
theorem length_collect_lt {cs ds : List Component} (h_before : cs <+: ds)
    (h_len : cs.length < ds.length) (h_text : ∀ c ∈ ds, c.text ≠ [])
    (h_inner : ∀ c ∈ ds.tail, c.Inner) : (collect cs).length < (collect ds).length := by
  obtain ⟨rest, rfl⟩ := h_before
  cases rest with
  | nil => exact absurd h_len (by simp)
  | cons c rest =>
    have h_collect : collect (cs ++ c :: rest) =
        rest.foldl (fun path c => push path c.text) (push (collect cs) c.text) := by
      unfold collect
      rw [List.foldl_append, List.foldl_cons]
    have h_c : c ∈ cs ++ c :: rest := List.mem_append_right _ List.mem_cons_self
    rw [h_collect]
    cases cs with
    | nil =>
      -- the path is empty before its first component
      refine lt_of_lt_of_le ?_ (length_le_foldl_push h_inner _)
      show 0 < (push [] c.text).length
      rw [push_nil]
      exact List.length_pos_iff.mpr (h_text c h_c)
    | cons d cs =>
      have h_tail : ∀ e ∈ cs ++ c :: rest, e.Inner := h_inner
      rw [List.forall_mem_append, List.forall_mem_cons] at h_tail
      obtain ⟨-, h_inner_c, h_inner_rest⟩ := h_tail
      exact lt_of_lt_of_le (length_lt_push _ h_inner_c) (length_le_foldl_push h_inner_rest _)

/-- A path is spelled with its components and nothing else. -/
def Canonical (path : List UInt8) : Prop := collect (components path) = path

instance instDecidableCanonical (path : List UInt8) : Decidable (Canonical path) :=
  inferInstanceAs (Decidable (_ = _))

/-- **Of two canonical prefixes** of a path the deeper one is the longer one. -/
theorem length_lt_of_canonical {path base base' : List UInt8} (h : startsWith path base = true)
    (h' : startsWith path base' = true) (h_canonical : Canonical base)
    (h_canonical' : Canonical base')
    (h_len : (components base).length < (components base').length) :
    base.length < base'.length := by
  -- of two prefixes of one path the shorter is a prefix of the longer
  have h_before : components base <+: components base' :=
    List.prefix_of_prefix_length_le (startsWith_iff.mp h) (startsWith_iff.mp h') h_len.le
  obtain ⟨h_text, h_inner⟩ := text_ne_nil_and_inner base'
  have h_lt := length_collect_lt h_before h_len h_text h_inner
  rwa [h_canonical, h_canonical'] at h_lt

end Paths
