import Mathlib.Data.Finset.Insert
import Ludex.Lib.Ancestry
import Ludex.Daemon.Proc.Environ

/-!
# The ancestors of a process

`tree.rs` reads the parent of a process from `/proc/<pid>/stat`, behind the last `)`, since the name in
parentheses may hold anything; and it goes from parent to parent towards pid 1.

A `StatLine` is what the kernel writes; its parent is read back, whatever the name is
(`parsePpid_text`). In a `ProcessTree` the iterator yields the chain of parents of a process, and ends
with pid 1 (`ProcessTree.yields_ancestors`). On a `ProcSnapshot` it yields what `ProcSnapshot.ancestors`
lists (`yields_snapshot_ancestors`).
-/

namespace Ludex

namespace ProcTree

open Ancestry

/-! ### Parsing -/

/-- Parse the `ppid` field out of a `/proc/<pid>/stat` line. -/
def parsePpid (stat : List Char) : Option ℕ := do
  let rest ← Text.afterLast ')' stat
  match Text.words Text.isWhiteSpace (rest.dropWhile Text.isWhiteSpace) with
  | _state :: ppid :: _ => Text.parseUnsigned 32 ppid
  | _ => none

example : parsePpid "42 (weird) (name) S 1234 42".toList = some 1234 := by decide +kernel

/-- The `stat` files that can be read as text. -/
abbrev StatFiles := ℕ → Option (List Char)

/-- The parent of a process. Pid 0 has none. -/
def parent (files : StatFiles) (pid : ℕ) : Option ℕ :=
  if pid = 0 then none else (files pid).bind parsePpid

/-- What follows a process in the walk. -/
def next (files : StatFiles) (p : ℕ) : Option ℕ := if p ≤ 1 then none else parent files p

/-- Every ancestor of a process, starting with its parent. -/
def ancestors (files : StatFiles) (pid : ℕ) : ℕ → Option ℕ :=
  successors (parent files pid) (next files)

/-! ### What the kernel writes -/

/-- A number in decimal. -/
def number (n : ℤ) : List Char :=
  if n < 0 then '-' :: Nat.toDigits 10 n.natAbs else Nat.toDigits 10 n.natAbs

/-- The fields of a `stat` line. -/
structure StatLine where
  pid : UInt32
  comm : List Char
  state : Char
  ppid : UInt32
  rest : List ℤ
  letter : state.isAlpha = true

/-- What follows the name. -/
def StatLine.tail (l : StatLine) : List Char :=
  ' ' :: l.state :: ' ' :: (Nat.toDigits 10 l.ppid.toNat ++
    (l.rest.flatMap (fun n => ' ' :: number n) ++ ['\n']))

/-- The line: `pid (comm) state ppid rest`. -/
def StatLine.text (l : StatLine) : List Char :=
  Nat.toDigits 10 l.pid.toNat ++ (' ' :: '(' :: (l.comm ++ ')' :: l.tail))

/-! ### Reading it back -/

theorem isDigit_of_mem_toDigits {n : ℕ} {c : Char} (h : c ∈ Nat.toDigits 10 n) : c.isDigit = true :=
  Nat.isDigit_of_mem_toDigits (by decide) (by decide) h

/-- Digits are no blank space. -/
theorem isWhiteSpace_of_isDigit {c : Char} (h : c.isDigit = true) : Text.isWhiteSpace c = false := by
  have h_range : 48 ≤ c.toNat ∧ c.toNat ≤ 57 := by
    obtain ⟨h_first, h_last⟩ := Bool.and_eq_true_iff.mp h
    exact ⟨UInt32.le_iff_toNat_le.mp (of_decide_eq_true h_first),
      UInt32.le_iff_toNat_le.mp (of_decide_eq_true h_last)⟩
  unfold Text.isWhiteSpace
  simp
  omega

/-- Letters are no blank space. -/
theorem isWhiteSpace_of_isAlpha {c : Char} (h : c.isAlpha = true) : Text.isWhiteSpace c = false := by
  -- letters lie in two ranges
  have h_range : 65 ≤ c.toNat ∧ c.toNat ≤ 90 ∨ 97 ≤ c.toNat ∧ c.toNat ≤ 122 := by
    rcases Bool.or_eq_true_iff.mp h with h_upper | h_lower
    · obtain ⟨h_first, h_last⟩ := of_decide_eq_true h_upper
      exact Or.inl ⟨UInt32.le_iff_toNat_le.mp h_first, UInt32.le_iff_toNat_le.mp h_last⟩
    · obtain ⟨h_first, h_last⟩ := Bool.and_eq_true_iff.mp h_lower
      exact Or.inr ⟨UInt32.le_iff_toNat_le.mp (of_decide_eq_true h_first),
        UInt32.le_iff_toNat_le.mp (of_decide_eq_true h_last)⟩
  -- no blank is in either
  unfold Text.isWhiteSpace
  simp
  omega

theorem mem_number {n : ℤ} {c : Char} (h : c ∈ number n) : c = '-' ∨ c.isDigit = true := by
  unfold number at h
  split at h
  · rcases List.mem_cons.mp h with rfl | h
    · exact Or.inl rfl
    · exact Or.inr (isDigit_of_mem_toDigits h)
  · exact Or.inr (isDigit_of_mem_toDigits h)

/-- **No parenthesis follows the name.** -/
theorem StatLine.paren_notMem_tail (l : StatLine) : ')' ∉ l.tail := by
  -- neither digits nor the state letter nor the blanks are a closing parenthesis
  have h_digits : ∀ n : ℕ, ')' ∉ Nat.toDigits 10 n := fun n h =>
    absurd (isDigit_of_mem_toDigits h) (by decide)
  have h_number : ∀ n ∈ l.rest, ¬ ')' = ' ' ∧ ')' ∉ number n := fun n _ =>
    ⟨by decide, fun h => absurd (mem_number h) (by decide)⟩
  have h_state : ')' ≠ l.state := by
    intro h
    have h_letter := l.letter
    rw [← h] at h_letter
    exact absurd h_letter (by decide)
  unfold StatLine.tail
  simp only [List.mem_cons, List.mem_append, List.mem_flatMap, not_or, not_exists, not_and]
  exact ⟨by decide, h_state, by decide, h_digits _, h_number, by decide, List.not_mem_nil⟩

/-- What follows the parent begins with blank space. -/
theorem StatLine.exists_blank (l : StatLine) :
    ∃ c s, Text.isWhiteSpace c = true ∧
      l.rest.flatMap (fun n => ' ' :: number n) ++ ['\n'] = c :: s := by
  cases l.rest with
  | nil => exact ⟨'\n', [], by decide, rfl⟩
  | cons n rest =>
    refine ⟨' ', number n ++ (rest.flatMap (fun n => ' ' :: number n) ++ ['\n']), by decide, ?_⟩
    rw [List.flatMap_cons, List.cons_append, List.cons_append, List.append_assoc]

/-- **The parent is read back**, whatever the name is. -/
theorem parsePpid_text (l : StatLine) : parsePpid l.text = some l.ppid.toNat := by
  have h_state : Text.isWhiteSpace l.state = false := isWhiteSpace_of_isAlpha l.letter
  -- so the last parenthesis of the line is the one that closes the name
  have h_last : Text.afterLast ')' l.text = some l.tail := by
    have h_text : l.text = (Nat.toDigits 10 l.pid.toNat ++ ' ' :: '(' :: l.comm) ++ ')' :: l.tail := by
      unfold StatLine.text
      rw [List.append_assoc]
      rfl
    rw [h_text]
    exact Text.afterLast_append l.paren_notMem_tail _
  obtain ⟨c, s, h_c, h_blank⟩ := l.exists_blank
  -- the words behind it are the state and the parent
  have h_words : Text.words Text.isWhiteSpace (l.tail.dropWhile Text.isWhiteSpace) =
      [l.state] :: Nat.toDigits 10 l.ppid.toNat :: Text.words Text.isWhiteSpace s := by
    have h_trim : l.tail.dropWhile Text.isWhiteSpace =
        [l.state] ++ ' ' :: (Nat.toDigits 10 l.ppid.toNat ++ c :: s) := by
      unfold StatLine.tail
      rw [h_blank, List.dropWhile_cons_of_pos (by decide),
        List.dropWhile_cons_of_neg (by simp [h_state])]
      rfl
    rw [h_trim, Text.words_append_cons (List.cons_ne_nil _ _) (by simpa using h_state) (by decide),
      Text.words_append_cons Nat.toDigits_ne_nil
        (fun d hd => isWhiteSpace_of_isDigit (isDigit_of_mem_toDigits hd)) h_c]
  unfold parsePpid
  rw [h_last, Option.bind_eq_bind, Option.bind_some, h_words]
  exact Text.parseUnsigned_toDigits l.ppid.toNat_lt

/-! ### The walk -/

/-- A finite tree of processes with pid 1 as its root, whose `stat` files can be read. -/
structure ProcessTree (files : StatFiles) extends FiniteTree ℕ where
  line : ℕ → StatLine
  root_eq : root = 1
  positive : ∀ pid ∈ nodes, 0 < pid
  named : ∀ pid ∈ nodes, (line pid).pid.toNat = pid
  parent_eq : ∀ pid ∈ nodes, parent pid = (line pid).ppid.toNat
  readable : ∀ pid ∈ nodes, files pid = some (line pid).text

section Walk

variable {files : StatFiles} (t : ProcessTree files)

theorem ProcessTree.parent_of_mem {pid : ℕ} (h : pid ∈ t.nodes) :
    ProcTree.parent files pid = some (t.toFiniteTree.parent pid) := by
  have h_pos := t.positive pid h
  unfold ProcTree.parent
  rw [if_neg h_pos.ne', t.readable pid h, Option.bind_some, parsePpid_text, t.parent_eq pid h]

theorem ProcessTree.next_root : next files t.root = none := by
  rw [t.root_eq]
  rfl

/-- The walk goes on from a process above pid 1 to its parent. -/
theorem ProcessTree.next_of_climbs {a b : ℕ} (h : Climbs t.nodes t.root t.toFiniteTree.parent a b) :
    next files a = some b := by
  obtain ⟨h_mem, h_ne, rfl⟩ := h
  have h_pos := t.positive a h_mem
  rw [t.root_eq] at h_ne
  unfold next
  rw [if_neg (by omega)]
  exact t.parent_of_mem h_mem

/-- **The iterator yields the chain of parents**, which ends with pid 1, and then it ends. -/
theorem ProcessTree.yields_ancestors {pid : ℕ} (h : pid ∈ t.nodes) (h_above : 1 < pid) :
    ∃ chain, t.IsPath pid chain ∧ chain.getLast? = some 1 ∧ Yields (ancestors files pid) chain := by
  obtain ⟨chain, h_chain⟩ := t.toFiniteTree.exists_path h
  have h_ne : pid ≠ t.root := by
    rw [t.root_eq]
    exact h_above.ne'
  have h_yields := FiniteTree.yields_path t.next_root (fun _ _ => t.next_of_climbs) h_chain
  -- the walk begins with the parent of the process, which is above pid 1 itself
  have h_first : next files pid = ProcTree.parent files pid := if_neg (not_le.mpr h_above)
  rw [h_first] at h_yields
  refine ⟨chain, h_chain, ?_, h_yields⟩
  rw [h_chain.getLast? h_ne, t.root_eq]

end Walk

/-- **On a snapshot** the iterator yields the list of ancestors. -/
theorem yields_snapshot_ancestors (proc : ProcSnapshot) {files : StatFiles}
    (h : ∀ pid, proc.read pid Process.parent = (files pid).bind parsePpid) (pid : ℕ) :
    Yields (ancestors files pid) (proc.ancestors pid) := by
  have h_parent : ∀ p, parent files p = proc.parent p := by
    intro p
    unfold parent ProcSnapshot.parent
    rw [h p]
  induction h_depth : proc.depth pid using Nat.strong_induction_on generalizing pid with
  | _ depth ih =>
    unfold ancestors
    rw [proc.ancestors_eq, h_parent]
    cases h_p : proc.parent pid with
    | none => exact yields_nil _
    | some p =>
      have h_above := proc.depth_parent h_p
      show Yields (successors (some p) (next files)) (if p ≤ 1 then [p] else p :: proc.ancestors p)
      by_cases h_root : p ≤ 1
      · -- the walk ends at pid 1 and below
        have h_next : next files p = none := if_pos h_root
        rw [if_pos h_root]
        refine yields_cons ?_
        rw [h_next]
        exact yields_nil _
      · have h_next : next files p = parent files p := if_neg h_root
        rw [if_neg h_root]
        refine yields_cons ?_
        rw [h_next]
        exact ih _ (h_depth ▸ h_above) p rfl

/-- **What the kernel writes is read back**: the variables of an environment that are text, and the
parent of a process; and the walk from any process above pid 1 is the one way up the tree. -/
theorem procParsers_invert :
    (∀ (block : Environ.EnvironBlock) (key value : String),
        (Environ.parse block.bytes).lookup key = some value ↔
          ∃ v, Environ.EnvEntry.var v ∈ block.entries ∧
            Lines.decode v.name = some key.toList ∧ Lines.decode v.value = some value.toList) ∧
      (∀ l : StatLine, parsePpid l.text = some l.ppid.toNat) ∧
      ∀ (files : StatFiles) (t : ProcessTree files), ∀ pid ∈ t.nodes, 1 < pid →
        ∃ chain, t.IsPath pid chain ∧ (∀ chain', t.IsPath pid chain' → chain' = chain) ∧
          chain.getLast? = some 1 ∧ Yields (ancestors files pid) chain := by
  refine ⟨Environ.lookup_parse_bytes, parsePpid_text, fun files t pid h_mem h_above => ?_⟩
  obtain ⟨chain, h_chain, h_last, h_yields⟩ := t.yields_ancestors h_mem h_above
  exact ⟨chain, h_chain, fun _ h => h.unique h_chain, h_last, h_yields⟩

/-- A process whose name looks like the end of a name and the fields behind it. -/
def disguised (pid ppid : UInt32) : StatLine :=
  ⟨pid, "a) S 9 (\n".toList, 'S', ppid, [-1, 0], by decide⟩

/-- Pid 42 has been started by pid 7, and that by pid 1. -/
def nestedLine (pid : ℕ) : StatLine :=
  if pid = 42 then disguised 42 7 else if pid = 7 then disguised 7 1 else disguised 1 0

def nestedFiles : StatFiles := fun pid => some (nestedLine pid).text

def nested : ProcessTree nestedFiles where
  nodes := {1, 7, 42}
  root := 1
  parent pid := (nestedLine pid).ppid.toNat
  parent_mem := by decide
  acyclic := by
    refine not_transGen_of_depth id ?_
    rintro a _ ⟨h_mem, h_ne, rfl⟩
    simp only [Finset.mem_insert, Finset.mem_singleton] at h_mem
    rcases h_mem with rfl | rfl | rfl
    · exact absurd rfl h_ne
    · decide
    · decide
  line := nestedLine
  root_eq := rfl
  positive := by decide
  named := by decide
  parent_eq _ _ := rfl
  readable _ _ := rfl

theorem procParsers_invert_nested : Yields (ancestors nestedFiles 42) [7, 1] := by
  obtain ⟨chain, -, h_unique, -, h_yields⟩ :=
    procParsers_invert.2.2 nestedFiles nested 42 (by decide) (by decide)
  have h_seven : nested.IsPath 7 [1] :=
    FiniteTree.isPath_cons.mpr ⟨⟨by decide, by decide, rfl⟩, FiniteTree.isPath_root⟩
  have h_path : nested.IsPath 42 [7, 1] :=
    FiniteTree.isPath_cons.mpr ⟨⟨by decide, by decide, rfl⟩, h_seven⟩
  rwa [← h_unique [7, 1] h_path] at h_yields

end ProcTree

end Ludex
