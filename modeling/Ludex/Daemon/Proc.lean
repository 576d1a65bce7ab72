import Mathlib.Data.List.AList
import Ludex.Lib.Text
import Ludex.Core.Types

/-!
# `/proc`

What the daemon reads of other processes. A `ProcSnapshot` is the state of `/proc` at one moment: for
every process the files the daemon looks at, each readable or not. The parent links form a tree,
which is what makes the walk towards `init` end.
-/

namespace Ludex

/-- `str::trim`. -/
def trim (s : String) : String := String.ofList (Text.trimMatches Text.isWhiteSpace s.toList)

/-- The environment block of a process, as `environ::read` returns it. -/
abbrev Environ := AList fun _ : String => String

/-- The target of `/proc/<pid>/exe`. -/
structure ExeLink where
  path : PathBuf
  /-- The last component of the path, if it has one and it is UTF-8. -/
  fileName : Option String
deriving DecidableEq, Repr

/-- Which graphics libraries a process has mapped. -/
structure GraphicsLibraries where
  opengl : Bool := false
  vulkan : Bool := false
  sdl : Bool := false
  directxViaProton : Bool := false
deriving DecidableEq, Repr

/-- Whether any graphics library was detected. -/
def GraphicsLibraries.any (g : GraphicsLibraries) : Bool :=
  g.opengl || g.vulkan || g.sdl || g.directxViaProton

/-- The DRM counters of a process. -/
structure GpuSummary where
  driver : Option String
  memoryBytes : ℕ
  engineNanoseconds : ℕ
deriving DecidableEq, Repr

/-- What can be read of a process. A file that cannot be read is `none`. -/
structure Process where
  exe : Option ExeLink := none
  environ : Option Environ := none
  maps : Option GraphicsLibraries := none
  fdinfo : Option GpuSummary := none
  /-- The parent in `stat`. -/
  parent : Option ℕ := none
  comm : Option String := none

/-- `/proc` at one moment. -/
structure ProcSnapshot where
  processes : AList fun _ : ℕ => Process
  /-- Whether the directory itself can be listed. -/
  listable : Bool := true
  /-- How far a process is from the root of the process tree. -/
  depth : ℕ → ℕ
  parent_above : ∀ pid process parent, processes.lookup pid = some process →
    process.parent = some parent → depth parent < depth pid

namespace ProcSnapshot

/-- One process, whose parent cannot be read. -/
def single (pid : ℕ) (process : Process) (h : process.parent = none) : ProcSnapshot where
  processes := AList.insert pid process ∅
  depth := id
  parent_above := by
    intro pid' process' parent h_lookup h_parent
    by_cases h_pid : pid' = pid
    · subst h_pid
      rw [AList.lookup_insert] at h_lookup
      obtain rfl := Option.some.inj h_lookup
      exact nomatch h.symm.trans h_parent
    · rw [AList.lookup_insert_ne h_pid, AList.lookup_empty] at h_lookup
      exact nomatch h_lookup

variable (proc : ProcSnapshot)

/-- A file of a process. -/
def read {α : Type} (pid : ℕ) (file : Process → Option α) : Option α :=
  (proc.processes.lookup pid).bind file

/-- The parent of a process, if `stat` can be read. Pid 0 has none. -/
def parent (pid : ℕ) : Option ℕ := if pid = 0 then none else proc.read pid Process.parent

theorem depth_parent {pid parent : ℕ} (h : proc.parent pid = some parent) :
    proc.depth parent < proc.depth pid := by
  unfold ProcSnapshot.parent ProcSnapshot.read at h
  split at h
  · exact nomatch h
  · obtain ⟨process, h_lookup, h_parent⟩ := Option.bind_eq_some_iff.mp h
    exact proc.parent_above pid process parent h_lookup h_parent

/-- The chain of parents, as far as the fuel goes. -/
def ancestorsFrom : ℕ → ℕ → List ℕ
  | 0, _ => []
  | fuel + 1, pid =>
    match proc.parent pid with
    | none => []
    | some p => if p ≤ 1 then [p] else p :: ancestorsFrom fuel p

/-- The ancestors of a process, nearest first. The walk stops at pid 1 and below, and at a process
that cannot be read. -/
def ancestors (pid : ℕ) : List ℕ := proc.ancestorsFrom (proc.depth pid) pid

/-- One more unit of fuel changes nothing when the fuel covers the depth of the process. -/
theorem ancestorsFrom_succ {fuel pid : ℕ} (h : proc.depth pid ≤ fuel) :
    proc.ancestorsFrom (fuel + 1) pid = proc.ancestorsFrom fuel pid := by
  induction fuel generalizing pid with
  | zero =>
    -- a process at the root of the tree has no parent
    unfold ancestorsFrom
    cases h_parent : proc.parent pid with
    | none => rfl
    | some p => exact absurd (proc.depth_parent h_parent) (by omega)
  | succ fuel ih =>
    rw [ancestorsFrom, ancestorsFrom]
    cases h_parent : proc.parent pid with
    | none => rfl
    | some p =>
      have h_above := proc.depth_parent h_parent
      show (if p ≤ 1 then [p] else p :: proc.ancestorsFrom (fuel + 1) p) =
        if p ≤ 1 then [p] else p :: proc.ancestorsFrom fuel p
      rw [ih (by omega)]

/-- The fuel does not matter when it covers the depth of the process. -/
theorem ancestorsFrom_fuel {fuel pid : ℕ} (h : proc.depth pid ≤ fuel) :
    proc.ancestorsFrom fuel pid = proc.ancestors pid := by
  induction fuel, h using Nat.le_induction with
  | base => rfl
  | succ fuel h_le ih => rw [proc.ancestorsFrom_succ h_le, ih]

/-- **The walk up the tree**: the parent, and from there on unless it is `init`. -/
theorem ancestors_eq (pid : ℕ) :
    proc.ancestors pid =
      match proc.parent pid with
      | none => []
      | some p => if p ≤ 1 then [p] else p :: proc.ancestors p := by
  rw [← proc.ancestorsFrom_fuel (Nat.le_succ (proc.depth pid)), ancestorsFrom]
  cases h_parent : proc.parent pid with
  | none => rfl
  | some p =>
    show (if p ≤ 1 then [p] else p :: proc.ancestorsFrom (proc.depth pid) p) = _
    rw [proc.ancestorsFrom_fuel (proc.depth_parent h_parent).le]

/-- The processes in the listing of `/proc`. -/
def pids : List ℕ := proc.processes.keys

end ProcSnapshot

end Ludex
