import Mathlib.Algebra.Order.Group.Nat
import Ludex.Lib.Lines
import Ludex.Lib.Saturating
import Ludex.Daemon.Gate

/-!
# GPU accounting

`fdinfo.rs` adds up the DRM counters in `/proc/<pid>/fdinfo/*`: the memory in the `drm-memory-*`
lines and the time in the `drm-engine-*` lines, with additions that saturate. A line that is not well
formed is skipped.

`MemoryLine` and `EngineLine` are the well-formed lines. The two counters are the sums over these,
cut off once (`memoryBytes_total`, `engineNanoseconds_total`). So they do not depend on the order of
the documents, or on how the lines are spread over them, and neither does the decision of the gate.
Only the name of the driver does.
-/

namespace Ludex

namespace Fdinfo

open Lines Saturating

/-! ### Reading counters -/

/-- `u64::MAX` -/
def u64Max : ℕ := 2 ^ 64 - 1

/-- `str::trim`, on characters. -/
def trim (s : List Char) : List Char := Text.trimMatches Text.isWhiteSpace s

/-- How many bytes a unit has. -/
def multiplier (unit : List Char) : Option ℕ :=
  if unit = "B".toList ∨ unit = "bytes".toList then some 1
  else if unit = "kB".toList ∨ unit = "KB".toList ∨ unit = "KiB".toList then some 1024
  else if unit = "MB".toList ∨ unit = "MiB".toList then some (1024 * 1024)
  else if unit = "GB".toList ∨ unit = "GiB".toList then some (1024 * 1024 * 1024)
  else none

def parseByteUnit (value : List Char) : Option ℕ := do
  let (num, unit) ← Text.splitOnce [' '] value
  let n ← Text.parseUnsigned 64 num
  let m ← multiplier (trim unit)
  return min u64Max (n * m)

def parseNs (value : List Char) : Option ℕ := do
  let (num, unit) ← Text.splitOnce [' '] value
  if trim unit ≠ "ns".toList then none
  else Text.parseUnsigned 64 num

/-- The key of a memory counter. -/
def isMemoryKey (key : List Char) : Bool := "drm-memory-".toList.isPrefixOf key

/-- The key of an engine counter, and not of a capacity. -/
def isEngineKey (key : List Char) : Bool :=
  "drm-engine-".toList.isPrefixOf key && !"-capacity".toList.isSuffixOf key

/-- Add the counter on a line to the summary. -/
def accumulateLine (summary : GpuSummary) (line : List Char) : GpuSummary :=
  match Text.splitOnce [':'] line with
  | none => summary
  | some (key, value) =>
    let key := trim key
    let value := trim value
    if key = "drm-driver".toList then
      if summary.driver.isNone && !value.isEmpty then
        { summary with driver := some (String.ofList value) }
      else summary
    else if isMemoryKey key then
      match parseByteUnit value with
      | some bytes => { summary with memoryBytes := satAdd u64Max summary.memoryBytes bytes }
      | none => summary
    else if isEngineKey key then
      match parseNs value with
      | some ns => { summary with engineNanoseconds := satAdd u64Max summary.engineNanoseconds ns }
      | none => summary
    else summary

/-- Add the counters of a document to the summary. -/
def accumulate (content : List Char) (summary : GpuSummary) : GpuSummary :=
  (textLines content).foldl accumulateLine summary

def emptySummary : GpuSummary := ⟨none, 0, 0⟩

/-- The counters of several documents. -/
def total (docs : List (List Char)) : GpuSummary :=
  docs.foldl (fun summary doc => accumulate doc summary) emptySummary

/-- What the directory lists. -/
inductive FdEntry where
  /-- The listing fails here. -/
  | failed
  /-- A file with its content, if it can be read. -/
  | file (content : Option (List UInt8))
deriving DecidableEq

/-- The text in a file. -/
def FdEntry.text : FdEntry → Option (List Char)
  | .failed => none
  | .file content => content.bind decode

/-- A listing that fails is an error, a file that cannot be read is skipped. -/
def readEntries : List FdEntry → GpuSummary → Option GpuSummary
  | [], summary => some summary
  | .failed :: _, _ => none
  | .file content :: rest, summary =>
    match content.bind decode with
    | none => readEntries rest summary
    | some text => readEntries rest (accumulate text summary)

/-- `fdinfo::read` of a directory, if that can be opened. -/
def read (listing : Option (List FdEntry)) : Option GpuSummary :=
  listing.bind fun entries => readEntries entries emptySummary

/-! ### Well-formed lines -/

/-- The line is a key, a colon and a value, both with blank space around them. -/
def KeyValue (line key value : List Char) : Prop :=
  ∃ before after, line = before ++ ':' :: after ∧ ':' ∉ before ∧ trim before = key ∧ trim after = value

/-- The value is a number of 64 bits, a blank and a unit, with blank space around the unit. -/
def Quantity (value : List Char) (n : ℕ) (unit : List Char) : Prop :=
  ∃ num after, value = num ++ ' ' :: after ∧ ' ' ∉ num ∧ Text.parseUnsigned 64 num = some n ∧
    trim after = unit

/-- A `drm-memory-*` line, with its value in bytes. -/
def MemoryLine (line : List Char) (bytes : ℕ) : Prop :=
  ∃ key value n unit m, KeyValue line key value ∧ "drm-memory-".toList <+: key ∧
    Quantity value n unit ∧ multiplier unit = some m ∧ bytes = min u64Max (n * m)

/-- A `drm-engine-*` line that is no `-capacity` line, with its value in nanoseconds. -/
def EngineLine (line : List Char) (ns : ℕ) : Prop :=
  ∃ key value, KeyValue line key value ∧ "drm-engine-".toList <+: key ∧
    ¬ "-capacity".toList <:+ key ∧ Quantity value ns "ns".toList

/-- The value on a line, if its key counts and the value is well formed. -/
def valueOf (counts : List Char → Bool) (parse : List Char → Option ℕ) (line : List Char) :
    Option ℕ := do
  let (key, value) ← Text.splitOnce [':'] line
  if counts (trim key) then parse (trim value) else none

/-- The value of a memory line. -/
def memoryOf : List Char → Option ℕ := valueOf isMemoryKey parseByteUnit

/-- The value of an engine line. -/
def engineOf : List Char → Option ℕ := valueOf isEngineKey parseNs

theorem parseByteUnit_eq_some_iff {value : List Char} {bytes : ℕ} :
    parseByteUnit value = some bytes ↔
      ∃ n unit m, Quantity value n unit ∧ multiplier unit = some m ∧ bytes = min u64Max (n * m) := by
  unfold parseByteUnit Quantity
  simp only [Option.bind_eq_bind, Option.bind_eq_some_iff, Prod.exists,
    Text.splitOnce_singleton_eq_some_iff, Option.pure_def, Option.some.injEq]
  refine ⟨?_, ?_⟩
  · rintro ⟨num, after, ⟨h_value, h_space⟩, n, h_n, m, h_m, rfl⟩
    exact ⟨n, _, m, ⟨num, after, h_value, h_space, h_n, rfl⟩, h_m, rfl⟩
  · rintro ⟨n, _, m, ⟨num, after, h_value, h_space, h_n, rfl⟩, h_m, rfl⟩
    exact ⟨num, after, ⟨h_value, h_space⟩, n, h_n, m, h_m, rfl⟩

theorem parseNs_eq_some_iff {value : List Char} {ns : ℕ} :
    parseNs value = some ns ↔ Quantity value ns "ns".toList := by
  unfold parseNs Quantity
  simp only [Option.bind_eq_bind, Option.bind_eq_some_iff, Prod.exists,
    Text.splitOnce_singleton_eq_some_iff]
  refine exists_congr fun num => exists_congr fun after => ?_
  rw [and_assoc]
  refine and_congr_right fun _ => and_congr_right fun _ => ?_
  by_cases h_unit : trim after = "ns".toList
  · rw [if_neg (not_not.mpr h_unit), and_iff_left h_unit]
  · rw [if_pos h_unit]
    exact iff_of_false (Option.some_ne_none _).symm fun h => h_unit h.2

theorem valueOf_eq_some_iff {counts : List Char → Bool} {parse : List Char → Option ℕ}
    {line : List Char} {n : ℕ} :
    valueOf counts parse line = some n ↔
      ∃ key value, KeyValue line key value ∧ counts key = true ∧ parse value = some n := by
  unfold valueOf KeyValue
  simp only [Option.bind_eq_bind, Option.bind_eq_some_iff, Prod.exists,
    Text.splitOnce_singleton_eq_some_iff]
  refine ⟨?_, ?_⟩
  · -- the line is split at its first colon, and the key has to be one of the counted
    rintro ⟨before, after, ⟨h_line, h_colon⟩, h⟩
    split at h
    next h_key => exact ⟨_, _, ⟨before, after, h_line, h_colon, rfl, rfl⟩, h_key, h⟩
    · exact absurd h (Option.some_ne_none _).symm
  · rintro ⟨_, _, ⟨before, after, h_line, h_colon, rfl, rfl⟩, h_key, h_value⟩
    refine ⟨before, after, ⟨h_line, h_colon⟩, ?_⟩
    rwa [if_pos h_key]

/-- **Memory lines** are the lines that have a value. -/
theorem memoryOf_eq_some_iff {line : List Char} {bytes : ℕ} :
    memoryOf line = some bytes ↔ MemoryLine line bytes := by
  unfold memoryOf MemoryLine
  rw [valueOf_eq_some_iff]
  simp only [isMemoryKey, List.isPrefixOf_iff_prefix, parseByteUnit_eq_some_iff]
  refine ⟨?_, ?_⟩
  · rintro ⟨key, value, h_line, h_key, n, unit, m, h_value⟩
    exact ⟨key, value, n, unit, m, h_line, h_key, h_value⟩
  · rintro ⟨key, value, n, unit, m, h_line, h_key, h_value⟩
    exact ⟨key, value, h_line, h_key, n, unit, m, h_value⟩

/-- **Engine lines** are the lines that have a value. -/
theorem engineOf_eq_some_iff {line : List Char} {ns : ℕ} :
    engineOf line = some ns ↔ EngineLine line ns := by
  unfold engineOf EngineLine
  rw [valueOf_eq_some_iff]
  simp only [isEngineKey, Bool.and_eq_true, Bool.not_eq_true', ← Bool.not_eq_true,
    List.isPrefixOf_iff_prefix, List.isSuffixOf_iff_suffix, parseNs_eq_some_iff, and_assoc]

/-! ### One line -/

/-- A key begins in one way only. -/
theorem isEngineKey_of_memory {key : List Char} (h : isMemoryKey key = true) :
    isEngineKey key = false := by
  refine Bool.eq_false_iff.mpr fun h_engine => ?_
  have h_memory := List.isPrefixOf_iff_prefix.mp h
  have h_start := List.isPrefixOf_iff_prefix.mp (Bool.and_eq_true_iff.mp h_engine).1
  exact absurd (List.prefix_of_prefix_length_le h_memory h_start (by decide)) (by decide)

/-- **A line** adds its value to the counter its key belongs to, and leaves the other one alone. -/
theorem accumulateLine_counters (summary : GpuSummary) (line : List Char) :
    (accumulateLine summary line).memoryBytes =
        (memoryOf line).elim summary.memoryBytes (satAdd u64Max summary.memoryBytes) ∧
      (accumulateLine summary line).engineNanoseconds =
        (engineOf line).elim summary.engineNanoseconds
          (satAdd u64Max summary.engineNanoseconds) := by
  -- the two counters read one line each in the same way
  unfold accumulateLine memoryOf engineOf valueOf
  cases Text.splitOnce [':'] line with
  | none => exact ⟨rfl, rfl⟩
  | some parts =>
    obtain ⟨key, value⟩ := parts
    -- the line with the driver counts for neither
    simp only [Option.bind_eq_bind, Option.bind_some]
    by_cases h_driver : trim key = "drm-driver".toList
    · have h_memory : isMemoryKey (trim key) = false := by
        rw [h_driver]
        decide
      have h_engine : isEngineKey (trim key) = false := by
        rw [h_driver]
        decide
      rw [if_pos h_driver, h_memory, h_engine]
      split <;> exact ⟨rfl, rfl⟩
    · -- a key is for the memory or for an engine, not for both
      rw [if_neg h_driver]
      by_cases h_memory : isMemoryKey (trim key) = true
      · rw [isEngineKey_of_memory h_memory, if_pos h_memory, if_pos h_memory]
        cases parseByteUnit (trim value) <;> exact ⟨rfl, rfl⟩
      · rw [if_neg h_memory, if_neg h_memory]
        by_cases h_engine : isEngineKey (trim key) = true
        · rw [if_pos h_engine, if_pos h_engine]
          cases parseNs (trim value) <;> exact ⟨rfl, rfl⟩
        · -- any other key is ignored
          rw [if_neg h_engine, if_neg h_engine]
          exact ⟨rfl, rfl⟩

/-! ### All documents -/

/-- The lines of several documents. -/
def linesOf (docs : List (List Char)) : List (List Char) := docs.flatMap textLines

/-- Documents are added up line by line. -/
theorem foldl_accumulate (docs : List (List Char)) (summary : GpuSummary) :
    docs.foldl (fun summary doc => accumulate doc summary) summary =
      (linesOf docs).foldl accumulateLine summary := by
  unfold linesOf accumulate
  rw [List.foldl_flatMap]

/-- **The memory** is the sum over the memory lines, cut off once. -/
theorem memoryBytes_total (docs : List (List Char)) :
    (total docs).memoryBytes = min u64Max ((linesOf docs).filterMap memoryOf).sum := by
  unfold total
  rw [foldl_accumulate, foldl_counter (fun s line => (accumulateLine_counters s line).1) (linesOf docs)
    (a := 0) rfl, zero_add]

/-- **The time** is the sum over the engine lines, cut off once. -/
theorem engineNanoseconds_total (docs : List (List Char)) :
    (total docs).engineNanoseconds = min u64Max ((linesOf docs).filterMap engineOf).sum := by
  unfold total
  rw [foldl_accumulate, foldl_counter (fun s line => (accumulateLine_counters s line).2) (linesOf docs)
    (a := 0) rfl, zero_add]

/-- The order of the lines makes no difference, nor does their spread over documents. -/
theorem counters_perm {docs docs' : List (List Char)} (h : (linesOf docs).Perm (linesOf docs')) :
    (total docs).memoryBytes = (total docs').memoryBytes ∧
      (total docs).engineNanoseconds = (total docs').engineNanoseconds := by
  rw [memoryBytes_total, memoryBytes_total, engineNanoseconds_total, engineNanoseconds_total,
    (h.filterMap memoryOf).sum_eq, (h.filterMap engineOf).sum_eq]
  exact ⟨rfl, rfl⟩

/-- **What is read** is the total of the files that can be read, unless the listing fails. -/
theorem readEntries_eq (entries : List FdEntry) (summary : GpuSummary) :
    readEntries entries summary = if .failed ∈ entries then none
      else some ((entries.filterMap FdEntry.text).foldl (fun s doc => accumulate doc s) summary) := by
  -- induction on the entries: the first that fails ends the reading
  induction entries generalizing summary with
  | nil => rfl
  | cons entry rest ih =>
    cases entry with
    | failed => rw [if_pos List.mem_cons_self, readEntries]
    | file content =>
      have h_mem : FdEntry.failed ∈ FdEntry.file content :: rest ↔ .failed ∈ rest := by simp
      have h_text : (FdEntry.file content).text = content.bind decode := rfl
      simp only [readEntries, h_mem, List.filterMap_cons, h_text]
      -- a file that cannot be read or decoded is skipped
      cases content.bind decode with
      | none => exact ih summary
      | some text => exact ih (accumulate text summary)

/-- **The order of the listing** makes no difference to the counters, or to whether there are any. -/
theorem read_perm {entries entries' : List FdEntry} (h : entries.Perm entries') :
    (read (some entries)).map GpuSummary.memoryBytes =
        (read (some entries')).map GpuSummary.memoryBytes ∧
      (read (some entries)).map GpuSummary.engineNanoseconds =
        (read (some entries')).map GpuSummary.engineNanoseconds := by
  have h_lines : (linesOf (entries.filterMap FdEntry.text)).Perm
      (linesOf (entries'.filterMap FdEntry.text)) := (h.filterMap _).flatMap_right _
  obtain ⟨h_memory, h_engine⟩ := counters_perm h_lines
  unfold read
  simp only [Option.bind_some, readEntries_eq, h.mem_iff]
  split
  · exact ⟨rfl, rfl⟩
  · exact ⟨congrArg some h_memory, congrArg some h_engine⟩

/-- The gate looks at the memory only. -/
theorem decideFromInputs_congr {gpu gpu' : Option GpuSummary}
    (h : gpu.map GpuSummary.memoryBytes = gpu'.map GpuSummary.memoryBytes) (exe : Option ExeLink)
    (environ : Option Environ) (libs : Option GraphicsLibraries) (fullscreen gamescope : Bool)
    (config : GateConfig) :
    decideFromInputs exe environ libs gpu fullscreen gamescope config =
      decideFromInputs exe environ libs gpu' fullscreen gamescope config := by
  have h_memory : gpu.elim 0 GpuSummary.memoryBytes = gpu'.elim 0 GpuSummary.memoryBytes := by
    have h_elim : ∀ g : Option GpuSummary,
        g.elim 0 GpuSummary.memoryBytes = (g.map GpuSummary.memoryBytes).getD 0 := by
      intro g
      cases g <;> rfl
    rw [h_elim, h_elim, h]
  unfold decideFromInputs
  simp only [h_memory]

/-- **GPU accounting does not depend on order.** The counters are sums over the well-formed lines, cut
off once, wherever these lines are; and the order of the listing makes no difference to the gate. -/
theorem gpuAccounting (docs : List (List Char)) :
    ((∀ line bytes, memoryOf line = some bytes ↔ MemoryLine line bytes) ∧
        ∀ line ns, engineOf line = some ns ↔ EngineLine line ns) ∧
      (total docs).memoryBytes = min (2 ^ 64 - 1) ((linesOf docs).filterMap memoryOf).sum ∧
      (total docs).engineNanoseconds = min (2 ^ 64 - 1) ((linesOf docs).filterMap engineOf).sum ∧
      (∀ docs', docs.Perm docs' ∨ (linesOf docs).Perm (linesOf docs') →
        (total docs).memoryBytes = (total docs').memoryBytes ∧
          (total docs).engineNanoseconds = (total docs').engineNanoseconds) ∧
      ∀ entries entries' : List FdEntry, entries.Perm entries' →
        ∀ exe environ libs fullscreen gamescope config,
          decideFromInputs exe environ libs (read (some entries)) fullscreen gamescope config =
            decideFromInputs exe environ libs (read (some entries')) fullscreen gamescope config := by
  refine ⟨⟨fun _ _ => memoryOf_eq_some_iff, fun _ _ => engineOf_eq_some_iff⟩, memoryBytes_total docs,
    -- sums over the lines do not depend on their order, nor does the decision that reads them
    engineNanoseconds_total docs, fun docs' h => ?_, fun entries entries' h => ?_⟩
  · refine counters_perm (h.elim (fun h_docs => ?_) id)
    exact h_docs.flatMap_right textLines
  · exact decideFromInputs_congr (read_perm h).1

example :
    total ["drm-driver: amdgpu\ndrm-engine-gfx: 500 ns\ndrm-engine-gfx-capacity: 9 ns\n".toList,
      "drm-memory-vram: 300 kB\ndrm-memory-gtt: 1 pages\n".toList] =
        ⟨some "amdgpu", 300 * 1024, 500⟩ := by
  decide +kernel

end Fdinfo

end Ludex
