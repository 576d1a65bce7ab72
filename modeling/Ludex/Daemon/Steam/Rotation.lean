import Ludex.Lib.Run
import Ludex.Daemon.Steam.Tail

/-!
# A content log that is replaced

Steam appends to the log, and now and then starts it again as a fresh file. The source sees only how
long the file is: one that is shorter than the cursor is taken for a new one.

`Rotating` adds to the log and the source what an observer knows: where the reading of the present
file began, which of its lines have been read, and whether the cursor is still a position in an
earlier file. As long as no drain mistakes such a position for one in the present file (`Located`),
the lines read are the complete lines of the file, each once and in order (`rotation_exact`). A drain
that finds a new file at least as long as the old cursor skips the lines before it
(`rotation_skips`).
-/

namespace Ludex

namespace Steam

open Lines Run

/-- The log and the source, and what an observer knows of them. -/
structure Rotating extends Tailing where
  /-- Where the reading of the present file began. -/
  begun : ℕ
  /-- The source at that time. -/
  base : SourceState
  /-- The lines of the present file that have been read. -/
  read : List (List UInt8)
  /-- The cursor is a position in an earlier file. -/
  stale : Bool

/-- What happens to the log. -/
inductive LogMove where
  | append (new : List UInt8)
  /-- The log is replaced by a fresh file, or truncated. -/
  | rotate
  | drain (outlet : DrainOutlet)
  /-- A drain that cannot read the file. -/
  | failedDrain (outlet : DrainOutlet)

/-- A source at the end of a log. -/
def Rotating.starting (content : List UInt8) (cursor : ℕ) (source : SourceState) : Rotating :=
  ⟨⟨content, cursor, source⟩, cursor, source, [], false⟩

/-- The position a drain reads from. -/
def Rotating.start (s : Rotating) : ℕ := Steam.start s.content s.cursor

/-- Drain the log. The observer notes the lines that are read; a cursor that is back at the start of
the file is not stale. -/
def Rotating.drain (s : Rotating) (outlet : DrainOutlet) : Rotating where
  content := s.content
  cursor := (drainOrKeep outlet (some s.content) s.cursor s.source).1
  source := (drainOrKeep outlet (some s.content) s.cursor s.source).2
  begun := s.begun
  base := s.base
  read := s.read ++ lines lf (taken s.content s.start)
  stale := s.stale && decide (s.start ≠ 0)

def Rotating.apply (s : Rotating) : LogMove → Rotating
  | .append new => { s with content := s.content ++ new }
  | .rotate => { s with content := [], begun := 0, base := s.source, read := [], stale := true }
  | .drain outlet => s.drain outlet
  | .failedDrain outlet =>
    { s with
      cursor := (drainOrKeep outlet none s.cursor s.source).1
      source := (drainOrKeep outlet none s.cursor s.source).2 }

/-- One move after another. -/
def Rotating.step (s : Rotating) (move : LogMove) (s' : Rotating) : Prop := s' = s.apply move

/-- The source knows where it is: its cursor is a position in the present file, or is found to be
none, or nothing can be read. -/
def Rotating.Located (s : Rotating) : Prop :=
  s.stale = true → s.content.length < s.cursor ∨ s.cursor = 0 ∨ lf ∉ s.content

/-- A drain is made only where the source knows where it is, and the receiver is there. -/
def Rotating.Allowed (s : Rotating) : LogMove → Prop
  | .drain outlet => s.Located ∧ ∀ sent, outlet.alive sent = true
  | _ => True

/-- Reading has come to a position of the present file. -/
structure Rotating.ReadTo (s : Rotating) (position : ℕ) : Prop where
  atLine : AtLine s.content position
  le : s.begun ≤ position
  read : s.read = lines lf ((s.content.take position).drop s.begun)

/-- The lines read have been fed, and a cursor that is not stale is where reading has come to. -/
structure Rotating.Inv (s : Rotating) : Prop where
  begun : AtLine s.content s.begun
  fed : Fed s.base s.read s.source
  stale : s.stale = true → s.read = [] ∧ s.begun = 0
  fresh : s.stale = false → s.ReadTo s.cursor

section Step

variable {s : Rotating}

theorem Rotating.Inv.starting {content : List UInt8} {cursor : ℕ} (h : AtLine content cursor)
    (source : SourceState) : (Rotating.starting content cursor source).Inv where
  begun := h
  fed := .nil source
  stale := fun h_stale => nomatch h_stale
  fresh := fun _ => ⟨h, le_rfl, by
    show [] = lines lf ((content.take cursor).drop cursor)
    rw [List.drop_eq_nil_of_le (List.length_take_le _ _)]
    rfl⟩

/-- Appended bytes leave what has been read. -/
theorem Rotating.Inv.append (h : s.Inv) (new : List UInt8) : (s.apply (.append new)).Inv where
  begun := h.begun.append new
  fed := h.fed
  stale := h.stale
  fresh := fun h_fresh => by
    obtain ⟨h_line, h_le, h_read⟩ := h.fresh h_fresh
    refine ⟨h_line.append new, h_le, ?_⟩
    show s.read = lines lf (((s.content ++ new).take s.cursor).drop s.begun)
    rw [List.take_append_of_le_length h_line.le]
    exact h_read

/-- Of a fresh file nothing has been read. -/
theorem Rotating.Inv.rotate (s : Rotating) : (s.apply .rotate).Inv where
  begun := AtLine.zero []
  fed := .nil s.source
  stale := fun _ => ⟨rfl, rfl⟩
  fresh := fun h_fresh => nomatch h_fresh

/-- A drain that goes on from a position in an earlier file finds nothing to read. -/
theorem Rotating.Located.notMem (h : s.Located) (h_stale : s.stale = true) (h_start : s.start ≠ 0) :
    lf ∉ s.content := by
  -- otherwise the cursor would have been set back, or is at the start already
  rcases h h_stale with h_short | h_cursor | h_none
  · exact absurd (if_pos h_short) h_start
  · refine absurd ?_ h_start
    show (if s.content.length < s.cursor then 0 else s.cursor) = 0
    rw [h_cursor, ite_self]
  · exact h_none

/-- **A drain that knows where it is** goes on where reading has come to, or there is nothing to
read. -/
theorem Rotating.Inv.located (h : s.Inv) (h_located : s.Located) :
    s.ReadTo s.start ∨ s.stale = true ∧ s.start ≠ 0 ∧ lf ∉ s.content := by
  -- a cursor that is not stale is where the reading stopped
  cases h_stale : s.stale with
  | false =>
    have h_fresh := h.fresh h_stale
    refine Or.inl ?_
    rw [show s.start = s.cursor from h_fresh.atLine.start_eq]
    exact h_fresh
  -- a stale one starts over, unless the new file is long enough to hide the change
  | true =>
    obtain ⟨h_read, h_begun⟩ := h.stale h_stale
    -- then everything read is of the file before
    by_cases h_zero : s.start = 0
    · rw [h_zero]
      refine Or.inl ⟨AtLine.zero _, h_begun.le, ?_⟩
      rw [h_read, List.take_zero, List.drop_nil]
      rfl
    · exact Or.inr ⟨rfl, h_zero, h_located.notMem h_stale h_zero⟩

/-- Nothing is taken from a file without a complete line. -/
theorem taken_of_notMem {content : List UInt8} (h : lf ∉ content) (start : ℕ) :
    taken content start = [] := by
  rcases taken_terminated content start with h_nil | ⟨ys, h_eq⟩
  · exact h_nil
  · have h_mem : lf ∈ taken content start := by
      rw [h_eq]
      exact List.mem_append_right _ (List.mem_singleton_self lf)
    exact absurd (List.mem_of_mem_drop ((taken_isPrefix content start).subset h_mem)) h

theorem Rotating.drain_cursor (s : Rotating) (outlet : DrainOutlet) :
    (s.drain outlet).cursor = s.start + (taken s.content s.start).length :=
  drainLines_cursor outlet s.content s.cursor s.source

/-- Reading goes on behind what is taken. -/
theorem Rotating.ReadTo.drain (h : s.ReadTo s.start) (h_begun : AtLine s.content s.begun)
    (outlet : DrainOutlet) : (s.drain outlet).ReadTo (s.drain outlet).cursor := by
  -- what is taken is what comes next in the file
  obtain ⟨rest, h_drop⟩ := taken_isPrefix s.content s.start
  obtain ⟨h_line, _, h_take⟩ := h.atLine.advance h_drop.symm (taken_terminated _ _)
  have h_old : s.begun ≤ (s.content.take s.start).length := by
    rw [List.length_take_of_le h.atLine.le]
    exact h.le
  -- the lines of both parts, without a gap, since the cursor stood at the end of a line
  rw [s.drain_cursor]
  refine ⟨h_line, h.le.trans (Nat.le_add_right _ _), ?_⟩
  calc s.read ++ lines lf (taken s.content s.start)
    _ = lines lf ((s.content.take s.start).drop s.begun) ++ lines lf (taken s.content s.start) := by
        rw [h.read]
    _ = lines lf ((s.content.take s.start).drop s.begun ++ taken s.content s.start) :=
        (lines_append (h_begun.between h.atLine h.le) _).symm
    _ = lines lf ((s.content.take (s.start + (taken s.content s.start).length)).drop s.begun) := by
        rw [h_take, List.drop_append_of_le_length h_old]

/-- **A drain that knows where it is** keeps the invariant. -/
theorem Rotating.Inv.drain (h : s.Inv) {outlet : DrainOutlet} (h_located : s.Located)
    (h_alive : ∀ sent, outlet.alive sent = true) : (s.drain outlet).Inv where
  begun := h.begun
  fed := h.fed.trans (drainLines_fed h_alive s.content s.cursor s.source)
  -- a stale cursor is behind the end of a file without lines
  stale := by
    intro h_stale
    obtain ⟨h_old, h_start⟩ := Bool.and_eq_true_iff.mp h_stale
    obtain ⟨h_read, h_begun⟩ := h.stale h_old
    refine ⟨?_, h_begun⟩
    show s.read ++ lines lf (taken s.content s.start) = []
    rw [h_read, taken_of_notMem (h_located.notMem h_old (of_decide_eq_true h_start))]
    rfl
  -- the drain has made up for the replacement
  fresh := by
    intro h_fresh
    rcases h.located h_located with h_readTo | ⟨h_stale, h_start, _⟩
    · exact h_readTo.drain h.begun outlet
    · have h_still : (s.drain outlet).stale = true := by
        show (s.stale && decide (s.start ≠ 0)) = true
        rw [h_stale, decide_eq_true h_start]
        rfl
      rw [h_still] at h_fresh
      exact nomatch h_fresh

/-- **A drain that finds what fits** leaves no complete line of the file unread. -/
theorem Rotating.Inv.drain_all (h : s.Inv) (h_located : s.Located)
    (h_fits : Fits s.content s.start) (outlet : DrainOutlet) :
    (s.drain outlet).read = lines lf (s.content.drop s.begun) := by
  show s.read ++ lines lf (taken s.content s.start) = _
  rcases h.located h_located with h_readTo | ⟨h_stale, _, h_none⟩
  · rw [h_readTo.read, taken_eq_iff.mpr h_fits, lines_terminated,
      drop_eq_between s.content h_readTo.le,
      lines_append (h.begun.between h_readTo.atLine h_readTo.le)]
  · rw [(h.stale h_stale).1, taken_of_notMem h_none,
      lines_of_notMem fun h_mem => h_none (List.mem_of_mem_drop h_mem)]
    rfl

/-- Complete lines behind the start of a file are not all of its complete lines, if it has any. -/
theorem notMem_of_terminated_eq {content passed : List UInt8} {start : ℕ} (h_start : start ≠ 0)
    (h_passed : Terminated lf passed) (h_begins : passed <+: content.drop start)
    (h_all : passed = terminated lf content) : lf ∉ content := by
  intro h_mem
  obtain ⟨rest, h_drop⟩ := h_begins
  obtain ⟨ys, h_ys⟩ : ∃ ys, passed = ys ++ [lf] := by
    rcases h_passed with h_nil | h_ys
    · rw [h_all] at h_nil
      exact absurd h_nil (terminated_ne_nil h_mem)
    · exact h_ys
  -- their end is the start of a line, and further on than the complete lines reach
  have h_front : Terminated lf (content.take start ++ passed) :=
    Or.inr ⟨content.take start ++ ys, by rw [h_ys, List.append_assoc]⟩
  have h_content : content = (content.take start ++ passed) ++ rest := by
    rw [List.append_assoc, h_drop, List.take_append_drop]
  have h_len := congrArg List.length (h_front.terminated_append rest)
  rw [← h_content, ← h_all, List.length_append, List.length_append] at h_len
  have h_take : (content.take start).length = 0 := by omega
  rw [List.length_eq_zero_iff, List.take_eq_nil_iff] at h_take
  rcases h_take with h_zero | h_nil
  · exact h_start h_zero
  · rw [h_nil] at h_mem
    exact List.not_mem_nil h_mem

/-- **A drain leaves no complete line of the file unread** exactly if the source knows where it is,
and what it finds fits. -/
theorem Rotating.Inv.drain_all_iff (h : s.Inv) (outlet : DrainOutlet) :
    (s.drain outlet).read = lines lf (s.content.drop s.begun) ↔
      s.Located ∧ Fits s.content s.start := by
  refine ⟨fun h_all => ?_, fun ⟨h_located, h_fits⟩ => h.drain_all h_located h_fits outlet⟩
  -- lines are compared by the bytes they are made of
  have h_flat : (s.drain outlet).read.flatten = terminated lf (s.content.drop s.begun) := by
    rw [h_all, flatten_lines]
  change (s.read ++ lines lf (taken s.content s.start)).flatten = _ at h_flat
  rw [List.flatten_append, flatten_lines, (taken_terminated _ _).eq] at h_flat
  cases h_stale : s.stale with
  | false =>
    have h_readTo := h.fresh h_stale
    have h_start : s.start = s.cursor := h_readTo.atLine.start_eq
    have h_between := h.begun.between h_readTo.atLine h_readTo.le
    rw [h_readTo.read, flatten_lines, h_between.eq, drop_eq_between s.content h_readTo.le,
      h_between.terminated_append, h_start] at h_flat
    rw [h_start]
    exact ⟨fun h_true => absurd (h_stale.symm.trans h_true) Bool.false_ne_true,
      taken_eq_iff.mp (List.append_cancel_left h_flat)⟩
  | true =>
    -- nothing of the file has been read, and the cursor is not a place in it
    obtain ⟨h_read, h_begun⟩ := h.stale h_stale
    rw [h_read, h_begun, List.flatten_nil, List.nil_append, List.drop_zero] at h_flat
    by_cases h_start : s.start = 0
    · refine ⟨fun _ => ?_, ?_⟩
      · -- the cursor has been set back, or was at the start
        by_cases h_short : s.content.length < s.cursor
        · exact Or.inl h_short
        · exact Or.inr (Or.inl ((if_neg h_short).symm.trans h_start))
      · rw [h_start] at h_flat ⊢
        exact taken_eq_iff.mp h_flat
    · have h_none := notMem_of_terminated_eq h_start (taken_terminated _ _) (taken_isPrefix _ _) h_flat
      refine ⟨fun _ => Or.inr (Or.inr h_none), taken_eq_iff.mp ?_⟩
      rw [taken_of_notMem h_none,
        terminated_of_notMem fun h_mem => h_none (List.mem_of_mem_drop h_mem)]

/-- The lines read are the first ones of the file. -/
theorem Rotating.Inv.read_prefix (h : s.Inv) : s.read <+: lines lf (s.content.drop s.begun) := by
  cases h_stale : s.stale with
  | false =>
    obtain ⟨h_line, h_le, h_read⟩ := h.fresh h_stale
    rw [h_read, drop_eq_between s.content h_le, lines_append (h.begun.between h_line h_le)]
    exact List.prefix_append _ _
  | true =>
    rw [(h.stale h_stale).1]
    exact List.nil_prefix

end Step

/-- **One move** keeps the invariant. -/
theorem Rotating.Inv.step {s s' : Rotating} {move : LogMove} (h_step : s.step move s')
    (h_allowed : s.Allowed move) (h : s.Inv) : s'.Inv := by
  obtain rfl := h_step
  cases move with
  | append new => exact h.append new
  | rotate => exact Inv.rotate s
  | drain outlet => exact h.drain h_allowed.1 h_allowed.2
  | failedDrain outlet => exact h

/-- **Rotation loses nothing** in a run whose drains know where they are: the lines read of the
present file are its first ones, in order and once each, and their events are sent. The next drain
leaves none of them unread exactly if it knows where it is and what it finds fits. -/
theorem rotation_exact {content : List UInt8} {cursor : ℕ} (h_line : AtLine content cursor)
    (source : SourceState) {tr : List (LogMove × Rotating)}
    (h_run : IsRun Rotating.step (Rotating.starting content cursor source) tr)
    (h_allowed : ∀ x ∈ steps (Rotating.starting content cursor source) tr, x.1.Allowed x.2.1) :
    ∀ s ∈ states (Rotating.starting content cursor source) tr,
      s.read <+: lines lf (s.content.drop s.begun) ∧ Fed s.base s.read s.source ∧
        ∀ outlet, (s.drain outlet).read = lines lf (s.content.drop s.begun) ↔
          s.Located ∧ Fits s.content s.start := by
  intro s hs
  have h_inv := h_run.invariant_of_steps Rotating.Inv Rotating.Allowed
    (fun _ _ _ => Rotating.Inv.step) h_allowed (Rotating.Inv.starting h_line source) s hs
  exact ⟨h_inv.read_prefix, h_inv.fed, h_inv.drain_all_iff⟩

/-! ### Fresh files -/

/-- The log of `startLine` is replaced by another one. -/
def replaced (content : List UInt8) : Rotating :=
  ((Rotating.starting startLine startLine.length {}).apply .rotate).apply (.append content)

/-- A line that is shorter than the one before the rotation. -/
def shortLine : List UInt8 := encode "[t] AppID 9 state changed : App Running,\n".toList

/-- A shorter file is read from its start. -/
theorem rotation_exact_shorter :
    ((replaced shortLine).drain .steady).read = lines lf ((replaced shortLine).content.drop 0) := by
  have h_run : IsRun Rotating.step (Rotating.starting startLine startLine.length {})
      [(.rotate, (Rotating.starting startLine startLine.length {}).apply .rotate),
        (.append shortLine, replaced shortLine)] :=
    .cons rfl (.cons rfl (.nil _))
  -- the file was replaced by a shorter one, and the source started over
  refine ((rotation_exact startLine_atLine {} h_run ?_ (replaced shortLine) ?_).2.2 .steady).mpr ⟨?_, ?_⟩
  · intro x hx
    simp only [steps, List.mem_cons, List.not_mem_nil, or_false] at hx
    rcases hx with rfl | rfl
    · trivial
    · trivial
  · exact final_mem_states _ _
  · exact fun _ => Or.inl (by decide +kernel)
  · exact ⟨by decide +kernel, by decide +kernel⟩

/-- A line that is longer than the one before the rotation. -/
def longLine : List UInt8 :=
  encode "[t] AppID 1621690 state changed : App Running,\n".toList

/-- **A longer file is read from the old cursor**: its line is not read, and a part of it is. -/
theorem rotation_skips :
    ((replaced longLine).drain .steady).read = [longLine.drop startLine.length] ∧
      lines lf ((replaced longLine).content.drop (replaced longLine).begun) = [longLine] ∧
      longLine.drop startLine.length ≠ longLine := by
  refine ⟨?_, ?_, ?_⟩
  · decide +kernel
  · decide +kernel
  · decide +kernel

end Steam

end Ludex
